import FlexQuery.Python.Dumps
import FlexQuery.Queue.Identity

/-!
# What makes two requests for a slot the same

* `payloadHash` — `payload_hash`: the canonical JSON text of a payload, digested.
* `Payload` — a JSON object, as `enqueue_slot` is given one.
* `KeepsKnobs` — the payload a request asks for: every key as the caller has it, a missing
  `as_of` and a missing `fallback` filled in.
* `deduped_iff` — while the first job is pending or running, its entry is the second's exactly
  when the two payloads are equal but for the execution knobs.
-/

set_option autoImplicit false

namespace FlexQuery

open Transition

/-- `payload_hash(payload)`; `digest` is the first sixteen hexadecimal digits of the SHA-256. -/
def payloadHash (digest : String → String) (payload : Dict) : String :=
  digest (dumps (.obj payload))

/-- The queue with this hash. -/
def QueueConfig.hashing (cfg : QueueConfig) (digest : String → String) : QueueConfig :=
  { cfg with payloadHash := FlexQuery.payloadHash digest }

/-- A JSON object: no key stands twice, at any depth, and every number is one. -/
structure Payload where
  fields : Dict
  valid : (Json.obj fields).valid = true

/-- The stored payload: the caller's value of every key, `as_of` and `fallback` filled in. -/
def KeepsKnobs (now : Timestamp) (payload body : Dict) : Prop :=
  ∀ k, body.get k = (payload.get k).or
    (if k = "as_of" then some (.str (utcDay now))
      else if k = "fallback" then some (.bool false) else none)

theorem Dict.get_setdefault (d : Dict) (k : String) (v : Json) (k' : String) :
    (d.setdefault k v).get k' = (d.get k').or (if k' = k then some v else none) := by
  unfold Dict.setdefault
  split
  · rename_i hsome
    obtain ⟨w, hw⟩ := Option.isSome_iff_exists.mp hsome
    split
    · rename_i hk
      rw [hk, hw]
      rfl
    · rw [Option.or_none]
  · unfold Dict.get
    rw [List.find?_append, Option.map_or]
    congr 1
    by_cases hk : k' = k
    · rw [if_pos hk, List.find?_cons_of_pos (by simp [hk])]
      rfl
    · rw [if_neg hk, List.find?_cons_of_neg (by simpa using Ne.symm hk)]
      rfl

theorem slotBody_keepsKnobs (now : Timestamp) (payload : Dict) :
    KeepsKnobs now payload (slotBody now payload) := by
  intro k
  unfold slotBody
  rw [Dict.get_setdefault, Dict.get_setdefault, Option.or_assoc]
  congr 1
  split
  · rename_i hk
    rw [hk]
    rfl
  · rfl

/-! ## The identity is a JSON value -/

theorem valid_setdefault {d : Dict} (h : (Json.obj d).valid = true) (k s : String) :
    (Json.obj (d.setdefault k (.str s))).valid = true := by
  unfold Dict.setdefault
  split
  · exact h
  · rename_i hnone
    obtain ⟨hkeys, hfields⟩ := Json.valid_obj.mp h
    refine Json.valid_obj.mpr ⟨?_, ?_⟩
    · rw [List.map_append]
      refine hkeys.append (List.nodup_singleton k) ?_
      intro x hx hk
      obtain ⟨e, he, rfl⟩ := List.mem_map.mp hx
      have hkey : e.1 = k := by simpa using hk
      apply hnone
      rw [← hkey, (Dict.get_iff hkeys).mpr he]
      rfl
    · intro e he
      rcases List.mem_append.mp he with he | he
      · exact hfields e he
      · rw [List.mem_singleton.mp he]
        rfl

theorem slotIdentity_valid (now : Timestamp) (p : Payload) :
    (Json.obj (slotIdentity now p.fields)).valid = true := by
  obtain ⟨hkeys, hfields⟩ := Json.valid_obj.mp (valid_setdefault p.valid "as_of" (utcDay now))
  refine Json.valid_obj.mpr ⟨?_, fun e he => hfields e (List.mem_of_mem_filter he)⟩
  exact hkeys.sublist (List.filter_sublist.map _)

/-! ## A job keeps what it was queued with -/

/-- The columns of a queued job that no statement changes. -/
structure JobRow.Carries (kind : String) (body : Dict) (hash : String) (r : JobRow) : Prop where
  kind : r.kind = kind
  payload : r.payload = body
  payloadHash : r.payloadHash = some hash

theorem JobTable.At.carries_update {t t' : JobTable} {k : ℕ} {kind hash : String} {body : Dict}
    {p : JobRow → Bool} {f : JobRow → JobRow} {hid : ∀ r, (f r).id = r.id}
    (hk : t.At k (JobRow.Carries kind body hash)) (ht : t.update p f hid = .ok t')
    (hf : ∀ r, (f r).imprint = r.imprint ∧ (f r).payload = r.payload) :
    t'.At k (JobRow.Carries kind body hash) := by
  refine hk.update ht ?_
  intro r _ _ hc _
  obtain ⟨himprint, hpayload⟩ := hf r
  simp only [JobRow.imprint, Prod.mk.injEq] at himprint
  obtain ⟨_, hkind, hhash, _⟩ := himprint
  exact ⟨hkind.trans hc.kind, hpayload.trans hc.payload, hhash.trans hc.payloadHash⟩

theorem step_carries {cfg : QueueConfig} {s s' : Sys} {l : Timestamp × Action} {k : ℕ}
    {kind hash : String} {body : Dict} (hk : s.table.At k (JobRow.Carries kind body hash))
    (h : step cfg s l = some s') : s'.table.At k (JobRow.Carries kind body hash) := by
  obtain ⟨now, a⟩ := l
  cases step_effect h with
  | nothing => exact hk
  | insert => exact hk.insert
  | runNow _ _ t r hr hst hcool ht => exact hk.carries_update ht fun _ => ⟨rfl, rfl⟩
  | manualStart => exact hk.insert
  | manualFinish k' res t hk' ht =>
    rcases auditFinish_cases ht with ⟨result, ht⟩ | ⟨error, category, ht⟩
    · exact hk.carries_update ht fun _ => ⟨rfl, rfl⟩
    · exact hk.carries_update ht fun _ => ⟨rfl, rfl⟩
  | manualAbandon => exact hk
  | claim w r t hw hr hcl ht => exact hk.carries_update ht fun _ => ⟨rfl, rfl⟩
  | reclaim w t hw ht => exact hk.carries_update ht fun _ => ⟨rfl, rfl⟩
  | done w j result t hw ht => exact hk.carries_update ht fun _ => ⟨rfl, rfl⟩
  | retry w j msg t hw hp ht => exact hk.carries_update ht fun _ => ⟨rfl, rfl⟩
  | violation => exact hk
  | giveUp w j msg t hw hp ht => exact hk.carries_update ht fun _ => ⟨rfl, rfl⟩
  | cool w j delay t hw ht => exact hk.carries_update ht fun _ => ⟨rfl, rfl⟩
  | crash => exact hk

theorem exec_carries {cfg : QueueConfig} {s u : Sys} {as : List (Timestamp × Action)} {k : ℕ}
    {kind hash : String} {body : Dict} (hk : s.table.At k (JobRow.Carries kind body hash))
    (h : exec (step cfg) s as = some u) : u.table.At k (JobRow.Carries kind body hash) :=
  exec_kept (fun s => s.table.At k (JobRow.Carries kind body hash)) (fun _ _ _ => step_carries) hk h

/-! ## The second request -/

/-- What `enqueue_slot` answers, and what it leaves in the table. -/
theorem enqueueSlot_answer {hashOf : Dict → String} {slots : String → SlotConfig}
    {now : Timestamp} {slot : String} {payload : Dict} {t t' : JobTable} {res : EnqueueResult}
    (h : enqueueSlot hashOf slots now slot payload t = .ok (t', res)) :
    res.payload = slotBody now payload ∧ res.deduped = (if res.jobId.isNone then 1 else 0) := by
  unfold enqueueSlot at h
  simp only at h
  split at h
  · cases h
  · split at h
    · cases h
    · cases h
      exact ⟨rfl, rfl⟩

/-- A request leaves every row as it was, and is dropped exactly when an active row has its entry;
otherwise its own row is appended. -/
theorem enqueueSlot_spec {hashOf : Dict → String} {slots : String → SlotConfig}
    {now : Timestamp} {slot : String} {payload : Dict} {t t' : JobTable} {res : EnqueueResult}
    (h : enqueueSlot hashOf slots now slot payload t = .ok (t', res)) :
    ∃ kind hash, slotEntry hashOf now slot payload = some (kind, hash) ∧
      (res.jobId = none ↔ ∃ x ∈ t.rows, x.activeKey = some (kind, hash)) ∧
      (∀ k x, t.row k = some x → t'.row k = some x) ∧
      ∀ k, res.jobId = some k → t'.At k (JobRow.Carries kind (slotBody now payload) hash) := by
  obtain ⟨kind, hash, priority, n, _, hentry, hins⟩ := enqueueSlot_ok h
  have hkey : ({ newJob now kind (slotBody now payload) hash priority n with id := t.nextId } :
      JobRow).activeKey = some (kind, hash) := rfl
  have hdropped := JobTable.insert_rows_eq_iff hkey
  have hcases := t.insert_cases (newJob now kind (slotBody now payload) hash priority n)
  rw [hins] at hdropped hcases
  refine ⟨kind, hash, hentry, Iff.trans ?_ hdropped, ?_, ?_⟩
  · rcases hcases with ⟨hrows, hid, _⟩ | ⟨hrows, hid, _⟩
    · refine iff_of_false ?_ fun hsame => ?_
      · rw [show res.jobId = some t.nextId from hid]
        rintro ⟨⟩
      have hlength := congrArg List.length (hrows.symm.trans hsame)
      simp at hlength
    · exact iff_of_true hid hrows
  · intro k x hx
    have hat : t.At k (· = x) := ⟨x, hx, rfl⟩
    have hkept := hat.insert (r := newJob now kind (slotBody now payload) hash priority n)
    rw [hins] at hkept
    obtain ⟨y, hy, rfl⟩ := hkept
    exact hy
  · intro k hk
    rcases hcases with ⟨hrows, hid, _⟩ | ⟨_, hid, _⟩
    · rw [hk] at hid
      cases hid
      have hrow : { newJob now kind (slotBody now payload) hash priority n with id := t.nextId } ∈
          t'.rows := by
        rw [hrows]
        exact List.mem_append_right _ (List.mem_singleton_self _)
      exact JobTable.At.of_mem hrow ⟨rfl, rfl, rfl⟩
    · rw [hk] at hid
      cases hid

/-- The entries of two requests for one slot differ by their hashes only. -/
theorem slotEntry_sameSlot {hashOf : Dict → String} {now : Timestamp} {slot slot' : String}
    {payload : Dict} {kind hash : String} (hslot : lower (strip slot) = lower (strip slot'))
    (h : slotEntry hashOf now slot payload = some (kind, hash)) :
    hash = hashOf (slotIdentity now payload) ∧ ∀ now' payload',
      slotEntry hashOf now' slot' payload' = some (kind, hashOf (slotIdentity now' payload')) := by
  unfold slotEntry at h ⊢
  split at h
  · cases h
  · rename_i hknown
    obtain ⟨rfl, rfl⟩ := Prod.mk.inj (Option.some.inj h)
    refine ⟨rfl, fun now' payload' => ?_⟩
    rw [← hslot, if_neg hknown]

/-- The two payloads are equal as JSON values, `as_of` filled in and the execution knobs left
out. -/
def SameIdentity (now : Timestamp) (p : Payload) (now' : Timestamp) (q : Payload) : Prop :=
  (Json.obj (slotIdentity now p.fields)).same (.obj (slotIdentity now' q.fields)) = true

theorem payloadHash_eq_iff {digest : String → String} {now now' : Timestamp} {p q : Payload}
    (hdigest : digest (dumps (.obj (slotIdentity now p.fields))) =
        digest (dumps (.obj (slotIdentity now' q.fields))) →
      dumps (.obj (slotIdentity now p.fields)) = dumps (.obj (slotIdentity now' q.fields))) :
    payloadHash digest (slotIdentity now p.fields) =
      payloadHash digest (slotIdentity now' q.fields) ↔ SameIdentity now p now' q := by
  unfold SameIdentity
  rw [← dumps_inj_iff (slotIdentity_valid now p) (slotIdentity_valid now' q)]
  exact ⟨hdigest, congrArg digest⟩

/-- **Identity is the payload without its knobs.**  Whatever happens between two requests for a
slot, as long as the first one's job is pending or running its entry is the second's exactly when
the payloads have the same identity; the second is dropped exactly then, unless a third job has its
entry.  Each stored payload keeps the knobs its caller gave. -/
theorem deduped_iff (digest : String → String) (cfg : QueueConfig)
    {slots slots' : String → SlotConfig} (p q : Payload) {slot slot' : String}
    (hslot : lower (strip slot) = lower (strip slot')) {now now' : Timestamp} {s u : Sys}
    {t : JobTable} {res : EnqueueResult} {k : ℕ} {x : JobRow} {as : List (Timestamp × Action)}
    (hfirst : enqueueSlot (payloadHash digest) slots now slot p.fields s.table = .ok (t, res))
    (hk : res.jobId = some k)
    (hrun : exec (step (cfg.hashing digest)) { s with table := t } as = some u)
    (hx : u.table.row k = some x) (hactive : x.status.active = true)
    (hdigest : digest (dumps (.obj (slotIdentity now p.fields))) =
        digest (dumps (.obj (slotIdentity now' q.fields))) →
      dumps (.obj (slotIdentity now p.fields)) = dumps (.obj (slotIdentity now' q.fields))) :
    ∃ t' res', enqueueSlot (payloadHash digest) slots' now' slot' q.fields u.table =
        .ok (t', res') ∧
      (x.activeKey = slotEntry (payloadHash digest) now' slot' q.fields ↔
        SameIdentity now p now' q) ∧
      (res'.deduped = 1 ↔ SameIdentity now p now' q ∨ ∃ y ∈ u.table.rows, y.id ≠ k ∧
        y.activeKey = slotEntry (payloadHash digest) now' slot' q.fields) ∧
      KeepsKnobs now p.fields x.payload ∧ t'.row k = some x ∧
      KeepsKnobs now' q.fields res'.payload ∧
      ∀ k', res'.jobId = some k' → ∃ y, t'.row k' = some y ∧ y.payload = res'.payload := by
  obtain ⟨kind, hash, hentry, _, _, hstored⟩ := enqueueSlot_spec hfirst
  obtain ⟨rfl, hentries⟩ := slotEntry_sameSlot hslot hentry
  obtain ⟨x', hx', hcarries⟩ := exec_carries (hstored k hk) hrun
  obtain rfl : x = x' := Option.some.inj (hx.symm.trans hx')
  have hkey : x.activeKey = some (kind, payloadHash digest (slotIdentity now p.fields)) := by
    unfold JobRow.activeKey
    rw [if_pos hactive, hcarries.kind, hcarries.payloadHash]
    rfl
  have hsame : x.activeKey = slotEntry (payloadHash digest) now' slot' q.fields ↔
      SameIdentity now p now' q := by
    rw [← payloadHash_eq_iff hdigest, hkey, hentries]
    simp
  cases hsecond : enqueueSlot (payloadHash digest) slots' now' slot' q.fields u.table with
  | error e =>
    have hnone := enqueueSlot_error hsecond
    rw [hentries] at hnone
    cases hnone
  | ok answer =>
    obtain ⟨t', res'⟩ := answer
    obtain ⟨hpayload, hdeduped⟩ := enqueueSlot_answer hsecond
    obtain ⟨kind', hash', hentry', hdropped, hkept, hstored'⟩ := enqueueSlot_spec hsecond
    refine ⟨t', res', rfl, hsame, ?_, ?_, hkept k x hx, ?_, ?_⟩
    · have hnone : res'.deduped = 1 ↔ res'.jobId = none := by
        rw [hdeduped]
        cases res'.jobId <;> simp
      obtain ⟨hmem, hid⟩ := JobTable.row_some hx
      rw [hnone, hdropped, ← hentry', ← hsame]
      constructor
      · rintro ⟨y, hy, hykey⟩
        by_cases hyk : y.id = k
        · have hrow := JobTable.row_mem hy
          rw [hyk, hx] at hrow
          cases hrow
          exact Or.inl hykey
        · exact Or.inr ⟨y, hy, hyk, hykey⟩
      · rintro (hfirstKey | ⟨y, hy, _, hykey⟩)
        · exact ⟨x, hmem, hfirstKey⟩
        · exact ⟨y, hy, hykey⟩
    · rw [hcarries.payload]
      exact slotBody_keepsKnobs now p.fields
    · rw [hpayload]
      exact slotBody_keepsKnobs now' q.fields
    · intro k' hk'
      obtain ⟨y, hy, hc⟩ := hstored' k' hk'
      exact ⟨y, hy, hc.payload.trans hpayload.symm⟩

/-- The digest of one text, and of no other. -/
def oneDigest (text : String) : String :=
  if text = "\x7b\"as_of\":\"2026-08-17\",\"query\":\x7b\"ids\":[1,2],\"tag\":\"x\"\x7d\x7d" then
    "d755edff470232cc"
  else "b322ce7663d78132"

def plainRequest : Payload where
  fields := [("as_of", .str "2026-08-17"),
    ("query", .obj [("ids", .arr [.int 1, .int 2]), ("tag", .str "x")])]
  valid := by decide +kernel

/-- The same in another order, with both knobs. -/
def knobbedRequest : Payload where
  fields := [("fallback", .bool true), ("catchup", .bool true),
    ("query", .obj [("tag", .str "x"), ("ids", .arr [.int 1, .int 2])]),
    ("as_of", .str "2026-08-17")]
  valid := by decide +kernel

/-- The first request's job is running when the second one comes. -/
theorem deduped_knobbed :
    ∃ t t' res', JobTable.row t 1 ≠ none ∧ enqueueSlot (payloadHash oneDigest) scheduleConfig.slots
      (seconds 20) " Flex-Trades" knobbedRequest.fields t = .ok (t', res') ∧ res'.deduped = 1 := by
  have hrun : (enqueueSlot (payloadHash oneDigest) scheduleConfig.slots (seconds 0) "flex-trades"
      plainRequest.fields JobTable.empty).toOption.any (fun a => a.2.jobId = some 1 &&
        (exec (step (scheduleConfig.hashing oneDigest)) { Sys.init with table := a.1 }
          [(seconds 5, .claimNext 0)]).any fun u =>
            (u.table.row 1).any fun x => x.status = .running) = true := by
    decide +kernel
  have hsame : SameIdentity (seconds 0) plainRequest (seconds 20) knobbedRequest := by
    unfold SameIdentity
    decide +kernel
  obtain ⟨⟨t, res⟩, hfirst, hrest⟩ := (Option.any_eq_true _ _).mp hrun
  obtain ⟨hk, hrest⟩ := Bool.and_eq_true_iff.mp hrest
  obtain ⟨u, hu, hrow⟩ := (Option.any_eq_true _ _).mp hrest
  obtain ⟨x, hx, hrunning⟩ := (Option.any_eq_true _ _).mp hrow
  have hactive : x.status.active = true := by
    rw [of_decide_eq_true hrunning]
    rfl
  have hfirst' : enqueueSlot (payloadHash oneDigest) scheduleConfig.slots (seconds 0) "flex-trades"
      plainRequest.fields JobTable.empty = .ok (t, res) := by
    cases hanswer : enqueueSlot (payloadHash oneDigest) scheduleConfig.slots (seconds 0)
        "flex-trades" plainRequest.fields JobTable.empty with
    | error e =>
      rw [hanswer] at hfirst
      cases hfirst
    | ok answer =>
      rw [hanswer] at hfirst
      exact congrArg Except.ok (Option.some.inj hfirst)
  obtain ⟨t', res', hsecond, _, hdeduped, _⟩ := @deduped_iff oneDigest scheduleConfig
    scheduleConfig.slots scheduleConfig.slots plainRequest knobbedRequest "flex-trades"
    " Flex-Trades" (by decide) (seconds 0) (seconds 20) Sys.init u t res 1 x _ hfirst'
    (of_decide_eq_true hk) hu hx hactive
    (fun _ => (dumps_inj_iff (slotIdentity_valid _ _) (slotIdentity_valid _ _)).mpr hsame)
  exact ⟨u.table, t', res', by rw [hx]; rintro ⟨⟩, hsecond, hdeduped.mpr (Or.inl hsame)⟩

end FlexQuery
