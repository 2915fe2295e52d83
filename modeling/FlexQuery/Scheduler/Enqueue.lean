import FlexQuery.Python.Date
import FlexQuery.Schema.Jobs

/-!
# Enqueueing

`scheduler/enqueue.py` and `enqueue_slot` of `scheduler/daily.py`.  The hash is the one piece
taken as given: `payloadHash` stands for the first sixteen digits of a SHA-256 over the
canonical JSON text.

* `insertJob` — insert unless an identical job is already pending or running.
* `insertManualJob` — a manual run, recorded as a job that is already running.
* `enqueueSlot` — what a slot looks like in the queue; `catchupPayload` is what the worker's
  catch-up passes to it.

`insertJob_ok`, `insertManualJob_ok` and `enqueueSlot_ok` say which row each hands to
`JobTable.insert`; later proofs use nothing else about them.
-/

set_option autoImplicit false

namespace FlexQuery

/-- The row `insert_job` writes; every other column takes its default. -/
def newJob (now : Timestamp) (kind : String) (payload : Dict) (hash : String) (priority : ℤ)
    (maxAttempts : ℕ) : JobRow where
  id := 0
  kind := kind
  payload := payload
  payloadHash := some hash
  priority := priority
  maxAttempts := maxAttempts
  createdAt := now
  updatedAt := now

/-- `insert_job`. -/
def insertJob (payloadHash : Dict → String) (now : Timestamp) (kind : String) (payload : Dict)
    (priority : ℤ) (maxAttempts : ℕ) (hashPayload : Option Dict) (t : JobTable) :
    Except PyExc (JobTable × Option ℕ) :=
  if strip kind = "" then .error (.valueError "kind is required")
  else
    let hash := payloadHash (hashPayload.getD payload)
    .ok (t.insert (newJob now (strip kind) payload hash priority maxAttempts))

/-- The row `insert_manual_job` writes. -/
def newManualJob (now : Timestamp) (kind : String) (payload : Dict) : JobRow where
  id := 0
  kind := kind
  payload := Dict.merge [("manual", .bool true)] payload
  payloadHash := none
  status := .running
  attempts := 1
  maxAttempts := 1
  createdAt := now
  updatedAt := now
  startedAt := some now

/-- `insert_manual_job`. -/
def insertManualJob (now : Timestamp) (kind : String) (payload : Dict) (t : JobTable) :
    Except PyExc (JobTable × ℕ) :=
  if strip kind = "" then .error (.valueError "kind is required")
  else
    match t.insert (newManualJob now (strip kind) payload) with
    | (t', some k) => .ok (t', k)
    | (_, none) => .error (.other "TypeError" "'NoneType' object is not subscriptable")

theorem insertJob_ok {payloadHash : Dict → String} {now : Timestamp} {kind : String}
    {payload : Dict} {priority : ℤ} {n : ℕ} {hashPayload : Option Dict} {t t' : JobTable}
    {k : Option ℕ}
    (h : insertJob payloadHash now kind payload priority n hashPayload t = .ok (t', k)) :
    t.insert (newJob now (strip kind) payload (payloadHash (hashPayload.getD payload))
      priority n) = (t', k) := by
  unfold insertJob at h
  split at h
  · cases h
  · exact Except.ok.inj h

theorem insertManualJob_ok {now : Timestamp} {kind : String} {payload : Dict} {t t' : JobTable}
    {k : ℕ} (h : insertManualJob now kind payload t = .ok (t', k)) :
    k = t.nextId ∧ t' = (t.insert (newManualJob now (strip kind) payload)).1 ∧
      t'.rows = t.rows ++ [{ newManualJob now (strip kind) payload with id := t.nextId }] := by
  obtain ⟨hrows, hk⟩ := JobTable.insert_of_activeKey_none (t := t)
    (r := newManualJob now (strip kind) payload) rfl
  unfold insertManualJob at h
  split at h
  · cases h
  · split at h
    · rename_i u k' hins
      cases h
      rw [hins] at hrows hk ⊢
      exact ⟨Option.some.inj hk, rfl, hrows⟩
    · cases h

/-! ## Slots -/

def SLOT_NAMES : List String := ["flex-trades", "flex-transactions"]

/-- `SLOT_KIND`: each slot's kind carries its own name. -/
def slotKind (slot : String) : String := slot

def DEFAULT_SLOT_MAX_ATTEMPTS : ℕ := 8

/-- The keys the dedupe ignores. -/
def EXECUTION_KEYS : List String := ["fallback", "catchup"]

/-- `scheduler.slots.<slot>`: what `enqueue_slot` reads of it. -/
structure SlotConfig where
  priority : Option ℤ := none
  maxAttempts : Option ℕ := none

/-- `int(scfg.get("max_attempts") or DEFAULT_SLOT_MAX_ATTEMPTS)`. -/
def SlotConfig.budget (c : SlotConfig) : ℕ :=
  match c.maxAttempts with
  | none => DEFAULT_SLOT_MAX_ATTEMPTS
  | some n => if n = 0 then DEFAULT_SLOT_MAX_ATTEMPTS else n

theorem SlotConfig.budget_pos (c : SlotConfig) : 0 < c.budget := by
  unfold budget
  split
  · decide
  · split
    · decide
    · rename_i h
      exact Nat.pos_of_ne_zero h

/-- `datetime.now(timezone.utc).date().isoformat()`; 719163 is 1970-01-01. -/
def utcDay (now : Timestamp) : String :=
  isoformat (Calendar.ofOrdinal (now / 86400000000 + 719163).toNat)

/-- What `enqueue_slot` answers. -/
structure EnqueueResult where
  slot : String
  kind : String
  enqueued : ℕ
  deduped : ℕ
  jobId : Option ℕ
  payload : Dict
  maxAttempts : ℕ

/-- The stored payload: `as_of` and `fallback` filled in. -/
def slotBody (now : Timestamp) (payload : Dict) : Dict :=
  (payload.setdefault "as_of" (.str (utcDay now))).setdefault "fallback" (.bool false)

/-- What identifies the job: everything but the execution knobs. -/
def slotIdentity (now : Timestamp) (payload : Dict) : Dict :=
  (payload.setdefault "as_of" (.str (utcDay now))).filter fun e => e.1 ∉ EXECUTION_KEYS

/-- `enqueue_slot`. -/
def enqueueSlot (payloadHash : Dict → String) (slots : String → SlotConfig) (now : Timestamp)
    (slot : String) (payload : Dict) (t : JobTable) : Except PyExc (JobTable × EnqueueResult) :=
  let slotKey := lower (strip slot)
  if slotKey ∉ SLOT_NAMES then
    .error (.valueError ("unknown slot: '" ++ slot ++
      "' (expected one of ('flex-trades', 'flex-transactions'))"))
  else
    let cfg := slots slotKey
    match insertJob payloadHash now (slotKind slotKey) (slotBody now payload)
        (cfg.priority.getD 0) cfg.budget (some (slotIdentity now payload)) t with
    | .error e => .error e
    | .ok (t', jobId) =>
      .ok (t', {
        slot := slotKey
        kind := slotKind slotKey
        enqueued := if jobId.isNone then 0 else 1
        deduped := if jobId.isNone then 1 else 0
        jobId := jobId
        payload := slotBody now payload
        maxAttempts := cfg.budget })

/-- The index entry a slot's job takes; none for an unknown slot. -/
def slotEntry (payloadHash : Dict → String) (now : Timestamp) (slot : String) (payload : Dict) :
    Option (String × String) :=
  if lower (strip slot) ∉ SLOT_NAMES then none
  else some (strip (slotKind (lower (strip slot))), payloadHash (slotIdentity now payload))

theorem enqueueSlot_ok {payloadHash : Dict → String} {slots : String → SlotConfig}
    {now : Timestamp} {slot : String} {payload : Dict} {t t' : JobTable} {res : EnqueueResult}
    (h : enqueueSlot payloadHash slots now slot payload t = .ok (t', res)) :
    ∃ kind hash priority n, 0 < n ∧ slotEntry payloadHash now slot payload = some (kind, hash) ∧
      t.insert (newJob now kind (slotBody now payload) hash priority n) = (t', res.jobId) := by
  unfold enqueueSlot at h
  simp only at h
  split at h
  · cases h
  · rename_i hslot
    split at h
    · cases h
    · rename_i u k hins
      cases h
      exact ⟨_, _, _, _, SlotConfig.budget_pos _, if_neg hslot, insertJob_ok hins⟩

theorem enqueueSlot_error {payloadHash : Dict → String} {slots : String → SlotConfig}
    {now : Timestamp} {slot : String} {payload : Dict} {t : JobTable} {e : PyExc}
    (h : enqueueSlot payloadHash slots now slot payload t = .error e) :
    slotEntry payloadHash now slot payload = none := by
  have hnames : ∀ k ∈ SLOT_NAMES, strip (slotKind k) ≠ "" := by decide
  unfold enqueueSlot at h
  simp only at h
  split at h
  · rename_i hslot
    exact if_pos hslot
  · rename_i hslot
    split at h
    · rename_i e' hins
      unfold insertJob at hins
      rw [if_neg (hnames _ (not_not.mp hslot))] at hins
      cases hins
    · cases h

/-- What `catchup_missed_slots` enqueues a missed slot with. -/
def catchupPayload (asOf : String) : Dict := [("as_of", .str asOf), ("catchup", .bool true)]

end FlexQuery
