import FlexQuery.Queue.System

/-!
# One job per slot and day

* `JobRow.imprint` — the columns no statement changes once the row is inserted.
* `effect_quiet`, `effect_arrival` — a step appends at most one row, and the row of an arrival
  exactly when no active row has its entry; `step_imprints` — it loses none.
* `DayEntry` — what every enqueue of a slot for a day, catch-up included, has in common.
* `one_job_iff` — in which runs it is inserted at most once.
* `late_enqueue_inserts` — the scheduler's request that comes after the catch-up's job is done.
-/

set_option autoImplicit false

namespace FlexQuery

open Transition RowTable

/-! ## What an insert leaves for good -/

/-- The columns no statement changes once the row is inserted. -/
def JobRow.imprint (r : JobRow) : ℕ × String × Option String × Timestamp :=
  (r.id, r.kind, r.payloadHash, r.createdAt)

theorem imprint_update {t t' : JobTable} {p : JobRow → Bool} {f : JobRow → JobRow}
    {hid : ∀ r, (f r).id = r.id} (h : t.update p f hid = .ok t')
    (hf : ∀ r, (f r).imprint = r.imprint) :
    t'.rows.map JobRow.imprint = t.rows.map JobRow.imprint := by
  rw [(JobTable.update_rows h).1, map_key_update hf]

/-- A step without an arrival adds no row but that of a manual run, which has no hash. -/
theorem effect_quiet {cfg : QueueConfig} {s s' : Sys} {now : Timestamp} {a : Action}
    (h : Effect cfg s now a s') (ha : arrivalEntry cfg now a = none) :
    s'.table.rows.map JobRow.imprint = s.table.rows.map JobRow.imprint ∨
      ∃ kind, s'.table.rows.map JobRow.imprint = s.table.rows.map JobRow.imprint ++
        [(s.table.nextId, kind, none, now)] := by
  cases h with
  | nothing a ha hw hw' => exact Or.inl rfl
  | insert a kind payload hash priority n harrival hn =>
    rw [ha] at harrival
    cases harrival
  | runNow k force t r hr hst hcool ht => exact Or.inl (imprint_update ht fun _ => rfl)
  | manualStart kind kind' payload hrows =>
    refine Or.inr ⟨kind', ?_⟩
    rw [hrows, List.map_append]
    rfl
  | manualFinish k res t hk ht =>
    rcases auditFinish_cases ht with ⟨result, ht⟩ | ⟨error, category, ht⟩
    · exact Or.inl (imprint_update ht fun _ => rfl)
    · exact Or.inl (imprint_update ht fun _ => rfl)
  | manualAbandon k => exact Or.inl rfl
  | claim w r t hw hr hcl ht => exact Or.inl (imprint_update ht fun _ => rfl)
  | reclaim w t hw ht => exact Or.inl (imprint_update ht fun _ => rfl)
  | done w j result t hw ht => exact Or.inl (imprint_update ht fun _ => rfl)
  | retry w j msg t hw hp ht => exact Or.inl (imprint_update ht fun _ => rfl)
  | violation w j msg e hw ht => exact Or.inl rfl
  | giveUp w j msg t hw hp ht => exact Or.inl (imprint_update ht fun _ => rfl)
  | cool w j delay t hw ht => exact Or.inl (imprint_update ht fun _ => rfl)
  | crash w => exact Or.inl rfl

/-- An arrival is dropped when an active row has its entry, and appended otherwise. -/
theorem effect_arrival {cfg : QueueConfig} {s s' : Sys} {now : Timestamp} {a : Action}
    {e : String × String} (h : Effect cfg s now a s') (ha : arrivalEntry cfg now a = some e) :
    ((∃ x ∈ s.table.rows, x.activeKey = some e) ∧ s'.table.rows = s.table.rows) ∨
      ((∀ x ∈ s.table.rows, x.activeKey ≠ some e) ∧ s'.table.rows.map JobRow.imprint =
        s.table.rows.map JobRow.imprint ++ [(s.table.nextId, e.1, some e.2, now)]) := by
  cases h with
  | nothing a hnone hw hw' =>
    rw [ha] at hnone
    cases hnone
  | insert a kind payload hash priority n harrival hn =>
    rw [ha] at harrival
    cases harrival
    have hkey : ({ newJob now kind payload hash priority n with id := s.table.nextId } :
        JobRow).activeKey = some (kind, hash) := rfl
    rcases s.table.insert_cases (newJob now kind payload hash priority n) with
      ⟨hrows, _⟩ | ⟨hrows, _, _, x, hx, hxk, _⟩
    · refine Or.inr ⟨?_, ?_⟩
      · intro x hx
        have hu := (s.table.insert (newJob now kind payload hash priority n)).1.unique
        rw [hrows] at hu
        exact hu.of_append hkey hx
      · rw [hrows, List.map_append]
        rfl
    · exact Or.inl ⟨⟨x, hx, hxk.trans hkey⟩, hrows⟩
  | runNow => cases ha
  | manualStart => cases ha
  | manualFinish => cases ha
  | manualAbandon => cases ha
  | claim => cases ha
  | reclaim => cases ha
  | done => cases ha
  | retry => cases ha
  | violation => cases ha
  | giveUp => cases ha
  | cool => cases ha
  | crash => cases ha

/-- No row is lost, and none is given another kind, hash or creation time. -/
theorem step_imprints {cfg : QueueConfig} {s s' : Sys} {l : Timestamp × Action}
    (h : step cfg s l = some s') :
    s.table.rows.map JobRow.imprint <+: s'.table.rows.map JobRow.imprint := by
  obtain ⟨now, a⟩ := l
  have heffect := step_effect h
  cases ha : arrivalEntry cfg now a with
  | none =>
    rcases effect_quiet heffect ha with hsame | ⟨kind, hmanual⟩
    · rw [hsame]
    · rw [hmanual]
      exact List.prefix_append _ _
  | some e =>
    rcases effect_arrival heffect ha with ⟨_, hsame⟩ | ⟨_, happend⟩
    · rw [hsame]
    · rw [happend]
      exact List.prefix_append _ _

/-! ## One identity -/

/-- The entry of a slot's job for a day. -/
def DayEntry (cfg : QueueConfig) (slot asOf : String) : String × String :=
  (slot, cfg.payloadHash [("as_of", .str asOf)])

/-- The payload names the day, and besides it only how the job is to run. -/
def NamesDay (asOf : String) (payload : Dict) : Prop :=
  (payload.filter fun e => e.1 ∉ EXECUTION_KEYS) = [("as_of", .str asOf)]

theorem NamesDay.get {asOf : String} {payload : Dict} (h : NamesDay asOf payload) :
    (payload.get "as_of").isSome = true := by
  have hmem : ("as_of", Json.str asOf) ∈ payload := by
    have : ("as_of", Json.str asOf) ∈ payload.filter fun e => e.1 ∉ EXECUTION_KEYS := by
      rw [h]
      exact List.mem_singleton_self _
    exact (List.mem_filter.mp this).1
  rw [Dict.get, Option.isSome_map, List.find?_isSome]
  exact ⟨_, hmem, by simp⟩

theorem slotEntry_namesDay {cfg : QueueConfig} {slot asOf : String} {payload : Dict}
    (hslot : slot ∈ SLOT_NAMES) (h : NamesDay asOf payload) (now : Timestamp) :
    slotEntry cfg.payloadHash now slot payload = some (DayEntry cfg slot asOf) := by
  have hnames : ∀ s ∈ SLOT_NAMES, lower (strip s) = s ∧ strip s = s := by decide
  obtain ⟨hkey, hstrip⟩ := hnames slot hslot
  have hidentity : slotIdentity now payload = [("as_of", .str asOf)] := by
    unfold slotIdentity Dict.setdefault
    rw [if_pos h.get]
    exact h
  unfold slotEntry
  rw [hkey, if_neg (not_not.mpr hslot), hidentity, slotKind, hstrip]
  rfl

theorem catchupPayload_namesDay (asOf : String) : NamesDay asOf (catchupPayload asOf) := by
  unfold NamesDay catchupPayload EXECUTION_KEYS
  simp

/-- The row was inserted under the entry. -/
def JobRow.identifies (e : String × String) (r : JobRow) : Bool :=
  r.kind = e.1 && r.payloadHash = some e.2

/-- How many jobs have been inserted under the entry. -/
def Sys.insertedUnder (s : Sys) (e : String × String) : ℕ := s.table.rows.countP (·.identifies e)

/-- The request comes too late: there was a job, and it is over. -/
def ComesLate (cfg : QueueConfig) (e : String × String) (s : Sys) (l : Timestamp × Action) : Prop :=
  arrivalEntry cfg l.1 l.2 = some e ∧ (∃ r ∈ s.table.rows, r.identifies e = true) ∧
    ∀ r ∈ s.table.rows, r.identifies e = true → r.status.active = false

theorem insertedUnder_eq (s : Sys) (e : String × String) : s.insertedUnder e =
    (s.table.rows.map JobRow.imprint).countP fun i => i.2.1 = e.1 && i.2.2.1 = some e.2 := by
  rw [List.countP_map]
  rfl

theorem activeKey_iff {r : JobRow} {e : String × String} :
    r.activeKey = some e ↔ r.identifies e = true ∧ r.status.active = true := by
  obtain ⟨kind, hash⟩ := e
  unfold JobRow.activeKey JobRow.identifies
  cases hact : r.status.active <;> cases hh : r.payloadHash <;> simp [and_comm]

/-- One step: the count stays within one exactly when the request does not come late. -/
theorem insertedUnder_step {cfg : QueueConfig} {e : String × String} {s s' : Sys}
    {l : Timestamp × Action} (hs : s.insertedUnder e ≤ 1) (h : step cfg s l = some s') :
    s'.insertedUnder e ≤ 1 ↔ ¬ ComesLate cfg e s l := by
  obtain ⟨now, a⟩ := l
  have heffect := step_effect h
  rw [insertedUnder_eq] at hs ⊢
  cases ha : arrivalEntry cfg now a with
  | none =>
    have hlate : ¬ ComesLate cfg e s (now, a) := by
      rintro ⟨harrival, _⟩
      rw [ha] at harrival
      cases harrival
    refine iff_of_true ?_ hlate
    rcases effect_quiet heffect ha with hsame | ⟨kind, hmanual⟩
    · rw [hsame]
      exact hs
    · rw [hmanual, List.countP_append]
      simpa using hs
  | some e' =>
    rcases effect_arrival heffect ha with ⟨⟨x, hx, hxe⟩, hsame⟩ | ⟨hfree, happend⟩
    · rw [hsame]
      refine iff_of_true hs ?_
      rintro ⟨harrival, _, hall⟩
      rw [show arrivalEntry cfg now a = some e' from ha] at harrival
      cases harrival
      obtain ⟨hid, hact⟩ := activeKey_iff.mp hxe
      rw [hall x hx hid] at hact
      cases hact
    · rw [happend, List.countP_append]
      by_cases he : e' = e
      · subst he
        have hone : List.countP (fun i : ℕ × String × Option String × Timestamp =>
            i.2.1 = e'.1 && i.2.2.1 = some e'.2) [(s.table.nextId, e'.1, some e'.2, now)] = 1 := by
          simp
        have hover : ∀ r ∈ s.table.rows, r.identifies e' = true → r.status.active = false := by
          intro r hr hid
          by_contra hact
          exact hfree r hr (activeKey_iff.mpr ⟨hid, by simpa using hact⟩)
        rw [hone, ← insertedUnder_eq, Sys.insertedUnder]
        constructor
        · rintro hle ⟨_, ⟨r, hr, hid⟩, _⟩
          have hpos : 0 < s.table.rows.countP (·.identifies e') := List.countP_pos_iff.mpr ⟨r, hr, hid⟩
          omega
        · intro hlate
          have hzero : s.table.rows.countP (·.identifies e') = 0 := by
            rw [List.countP_eq_zero]
            intro r hr hid
            exact hlate ⟨ha, ⟨r, hr, hid⟩, hover⟩
          omega
      · have hlate : ¬ ComesLate cfg e s (now, a) := by
          rintro ⟨harrival, _⟩
          rw [show arrivalEntry cfg now a = some e' from ha] at harrival
          exact he (Option.some.inj harrival)
        have hother : List.countP (fun i : ℕ × String × Option String × Timestamp =>
            i.2.1 = e.1 && i.2.2.1 = some e.2) [(s.table.nextId, e'.1, some e'.2, now)] = 0 := by
          rw [List.countP_eq_zero]
          intro i hi hid
          rw [List.mem_singleton.mp hi] at hid
          simp only [Bool.and_eq_true, decide_eq_true_eq, Option.some.injEq] at hid
          exact he (Prod.ext hid.1 hid.2)
        rw [hother]
        exact iff_of_true hs hlate

/-- **One job per slot and day, exactly when no request comes late.**  Every enqueue of a slot for a
day, the catch-up's included, has the same entry; in a run that starts before any of them, at most
one job is ever inserted under it if and only if none of the requests finds an earlier job of the
entry with none of them still pending or running. -/
theorem one_job_iff {cfg : QueueConfig} {slot asOf : String} (hslot : slot ∈ SLOT_NAMES) :
    (∀ now, arrivalEntry cfg now (.catchup slot asOf) = some (DayEntry cfg slot asOf) ∧
      ∀ payload, NamesDay asOf payload →
        arrivalEntry cfg now (.enqueueSlot slot payload) = some (DayEntry cfg slot asOf)) ∧
    ∀ s t as, s.insertedUnder (DayEntry cfg slot asOf) = 0 → exec (step cfg) s as = some t →
      ((∀ pre post u, as = pre ++ post → exec (step cfg) s pre = some u →
          u.insertedUnder (DayEntry cfg slot asOf) ≤ 1) ↔
        Along (step cfg) (fun u l => ¬ ComesLate cfg (DayEntry cfg slot asOf) u l) s as) := by
  constructor
  · intro now
    exact ⟨slotEntry_namesDay hslot (catchupPayload_namesDay asOf) now,
      fun payload h => slotEntry_namesDay hslot h now⟩
  · intro s t as hs hrun
    exact along_iff_invariant (fun u l u' _ hu h => insertedUnder_step hu h) (by omega) hrun

/-- The catch-up enqueues the slot; its job is claimed and done. -/
def caughtUp : List (Timestamp × Action) :=
  [(seconds 2700, .catchup "flex-trades" "2026-09-04"), (seconds 2705, .claimNext 0),
    (seconds 2760, .markDone 0 [("inserted", .int 3), ("ok", .bool true)])]

/-- What the scheduler sends for the slot. -/
def dagsterEnqueue : Action :=
  .enqueueSlot "flex-trades" [("as_of", .str "2026-09-04"), ("fallback", .bool false)]

/-- The scheduler's request a minute later starts a second job for the day. -/
theorem late_enqueue_inserts :
    NamesDay "2026-09-04" [("as_of", .str "2026-09-04"), ("fallback", .bool false)] ∧
      ∃ s, exec (step scheduleConfig) Sys.init (caughtUp ++ [(seconds 2820, dagsterEnqueue)]) =
        some s ∧ s.insertedUnder (DayEntry scheduleConfig "flex-trades" "2026-09-04") = 2 := by
  have hrun : (exec (step scheduleConfig) Sys.init
      (caughtUp ++ [(seconds 2820, dagsterEnqueue)])).any (fun s =>
        s.insertedUnder (DayEntry scheduleConfig "flex-trades" "2026-09-04") = 2) = true := by
    decide +kernel
  obtain ⟨s, hs, htwo⟩ := (Option.any_eq_true _ _).mp hrun
  refine ⟨?_, s, hs, of_decide_eq_true htwo⟩
  unfold NamesDay EXECUTION_KEYS
  simp

/-- The same request before the job is claimed is dropped. -/
theorem one_job_deduped :
    ∃ s, exec (step scheduleConfig) Sys.init
      [(seconds 2700, .catchup "flex-trades" "2026-09-04"), (seconds 2702, dagsterEnqueue)] =
        some s ∧ s.insertedUnder (DayEntry scheduleConfig "flex-trades" "2026-09-04") ≤ 1 := by
  have hsome : (exec (step scheduleConfig) Sys.init
      [(seconds 2700, .catchup "flex-trades" "2026-09-04"),
        (seconds 2702, dagsterEnqueue)]).isSome = true := by
    decide +kernel
  obtain ⟨s, hs⟩ := Option.isSome_iff_exists.mp hsome
  have hqueued : (step scheduleConfig Sys.init
      (seconds 2700, .catchup "flex-trades" "2026-09-04")).all (fun u => u.table.rows.any fun r =>
        r.identifies (DayEntry scheduleConfig "flex-trades" "2026-09-04") && r.status.active) =
      true := by
    decide +kernel
  obtain ⟨_, hiff⟩ := @one_job_iff scheduleConfig "flex-trades" "2026-09-04" (by decide)
  refine ⟨s, hs, (hiff Sys.init s _ rfl hs).mpr ⟨?_, ?_⟩ _ [] s (List.append_nil _).symm hs⟩
  · rintro ⟨_, ⟨r, hr, _⟩, _⟩
    cases hr
  · intro u hu
    refine ⟨?_, fun _ _ => trivial⟩
    rintro ⟨_, _, hover⟩
    obtain ⟨r, hr, hboth⟩ := List.any_eq_true.mp ((Option.all_eq_true _ _).mp hqueued u hu)
    obtain ⟨hid, hact⟩ := Bool.and_eq_true_iff.mp hboth
    rw [hover r hr hid] at hact
    cases hact

end FlexQuery
