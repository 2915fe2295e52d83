import FlexQuery.Ops.Diagnose
import FlexQuery.Worker.Catchup

/-!
# The self-check and the catch-up on what was missed

`_missed_plan` inside the case analysis of `assess_kind`, and `missed_slots` of the worker.

* `assessKind_missed` — when the verdict is `missed`.
* `plannedLast` — the fire `collect_check_input` gives to a kind.
* `missed_agrees_iff` — for which newest jobs the two agree.
-/

set_option autoImplicit false

namespace FlexQuery

/-! ## The verdict -/

theorem missedPlan_iff {k : KindInput} {inp : CheckInput} :
    missedPlan k inp = true ↔ ∃ planned, k.plannedLast = some planned ∧
      seconds inp.graceSec ≤ inp.now - planned ∧ inp.now - planned ≤ seconds 86400 ∧
      ∀ job, k.job = some job → job.createdAt < planned := by
  unfold missedPlan
  cases k.plannedLast with
  | none => simp
  | some planned =>
    simp only [Option.some.injEq, exists_eq_left']
    split
    · rename_i hage
      refine iff_of_false Bool.false_ne_true ?_
      rintro ⟨hgrace, hday, _⟩
      rcases hage with hage | hage
      · exact absurd hgrace (not_le.mpr hage)
      · exact absurd hday (not_le.mpr hage)
    · rename_i hage
      rw [not_or, not_lt, not_lt] at hage
      cases k.job with
      | none => simp [hage.1, hage.2]
      | some job => simp [hage.1, hage.2]

/-- **The verdict `missed`** is given to a kind whose last fire was missed, and only when it has no
job or its newest one is done. -/
theorem assessKind_missed (fmtLocal : FmtLocal) {k : KindInput} {inp : CheckInput} :
    (assessKind fmtLocal k inp).verdict = .missed ↔
      missedPlan k inp = true ∧ ∀ job, k.job = some job → job.status = .done := by
  change (assessJob fmtLocal k inp).verdict = .missed ↔ _
  unfold assessJob
  cases hjob : k.job with
  | none =>
    simp only
    split
    · rename_i hmissed
      exact iff_of_true rfl ⟨hmissed, by simp⟩
    · rename_i hmissed
      exact iff_of_false (by rintro ⟨⟩) fun h => hmissed h.1
  | some job =>
    simp only [Option.some.injEq, forall_eq']
    cases hst : job.status with
    | running => exact iff_of_false (by rintro ⟨⟩) (by rintro ⟨_, ⟨⟩⟩)
    | pending =>
      refine iff_of_false ?_ (by rintro ⟨_, ⟨⟩⟩)
      simp only [assessPending]
      split
      · split <;> rintro ⟨⟩
      · rintro ⟨⟩
    | failed =>
      refine iff_of_false ?_ (by rintro ⟨_, ⟨⟩⟩)
      simp only [assessFailed]
      split <;> rintro ⟨⟩
    | done =>
      simp only [assessDone]
      split
      · rename_i hmissed
        exact iff_of_true rfl ⟨hmissed, trivial⟩
      · rename_i hmissed
        exact iff_of_false (by rintro ⟨⟩) fun h => hmissed h.1

/-! ## The agreement -/

/-- `planned_last` of `collect_check_input`. -/
def plannedLast (sched : CatchupConfig) (now : Timestamp) (slot : String) :
    Except PyExc (Option Timestamp) :=
  if sched.cron slot = "" then .ok none else previousFire (sched.cron slot) now sched.zone

/-- The fire is past its grace and at most a day old, and the job was created before it. -/
def Overdue (sched : CatchupConfig) (now : Timestamp) (job : JobRow) (planned : Timestamp) : Prop :=
  seconds sched.graceSec ≤ now - planned ∧ now - planned ≤ seconds 86400 ∧ job.createdAt < planned

/-- The slot is listed exactly when its last fire is overdue. -/
theorem missedSlots_overdue {sched : CatchupConfig} {now : Timestamp} {t : JobTable}
    {slot : String} {job : JobRow} {planned : Option Timestamp} {ms : List Missed}
    (hslot : slot ∈ SLOT_NAMES) (hplanned : plannedLast sched now slot = .ok planned)
    (hnewest : newestJobPerKind t (slotKind slot) = some job.createdAt)
    (hms : missedSlots sched now (newestJobPerKind t) SLOT_NAMES = .ok ms) :
    (∃ m ∈ ms, m.kind = slotKind slot) ↔ ∃ p, planned = some p ∧ Overdue sched now job p := by
  unfold plannedLast at hplanned
  constructor
  · rintro ⟨m, hm, hkind⟩
    obtain ⟨_, hcron, hfire, hgrace, hday, hsince, _⟩ :=
      missedSlot_eq_some.mp ((missedSlots_mem hms).mp hm).2
    rw [show m.slot = slot from hkind] at hcron hfire hsince
    rw [if_neg hcron, hfire] at hplanned
    cases hplanned
    exact ⟨_, rfl, hgrace, hday, hsince _ hnewest⟩
  · rintro ⟨p, rfl, hgrace, hday, hcreated⟩
    split at hplanned
    · cases hplanned
    · rename_i hcron
      refine ⟨⟨slot, p, sched.zone.day p⟩, (missedSlots_mem hms).mpr ⟨hslot, ?_⟩, rfl⟩
      refine missedSlot_eq_some.mpr ⟨rfl, hcron, hplanned, hgrace, hday, ?_, rfl⟩
      intro newest hsome
      rw [hnewest] at hsome
      cases hsome
      exact hcreated

/-- **The self-check and the catch-up.**  For a kind whose newest job is the youngest of its kind,
the verdict is `missed` exactly when the catch-up lists the kind, if and only if that job is done or
the last fire is not overdue for it. -/
theorem missed_agrees_iff (fmtLocal : FmtLocal) {sched : CatchupConfig} {env : CheckEnv}
    {now : Timestamp} {t : JobTable} {k : KindInput} {job : JobRow} {ms : List Missed}
    (hplanned : ∀ slot ∈ SLOT_NAMES, plannedLast sched now slot = .ok (env.plannedLast slot))
    (hgrace : env.graceSec = sched.graceSec) (hk : k ∈ (collectCheckInput env now t).2)
    (hjob : k.job = some job)
    (hnewest : newestJobPerKind t k.kind = some job.createdAt)
    (hms : missedSlots sched now (newestJobPerKind t) SLOT_NAMES = .ok ms) :
    ((assessKind fmtLocal k (collectCheckInput env now t).1).verdict = .missed ↔
        ∃ m ∈ ms, m.kind = k.kind) ↔
      (job.status = .done ∨ ∀ p, k.plannedLast = some p → ¬ Overdue sched now job p) := by
  obtain ⟨slot, hslot, rfl⟩ := List.mem_map.mp hk
  have hlisted := missedSlots_overdue hslot (hplanned slot hslot) hnewest hms
  simp only at hjob ⊢
  rw [hlisted, assessKind_missed, missedPlan_iff]
  simp only [hjob, Option.some.injEq, forall_eq']
  have hoverdue : (∃ p, env.plannedLast slot = some p ∧
      seconds (collectCheckInput env now t).1.graceSec ≤ (collectCheckInput env now t).1.now - p ∧
        (collectCheckInput env now t).1.now - p ≤ seconds 86400 ∧ job.createdAt < p) ↔
      ∃ p, env.plannedLast slot = some p ∧ Overdue sched now job p := by
    rw [show (collectCheckInput env now t).1.graceSec = sched.graceSec from hgrace]
    rfl
  rw [hoverdue]
  by_cases hdone : job.status = .done
  · simp [hdone]
  · simp only [hdone, and_false, false_or, false_iff, not_exists, not_and]

/-! ## The fire of half past six -/

/-- What the self-check reads of `morningOnly`, at a quarter past seven. -/
def morningCheck : CheckEnv where
  freshness := fun _ => none
  plannedLast := fun slot => if slot = "flex-trades" then some (seconds 23400) else none
  plannedNext := fun _ => none
  slots := fun _ => {}
  tz := none
  graceSec := morningOnly.graceSec
  catchupEnabled := true
  workerPollSec := 5

theorem plannedLast_morning : ∀ slot ∈ SLOT_NAMES,
    plannedLast morningOnly (seconds 26100) slot = .ok (morningCheck.plannedLast slot) := by
  intro slot hslot
  rcases List.mem_pair.mp hslot with rfl | rfl
  · exact previousFire_morning (by decide) (by decide)
  · rfl

/-- The trades job of five o'clock, in the status it has at a quarter past seven. -/
def fiveOClock (status : Status) : JobRow where
  id := 1
  kind := "flex-trades"
  payload := []
  payloadHash := none
  status := status
  createdAt := seconds 18000
  updatedAt := seconds 18000

def fiveOClockTable (status : Status) : JobTable where
  rows := [fiveOClock status]
  nextId := 2
  ids_nodup := List.nodup_singleton _
  id_lt := by
    intro r hr
    rw [List.mem_singleton.mp hr]
    exact Nat.lt_succ_self 1
  unique := by cases status <;> exact List.nodup_nil

/-- The self-check's input for trades at a quarter past seven. -/
def morningKind (status : Status) : KindInput where
  kind := "flex-trades"
  job := some (fiveOClock status)
  freshness := none
  plannedLast := some (seconds 23400)
  plannedNext := none
  maxAttempts := DEFAULT_SLOT_MAX_ATTEMPTS

theorem morningKind_mem (status : Status) :
    morningKind status ∈
      (collectCheckInput morningCheck (seconds 26100) (fiveOClockTable status)).2 :=
  List.mem_cons_self

/-- The catch-up lists the slot: its job is older than the fire. -/
theorem missedSlots_fiveOClock (status : Status) :
    missedSlots morningOnly (seconds 26100) (newestJobPerKind (fiveOClockTable status))
      SLOT_NAMES = .ok [⟨"flex-trades", seconds 23400, "1970-01-01"⟩] := by
  rw [missedSlots_morning (by decide) (by decide)]
  rfl

/-- The job is done: both miss the fire of half past six. -/
theorem missed_agrees_morning :
    (assessKind (fun _ _ => "") (morningKind .done)
        (collectCheckInput morningCheck (seconds 26100) (fiveOClockTable .done)).1).verdict =
        .missed ↔
      ∃ m ∈ [(⟨"flex-trades", seconds 23400, "1970-01-01"⟩ : Missed)], m.kind = "flex-trades" :=
  (missed_agrees_iff _ plannedLast_morning rfl (morningKind_mem .done) rfl rfl
    (missedSlots_fiveOClock .done)).mpr (Or.inl rfl)

/-- The job is still pending: the catch-up lists the kind, the verdict is `queued`. -/
theorem pending_hides_missed :
    missedSlots morningOnly (seconds 26100) (newestJobPerKind (fiveOClockTable .pending))
        SLOT_NAMES = .ok [⟨"flex-trades", seconds 23400, "1970-01-01"⟩] ∧
      ∀ fmtLocal, (assessKind fmtLocal (morningKind .pending)
        (collectCheckInput morningCheck (seconds 26100) (fiveOClockTable .pending)).1).verdict =
          .queued :=
  ⟨missedSlots_fiveOClock .pending, fun _ => rfl⟩

end FlexQuery
