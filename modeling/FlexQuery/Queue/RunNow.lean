import FlexQuery.Ops.Diagnose
import FlexQuery.Queue.Cooldown

/-!
# Run-now during a cooldown

`run_job_now` and the run-now button decide from one row's own `error_category`.  A cooldown is
put on the other pending rows by `defer_pending`, which moves `not_before` and leaves the
category as it was.

* `RunNowRespectsCooldown` — every pending job is refused, and no button is enabled.
* `run_now_respects_cooldown_iff` — that is so exactly when each pending row is cooling down by
  its own columns.
* `deferred_jobs_cooling_iff` — right after a throttled attempt: exactly when the rows deferred
  with it were throttled themselves before.
* `deferred_job_runs_now` — a slot that was merely deferred runs now.
-/

set_option autoImplicit false

namespace FlexQuery

open Transition

/-- `run_job_now` without force refuses every pending job with 409 and changes nothing, and no
kind is offered an enabled run-now button while `cooldown_until` is ahead. -/
def RunNowRespectsCooldown (cfg : QueueConfig) (env : CheckEnv) (s : Sys) (now : Timestamp) :
    Prop :=
  (∀ r ∈ s.table.rows, r.status = .pending →
    (∃ detail, runJobNow cfg.fmtLocal cfg.tz now r.id false s.table = .error ⟨409, detail⟩) ∧
      step cfg s (now, .runJobNow r.id false) = some s) ∧
  ∀ k ∈ (collectCheckInput env now s.table).2,
    (∃ c, (collectCheckInput env now s.table).1.cooldownUntil = some c ∧ now < c) →
      ¬ OffersRunNow (assessKind cfg.fmtLocal k (collectCheckInput env now s.table).1)

/-- Every pending job is cooling down by its own columns. -/
def AllCoolingDown (now : Timestamp) (t : JobTable) : Prop :=
  ∀ r ∈ t.rows, r.status = .pending → r.coolingDown now = true

/-- A button for a slot needs a pending job that waits for another reason. -/
theorem not_offersRunNow_of_allCoolingDown {fmtLocal : FmtLocal} {env : CheckEnv}
    {now : Timestamp} {t : JobTable} (h : AllCoolingDown now t) :
    ∀ k ∈ (collectCheckInput env now t).2,
      ¬ OffersRunNow (assessKind fmtLocal k (collectCheckInput env now t).1) := by
  intro k hk hoffer
  obtain ⟨slot, _, rfl⟩ := List.mem_map.mp hk
  obtain ⟨job, hjob, hst, _, hcat⟩ := (offersRunNow_iff fmtLocal).mp hoffer
  have hcool := h job (latestJob_mem hjob) hst
  exact hcat (JobRow.coolingDown_iff.mp hcool).1

/-- **When run-now respects the cooldown**, in any state and at any time. -/
theorem run_now_respects_cooldown_iff (cfg : QueueConfig) (env : CheckEnv) (s : Sys)
    (now : Timestamp) :
    RunNowRespectsCooldown cfg env s now ↔ AllCoolingDown now s.table := by
  constructor
  · rintro ⟨hrefused, _⟩ r hr hst
    exact (runJobNow_refused (JobTable.row_mem hr) hst).mp (hrefused r hr hst).1
  · intro hall
    refine ⟨fun r hr hst => ?_, fun k hk _ => not_offersRunNow_of_allCoolingDown hall k hk⟩
    obtain ⟨detail, hdetail⟩ : ∃ detail,
        runJobNow cfg.fmtLocal cfg.tz now r.id false s.table = .error ⟨409, detail⟩ :=
      (runJobNow_refused (JobTable.row_mem hr) hst).mpr (hall r hr hst)
    refine ⟨⟨detail, hdetail⟩, ?_⟩
    simp only [step, hdetail]

/-- A slot deferred with the throttled one: its own row names no category. -/
theorem deferred_job_runs_now :
    ¬ ∀ (env : CheckEnv) (as bs : List (Timestamp × Action)) (s s' u : Sys) (j : Job)
      (msg : String) (t₁ t₂ now : Timestamp), exec (step scheduleConfig) Sys.init as = some s →
      s.workers 0 = .running j → classifyFlexError msg = .throttled →
      j.attempts < j.maxAttempts → t₁ ≤ t₂ →
      handleFailure scheduleConfig s 0 msg t₁ t₂ = some s' →
      exec (step scheduleConfig) s' bs = some u → t₂ ≤ now →
      now < t₁ + seconds scheduleConfig.policy.throttledDelaySec →
      RunNowRespectsCooldown scheduleConfig env u now := by
  intro hclaim
  have hrun : (exec (step scheduleConfig) Sys.init firstAttempt).any (fun s =>
      (s.workers 0).job?.any (fun j => j.attempts < j.maxAttempts) &&
      (handleFailure scheduleConfig s 0 throttledMsg (seconds 60) (seconds 61)).any fun s' =>
        s'.table.rows.any fun r => r.status = .pending && !r.coolingDown (seconds 120)) = true := by
    decide +kernel
  obtain ⟨s, hs, hrun⟩ := (Option.any_eq_true _ _).mp hrun
  obtain ⟨hjob, hfail⟩ := Bool.and_eq_true_iff.mp hrun
  obtain ⟨j, hj, hlt⟩ := (Option.any_eq_true _ _).mp hjob
  obtain ⟨s', hs', hrow⟩ := (Option.any_eq_true _ _).mp hfail
  obtain ⟨r, hr, hrow⟩ := List.any_eq_true.mp hrow
  obtain ⟨hst, hfree⟩ := Bool.and_eq_true_iff.mp hrow
  let env : CheckEnv :=
    { freshness := fun _ => none
      plannedLast := fun _ => none
      plannedNext := fun _ => none
      slots := scheduleConfig.slots
      tz := scheduleConfig.tz
      graceSec := 2700
      catchupEnabled := true
      workerPollSec := 5 }
  have hrespects := hclaim env firstAttempt [] s s' s' j throttledMsg (seconds 60) (seconds 61)
    (seconds 120) hs (Pc.job?_eq_some.mp hj) classify_throttledMsg (of_decide_eq_true hlt)
    (by decide) hs' rfl (by decide) (by decide)
  obtain ⟨detail, hrefused⟩ := (hrespects.1 r hr (of_decide_eq_true hst)).1
  have hcool := (runJobNow_refused (JobTable.row_mem hr) (of_decide_eq_true hst)).mp
    ⟨detail, hrefused⟩
  rw [hcool] at hfree
  cases hfree

/-- **Right after a throttled attempt** with budget left, at any time before the end of its
cooldown: every pending job is cooling down by its own columns exactly when the jobs deferred
with it were throttled themselves before. -/
theorem deferred_jobs_cooling_iff {cfg : QueueConfig} {s s' : Sys} {w : ℕ} {j : Job}
    {msg : String} {t₁ t₂ now : Timestamp} (hw : s.workers w = .running j)
    (hact : StillActive s j) (hcat : classifyFlexError msg = .throttled)
    (hlt : j.attempts < j.maxAttempts) (hD : cfg.policy.throttledDelaySec ≠ 0) (ht : t₁ ≤ t₂)
    (h : handleFailure cfg s w msg t₁ t₂ = some s')
    (hnow : now < t₁ + seconds cfg.policy.throttledDelaySec) :
    AllCoolingDown now s'.table ↔
      ∀ r ∈ s.table.rows, r.status = .pending → r.id ≠ j.id →
        r.errorCategory = some "throttled" := by
  obtain ⟨u, hu, _, hdefer⟩ := handleFailure_retry hw hact hcat hlt h
  have hmemDefer : ∀ r', r' ∈ s'.table.rows ↔ ∃ r ∈ u.rows, (if r.deferred (some j.id) then
      r.defer t₂ cfg.policy.throttledDelaySec else r) = r' :=
    fun _ => JobTable.mem_rows_update (hdefer hD)
  have hmemRetry : ∀ r, r ∈ u.rows ↔ ∃ x ∈ s.table.rows, (if decide (x.id = j.id) then
      x.markRetry t₁ msg "throttled" cfg.policy.throttledDelaySec else x) = r :=
    fun _ => JobTable.mem_rows_update hu
  have hlate : now < t₂ + seconds cfg.policy.throttledDelaySec :=
    lt_of_lt_of_le hnow (seconds_le ht _)
  constructor
  · intro hall r hr hst hne
    have hru : r ∈ u.rows := (hmemRetry r).mpr ⟨r, hr, by simp [hne]⟩
    have hsel : r.deferred (some j.id) = true := JobRow.deferred_iff.mpr ⟨hst, hne⟩
    have hnew : r.defer t₂ cfg.policy.throttledDelaySec ∈ s'.table.rows :=
      (hmemDefer _).mpr ⟨r, hru, by simp [hsel]⟩
    exact (JobRow.coolingDown_iff.mp (hall _ hnew hst)).1
  · intro hothers r' hr' hst'
    obtain ⟨r, hru, hr'⟩ := (hmemDefer r').mp hr'
    obtain ⟨x, hx, hxr⟩ := (hmemRetry r).mp hru
    apply JobRow.coolingDown_iff.mpr
    by_cases hk : x.id = j.id
    · -- The throttled job itself, as `mark_retry` left it.
      have hxr : x.markRetry t₁ msg "throttled" cfg.policy.throttledDelaySec = r := by
        simpa [hk] using hxr
      have hid : r.id = j.id := by
        rw [← hxr]
        exact hk
      have hr' : r = r' := by simpa [JobRow.deferred, hid] using hr'
      rw [← hr', ← hxr]
      exact ⟨rfl, _, rfl, hnow⟩
    · -- A job deferred with it.
      have hxr : x = r := by simpa [hk] using hxr
      subst hxr
      by_cases hsel : x.deferred (some j.id) = true
      · have hr' : x.defer t₂ cfg.policy.throttledDelaySec = r' := by simpa [hsel] using hr'
        rw [← hr']
        refine ⟨hothers x hx (JobRow.deferred_iff.mp hsel).1 hk, _, rfl, ?_⟩
        exact lt_of_lt_of_le hlate (le_max_right _ _)
      · have hr' : x = r' := by simpa [hsel] using hr'
        exact absurd (JobRow.deferred_iff.mpr ⟨hr' ▸ hst', hk⟩) hsel

end FlexQuery
