import FlexQuery.Api.RunNow
import FlexQuery.Library.Transition
import FlexQuery.Scheduler.Enqueue

/-!
# The queue and everything that writes to it

The whole system: any number of workers running the loop of `worker/loop.py`, the HTTP routes,
the manual runs of `api/manual_ops.py` and the catch-up.  One action is one committed statement,
taken at a time of its own; a worker is wherever its loop stands between two statements, and may
crash there.

* `Sys` — the table, the workers, the manual runs in flight.  `claimed` and `violations` are
  ghost fields: the claims made so far and the statements Postgres refused.
* `step` — what each action does; `none` when the worker is not at that point of its loop.
* `Effect`, `step_effect` — everything a step can do, said once.  The invariants of the modules
  that follow are proved from it and never unfold `step`.
-/

set_option autoImplicit false

namespace FlexQuery

/-- What the worker and the API read from their configuration. -/
structure QueueConfig where
  policy : RetryPolicy
  staleAfterSec : ℤ := DEFAULT_STALE_RUNNING_SEC
  requeueDelaySec : ℤ := DEFAULT_RECLAIM_REQUEUE_SEC
  slots : String → SlotConfig
  payloadHash : Dict → String
  fmtLocal : FmtLocal
  tz : Option String

/-- `config/schedule.yaml`, with the hash a payload naming only the day 2026-09-04 has. -/
def scheduleConfig : QueueConfig where
  policy := {}
  slots := fun slot =>
    if slot = "flex-trades" then { priority := some 5, maxAttempts := some 8 }
    else { priority := some 4, maxAttempts := some 8 }
  payloadHash := fun _ => "04a38a701102a1d4"
  fmtLocal := fun _ _ => "Fri 06:30 EDT"
  tz := some "America/New_York"

/-- Where a worker's loop stands. -/
inductive Pc where
  | idle
  /-- Claimed, `dispatch` running. -/
  | running (job : Job)
  /-- `mark_retry` committed, `defer_pending` still to come. -/
  | cooling (job : Job) (delaySec : ℤ)

/-- The job a worker is running. -/
def Pc.job? : Pc → Option Job
  | .running j => some j
  | _ => none

theorem Pc.idle_ne_running (j : Job) : Pc.idle ≠ .running j := by
  rintro ⟨⟩

theorem Pc.job?_eq_some {pc : Pc} {j : Job} : pc.job? = some j ↔ pc = .running j := by
  cases pc <;> simp [Pc.job?]

inductive Action where
  | insertJob (kind : String) (payload : Dict) (priority : ℤ) (maxAttempts : ℕ)
      (hashPayload : Option Dict)
  | enqueueSlot (slot : String) (payload : Dict)
  | catchup (slot asOf : String)
  | runJobNow (jobId : ℕ) (force : Bool)
  | insertManualJob (kind : String) (payload : Dict)
  | auditFinish (jobId : ℕ) (res : ManualResult)
  /-- The API process ends before `_audit_finish`. -/
  | abandonManual (jobId : ℕ)
  | claimNext (w : ℕ)
  | reclaimStaleRunning (w : ℕ)
  | markDone (w : ℕ) (result : Dict)
  /-- `dispatch` raised: plan, then `mark_retry` or `mark_failed`. -/
  | fail (w : ℕ) (msg : String)
  | deferPending (w : ℕ)
  | crash (w : ℕ)

structure Sys where
  table : JobTable
  workers : ℕ → Pc
  manual : List ℕ
  claimed : List ℕ
  violations : ℕ

namespace Sys

def init : Sys := ⟨JobTable.empty, fun _ => .idle, [], [], 0⟩

def setWorker (s : Sys) (w : ℕ) (pc : Pc) : Sys :=
  { s with workers := Function.update s.workers w pc }

/-- An error that is neither `OperationalError` nor `InterfaceError` ends the process. -/
def violate (s : Sys) (w : ℕ) : Sys :=
  { s.setWorker w .idle with violations := s.violations + 1 }

end Sys

/-- The worker's plan for a failed attempt. -/
def planFor (cfg : QueueConfig) (j : Job) (msg : String) : RetryPlan :=
  planRetry (classifyFlexError msg) j.attempts j.maxAttempts cfg.policy

/-- Where the loop stands once `mark_retry` has committed. -/
def afterRetry (j : Job) (plan : RetryPlan) : Pc :=
  if plan.cooldownAllSec = 0 then .idle else .cooling j plan.cooldownAllSec

def step (cfg : QueueConfig) (s : Sys) : Timestamp × Action → Option Sys
  | (now, .insertJob kind payload priority n hashPayload) =>
    match insertJob cfg.payloadHash now kind payload priority n hashPayload s.table with
    | .error _ => some s
    | .ok (t, _) => some { s with table := t }
  | (now, .enqueueSlot slot payload) =>
    match enqueueSlot cfg.payloadHash cfg.slots now slot payload s.table with
    | .error _ => some s
    | .ok (t, _) => some { s with table := t }
  | (now, .catchup slot asOf) =>
    match enqueueSlot cfg.payloadHash cfg.slots now slot (catchupPayload asOf) s.table with
    | .error _ => some s
    | .ok (t, _) => some { s with table := t }
  | (now, .runJobNow k force) =>
    match runJobNow cfg.fmtLocal cfg.tz now k force s.table with
    | .error _ => some s
    | .ok (t, _) => some { s with table := t }
  | (now, .insertManualJob kind payload) =>
    match insertManualJob now kind payload s.table with
    | .error _ => some s
    | .ok (t, k) => some { s with table := t, manual := k :: s.manual }
  | (now, .auditFinish k res) =>
    if k ∈ s.manual then
      match auditFinish now k res s.table with
      | .error _ =>
        some { s with manual := s.manual.erase k, violations := s.violations + 1 }
      | .ok t => some { s with table := t, manual := s.manual.erase k }
    else none
  | (_, .abandonManual k) => some { s with manual := s.manual.erase k }
  | (now, .claimNext w) =>
    match s.workers w with
    | .idle =>
      match claimNext now s.table with
      | .error _ => some (s.violate w)
      | .ok (t, none) => some { s with table := t }
      | .ok (t, some j) =>
        some { s.setWorker w (.running j) with table := t, claimed := j.id :: s.claimed }
    | _ => none
  | (now, .reclaimStaleRunning w) =>
    match s.workers w with
    | .idle =>
      match reclaimStaleRunning cfg.staleAfterSec cfg.requeueDelaySec now s.table with
      | .error _ => some (s.violate w)
      | .ok (t, _) => some { s with table := t }
    | _ => none
  | (now, .markDone w result) =>
    match s.workers w with
    | .running j =>
      match markDone now j.id result s.table with
      | .error _ => some (s.violate w)
      | .ok t => some { s.setWorker w .idle with table := t }
    | _ => none
  | (now, .fail w msg) =>
    match s.workers w with
    | .running j =>
      let plan := planFor cfg j msg
      match plan.status with
      | .pending =>
        match markRetry now j.id msg plan.category.value plan.delaySec s.table with
        | .error _ => some (s.violate w)
        | .ok t => some { s.setWorker w (afterRetry j plan) with table := t }
      | .failed =>
        match markFailed now j.id msg (some plan.category.value) s.table with
        | .error _ => some (s.violate w)
        | .ok t => some { s.setWorker w .idle with table := t }
    | _ => none
  | (now, .deferPending w) =>
    match s.workers w with
    | .cooling j delay =>
      match deferPending now delay (some j.id) s.table with
      | .error _ => some (s.violate w)
      | .ok (t, _) => some { s.setWorker w .idle with table := t }
    | _ => none
  | (_, .crash w) => some (s.setWorker w .idle)

/-! ## What a step can do -/

/-- The attempt budget an action brings is at least 1. -/
def Action.BudgetPos : Action → Prop
  | .insertJob _ _ _ n _ => 0 < n
  | _ => True

/-- The worker an action belongs to. -/
def Action.worker : Action → Option ℕ
  | .claimNext w => some w
  | .reclaimStaleRunning w => some w
  | .markDone w _ => some w
  | .fail w _ => some w
  | .deferPending w => some w
  | .crash w => some w
  | _ => none

/-- The index entry of the job an action brings; none when it brings none. -/
def arrivalEntry (cfg : QueueConfig) (now : Timestamp) : Action → Option (String × String)
  | .insertJob kind payload _ _ hashPayload =>
    if strip kind = "" then none
    else some (strip kind, cfg.payloadHash (hashPayload.getD payload))
  | .enqueueSlot slot payload => slotEntry cfg.payloadHash now slot payload
  | .catchup slot asOf => slotEntry cfg.payloadHash now slot (catchupPayload asOf)
  | _ => none

/-- Everything a step can do. -/
inductive Effect (cfg : QueueConfig) (s : Sys) (now : Timestamp) : Action → Sys → Prop
  /-- A request that raised, or a poll of an empty queue. -/
  | nothing (a : Action) (ha : arrivalEntry cfg now a = none) (hw : ∀ w msg, a ≠ .fail w msg)
      (hw' : ∀ w, a ≠ .reclaimStaleRunning w) : Effect cfg s now a s
  | insert (a : Action) (kind : String) (payload : Dict) (hash : String) (priority : ℤ) (n : ℕ)
      (ha : arrivalEntry cfg now a = some (kind, hash)) (hn : a.BudgetPos → 0 < n) :
      Effect cfg s now a
        { s with table := (s.table.insert (newJob now kind payload hash priority n)).1 }
  | runNow (k : ℕ) (force : Bool) (t : JobTable) (r : JobRow) (hr : s.table.row k = some r)
      (hst : r.status = .pending) (hcool : force = false → r.coolingDown now = false)
      (ht : s.table.update (fun x => x.id = k && x.status = .pending) (JobRow.clearNotBefore now)
        (fun _ => rfl) = .ok t) :
      Effect cfg s now (.runJobNow k force) { s with table := t }
  | manualStart (kind kind' : String) (payload : Dict)
      (hrows : (s.table.insert (newManualJob now kind' payload)).1.rows =
        s.table.rows ++ [{ newManualJob now kind' payload with id := s.table.nextId }]) :
      Effect cfg s now (.insertManualJob kind payload)
        { s with
          table := (s.table.insert (newManualJob now kind' payload)).1
          manual := s.table.nextId :: s.manual }
  | manualFinish (k : ℕ) (res : ManualResult) (t : JobTable) (hk : k ∈ s.manual)
      (ht : auditFinish now k res s.table = .ok t) :
      Effect cfg s now (.auditFinish k res) { s with table := t, manual := s.manual.erase k }
  | manualAbandon (k : ℕ) :
      Effect cfg s now (.abandonManual k) { s with manual := s.manual.erase k }
  | claim (w : ℕ) (r : JobRow) (t : JobTable) (hw : s.workers w = .idle) (hr : r ∈ s.table.rows)
      (hcl : r.claimable now = true)
      (ht : s.table.update (fun x => x.id = r.id) (JobRow.claim now) (fun _ => rfl) = .ok t) :
      Effect cfg s now (.claimNext w)
        { s.setWorker w (.running { r.toJob with attempts := r.attempts + 1 }) with
          table := t
          claimed := r.id :: s.claimed }
  | reclaim (w : ℕ) (t : JobTable) (hw : s.workers w = .idle)
      (ht : s.table.update (JobRow.stale now (max 60 cfg.staleAfterSec))
        (JobRow.reclaim now (max 60 cfg.staleAfterSec) (max 0 cfg.requeueDelaySec))
        (fun _ => rfl) = .ok t) :
      Effect cfg s now (.reclaimStaleRunning w) { s with table := t }
  | done (w : ℕ) (j : Job) (result : Dict) (t : JobTable) (hw : s.workers w = .running j)
      (ht : markDone now j.id result s.table = .ok t) :
      Effect cfg s now (.markDone w result) { s.setWorker w .idle with table := t }
  | retry (w : ℕ) (j : Job) (msg : String) (t : JobTable) (hw : s.workers w = .running j)
      (hp : (planFor cfg j msg).status = .pending)
      (ht : markRetry now j.id msg (planFor cfg j msg).category.value (planFor cfg j msg).delaySec
        s.table = .ok t) :
      Effect cfg s now (.fail w msg)
        { s.setWorker w (afterRetry j (planFor cfg j msg)) with table := t }
  | violation (w : ℕ) (j : Job) (msg : String) (e : DbError) (hw : s.workers w = .running j)
      (ht : markRetry now j.id msg (planFor cfg j msg).category.value (planFor cfg j msg).delaySec
        s.table = .error e) :
      Effect cfg s now (.fail w msg) (s.violate w)
  | giveUp (w : ℕ) (j : Job) (msg : String) (t : JobTable) (hw : s.workers w = .running j)
      (hp : (planFor cfg j msg).status = .failed)
      (ht : markFailed now j.id msg (some (planFor cfg j msg).category.value) s.table = .ok t) :
      Effect cfg s now (.fail w msg) { s.setWorker w .idle with table := t }
  | cool (w : ℕ) (j : Job) (delay : ℤ) (t : JobTable) (hw : s.workers w = .cooling j delay)
      (ht : s.table.update (JobRow.deferred (some j.id)) (JobRow.defer now delay)
        (fun _ => rfl) = .ok t) :
      Effect cfg s now (.deferPending w) { s.setWorker w .idle with table := t }
  | crash (w : ℕ) : Effect cfg s now (.crash w) (s.setWorker w .idle)

theorem Effect.enqueue {cfg : QueueConfig} {s : Sys} {now : Timestamp} {a : Action}
    {slot : String} {payload : Dict} {t : JobTable} {res : EnqueueResult}
    (ha : arrivalEntry cfg now a = slotEntry cfg.payloadHash now slot payload)
    (h : enqueueSlot cfg.payloadHash cfg.slots now slot payload s.table = .ok (t, res)) :
    Effect cfg s now a { s with table := t } := by
  obtain ⟨kind, hash, priority, n, hn, hentry, hins⟩ := enqueueSlot_ok h
  have ht : t = (s.table.insert (newJob now kind (slotBody now payload) hash priority n)).1 := by
    rw [hins]
  rw [ht]
  exact .insert a kind _ hash priority n (ha.trans hentry) fun _ => hn

/-- **Inversion of `step`.** -/
theorem step_effect {cfg : QueueConfig} {s s' : Sys} {now : Timestamp} {a : Action}
    (h : step cfg s (now, a) = some s') : Effect cfg s now a s' := by
  cases a with
  | insertJob kind payload priority n hashPayload =>
    simp only [step] at h
    split at h
    · rename_i e he
      cases h
      refine .nothing _ ?_ nofun nofun
      unfold insertJob at he
      split at he
      · rename_i hkind
        exact if_pos hkind
      · cases he
    · rename_i t k hins
      cases h
      have hkind : strip kind ≠ "" := by
        intro hkind
        rw [insertJob, if_pos hkind] at hins
        cases hins
      rw [show t = _ from (congrArg Prod.fst (insertJob_ok hins)).symm]
      exact .insert _ _ _ _ _ n (if_neg hkind) id
  | enqueueSlot slot payload =>
    simp only [step] at h
    split at h
    · rename_i e he
      cases h
      exact .nothing _ (enqueueSlot_error he) nofun nofun
    · rename_i t res hins
      cases h
      exact Effect.enqueue rfl hins
  | catchup slot asOf =>
    simp only [step] at h
    split at h
    · rename_i e he
      cases h
      exact .nothing _ (enqueueSlot_error he) nofun nofun
    · rename_i t res hins
      cases h
      exact Effect.enqueue rfl hins
  | runJobNow k force =>
    simp only [step] at h
    split at h
    · cases h; exact .nothing _ rfl nofun nofun
    · rename_i t res hrun
      cases h
      obtain ⟨ht, r, hr, hst, hcool⟩ := runJobNow_ok hrun
      exact .runNow k force t r hr hst hcool ht
  | insertManualJob kind payload =>
    simp only [step] at h
    split at h
    · cases h; exact .nothing _ rfl nofun nofun
    · rename_i t k hins
      cases h
      obtain ⟨rfl, rfl, hrows⟩ := insertManualJob_ok hins
      exact .manualStart kind _ payload hrows
  | auditFinish k res =>
    simp only [step] at h
    split at h
    · rename_i hk
      split at h
      · rename_i e he
        obtain ⟨t, ht⟩ := auditFinish_isOk now k res s.table
        rw [ht] at he
        cases he
      · rename_i t ht
        cases h
        exact .manualFinish k res t hk ht
    · cases h
  | abandonManual k =>
    cases h
    exact .manualAbandon k
  | claimNext w =>
    simp only [step] at h
    split at h
    · rename_i hw
      split at h
      · rename_i e he
        obtain ⟨res, hres⟩ := claimNext_isOk now s.table
        rw [hres] at he
        cases he
      · rename_i t ht
        cases h
        rcases claimNext_cases ht with ⟨rfl, _, _⟩ | ⟨_, _, _, _, hj⟩
        · exact .nothing _ rfl nofun nofun
        · cases hj
      · rename_i t j ht
        cases h
        rcases claimNext_cases ht with ⟨_, hj, _⟩ | ⟨r, hr, hcl, hup, hj⟩
        · cases hj
        · cases hj
          exact .claim w r t hw hr hcl hup
    · cases h
  | reclaimStaleRunning w =>
    simp only [step] at h
    split at h
    · rename_i hw
      split at h
      · rename_i e he
        obtain ⟨res, hres⟩ :=
          reclaimStaleRunning_isOk cfg.staleAfterSec cfg.requeueDelaySec now s.table
        rw [hres] at he
        cases he
      · rename_i t ids ht
        cases h
        exact .reclaim w t hw (reclaimStaleRunning_ok ht)
    · cases h
  | markDone w result =>
    simp only [step] at h
    split at h
    · rename_i j hw
      split at h
      · rename_i e he
        obtain ⟨t, ht⟩ := markDone_isOk now j.id result s.table
        rw [ht] at he
        cases he
      · rename_i t ht
        cases h
        exact .done w j result t hw ht
    · cases h
  | fail w msg =>
    simp only [step] at h
    split at h
    · rename_i j hw
      split at h
      · rename_i hp
        split at h
        · rename_i e he
          cases h
          exact .violation w j msg e hw he
        · rename_i t ht
          cases h
          exact .retry w j msg t hw hp ht
      · rename_i hp
        split at h
        · rename_i e he
          obtain ⟨t, ht⟩ := markFailed_isOk now j.id msg
            (some (planFor cfg j msg).category.value) s.table
          rw [ht] at he
          cases he
        · rename_i t ht
          cases h
          exact .giveUp w j msg t hw hp ht
    · cases h
  | deferPending w =>
    simp only [step] at h
    split at h
    · rename_i j delay hw
      split at h
      · rename_i e he
        obtain ⟨res, hres⟩ := deferPending_isOk now delay (some j.id) s.table
        rw [hres] at he
        cases he
      · rename_i t ids ht
        cases h
        exact .cool w j delay t hw (deferPending_ok ht)
    · cases h
  | crash w =>
    cases h
    exact .crash w

end FlexQuery
