import FlexQuery.Library.Refinement
import FlexQuery.Queue.Budget
import FlexQuery.Queue.Fleet

/-!
# The loop refines the queue's system

The processes of `Queue.Fleet`, against the system of `Queue.System` and `Queue.Freshness`.

* `Stands` — where that system has a process with these calls still to be made.
* `Mirrors` — the tables are the same, and each worker stands where its process is.
* `fleet_mirrored`, `fleet_simulates` — each event is at most one step of the system.
* `fleet_refines` — so what holds of the runs of the system holds of the loop as it is written.
-/

set_option autoImplicit false

namespace FlexQuery

open Transition Refinement

/-! ## Where a process stands -/

/-- What the queue's system knows of a worker. -/
structure Standing where
  pc : Pc
  recorded : Bool
  owed : Option FreshnessRecord

def Standing.free : Standing := ⟨.idle, false, none⟩

/-- After a poll. -/
def Standing.polled : Option Job → Standing
  | none => .free
  | some j => ⟨.running j, false, none⟩

def FreshSys.standing (s : FreshSys) (w : ℕ) : Standing :=
  ⟨s.queue.workers w, s.recorded w, s.owed (.worker w)⟩

/-- A call that is no step of the queue's system, or one of a free worker. -/
def LoopCall.free : LoopCall → Bool
  | .reclaimStaleRunning => true
  | .catchupMissedSlots => true
  | .heartbeat _ => true
  | _ => false

section Simulation
variable {ws : WorkerSettings} {cfg : QueueConfig} {sched : CatchupConfig}

/-- The calls that end a job. -/
def endCalls (ws : WorkerSettings) (st : LoopState) (j : Job) : Except String Dict → List LoopCall
  | .ok result => (jobDone st j result).2
  | .error msg => (jobRaised ws st j msg).2

/-- The last two calls of a job that raised. -/
abbrev outcomeCalls (ws : WorkerSettings) (cfg : QueueConfig) (st : LoopState) (j : Job)
    (msg : String) : List LoopCall :=
  [.recordIngestOutcome j.kind ((planFor (ws.queue cfg) j msg).category.value ++ ": " ++ msg) j.id,
    .heartbeat st]

/-- The standing of a worker whose process has these calls still to make. -/
inductive Stands (ws : WorkerSettings) (cfg : QueueConfig) :
    Answer → List LoopCall → Standing → Prop
  | free {answer : Answer} {calls : List LoopCall} (h : ∀ c ∈ calls, c.free = true) :
    Stands ws cfg answer calls .free
  | dispatching (j : Job) (claimedAt : String) (result : Except String Dict) (st : LoopState) :
    Stands ws cfg (.job j claimedAt result)
      (.dispatch j.kind j.payload j.id :: endCalls ws st j result) ⟨.running j, false, none⟩
  | done (j : Job) (claimedAt : String) (result : Dict) (st : LoopState) :
    Stands ws cfg (.job j claimedAt (.ok result)) [.markDone j.id result, .heartbeat st]
      ⟨.running j, true, none⟩
  /-- The plan is to try again. -/
  | retrying (j : Job) (claimedAt msg : String) (st : LoopState)
    (hplan : (planFor (ws.queue cfg) j msg).status = .pending) :
    Stands ws cfg (.job j claimedAt (.error msg))
      (.markRetry j.id msg (planFor (ws.queue cfg) j msg).category.value
          (planFor (ws.queue cfg) j msg).delaySec ::
        ((if (planFor (ws.queue cfg) j msg).cooldownAllSec = 0 then []
          else [.deferPending (planFor (ws.queue cfg) j msg).cooldownAllSec j.id]) ++
          outcomeCalls ws cfg st j msg)) ⟨.running j, false, none⟩
  | failing (j : Job) (claimedAt msg : String) (st : LoopState)
    (hplan : (planFor (ws.queue cfg) j msg).status = .failed) :
    Stands ws cfg (.job j claimedAt (.error msg))
      (.markFailed j.id msg (planFor (ws.queue cfg) j msg).category.value ::
        outcomeCalls ws cfg st j msg) ⟨.running j, false, none⟩
  | cooling (j : Job) (claimedAt msg : String) (st : LoopState) (delay : ℤ) :
    Stands ws cfg (.job j claimedAt (.error msg))
      (.deferPending delay j.id :: outcomeCalls ws cfg st j msg)
      ⟨.cooling j delay, false, some (failureRecord (ws.queue cfg) j msg)⟩
  | recording (j : Job) (claimedAt msg : String) (st : LoopState) :
    Stands ws cfg (.job j claimedAt (.error msg)) (outcomeCalls ws cfg st j msg)
      ⟨.idle, false, some (failureRecord (ws.queue cfg) j msg)⟩

/-- A process that is up, or none. -/
def StandsAt (ws : WorkerSettings) (cfg : QueueConfig) : Option LoopProcess → Standing → Prop
  | none, x => x = .free
  | some p, x => Stands ws cfg p.answer p.calls x

/-- The system's state shows the tables of the fleet, and each worker where its process is. -/
structure Mirrors (ws : WorkerSettings) (cfg : QueueConfig) (f : Fleet) (s : FreshSys) : Prop where
  table : s.queue.table = f.table
  fresh : s.fresh = f.fresh
  manual : s.queue.manual = f.manual
  owed : ∀ k, s.owed (.manual k) = f.owed k
  procs : ∀ w, StandsAt ws cfg (f.procs w) (s.standing w)

theorem Mirrors.init (ws : WorkerSettings) (cfg : QueueConfig) :
    Mirrors ws cfg .init FreshSys.init :=
  ⟨rfl, rfl, rfl, fun _ => rfl, fun _ => rfl⟩

/-! ## Steps of the API -/

/-- The workers of `s`, with what a step made of the rest. -/
def Sys.beside (s q : Sys) : Sys :=
  { s with
    table := q.table
    manual := q.manual
    violations := s.violations + q.violations }

/-- A step of the API does the same whatever the workers are doing. -/
theorem step_api {s₀ s : Sys} {now : Timestamp} {a : Action} (ha : a.worker = none)
    (htable : s₀.table = s.table) (hmanual : s₀.manual = s.manual) (hzero : s₀.violations = 0) :
    step cfg s (now, a) = (step cfg s₀ (now, a)).map s.beside := by
  obtain ⟨t, workers, manual, claimed, n⟩ := s
  obtain ⟨t₀, workers₀, manual₀, claimed₀, n₀⟩ := s₀
  simp only at htable hmanual hzero
  subst htable hmanual hzero
  cases a with
  | insertJob kind payload priority n hashPayload =>
    simp only [step]
    split <;> rfl
  | enqueueSlot slot payload =>
    simp only [step]
    split <;> rfl
  | catchup slot asOf =>
    simp only [step]
    split <;> rfl
  | runJobNow k force =>
    simp only [step]
    split <;> rfl
  | insertManualJob kind payload =>
    simp only [step]
    split <;> rfl
  | auditFinish k res =>
    simp only [step]
    split
    · split <;> rfl
    · rfl
  | abandonManual k => rfl
  | claimNext w => cases ha
  | reclaimStaleRunning w => cases ha
  | markDone w result => cases ha
  | fail w msg => cases ha
  | deferPending w => cases ha
  | crash w => cases ha

/-! ## Steps of a worker -/

/-- What a step of worker `w` leaves. -/
structure WorkerStep (s s' : FreshSys) (w : ℕ) (t : JobTable) (fresh : FreshnessTable)
    (x : Standing) : Prop where
  table : s'.queue.table = t
  fresh : s'.fresh = fresh
  manual : s'.queue.manual = s.queue.manual
  owed : ∀ k, s'.owed (.manual k) = s.owed (.manual k)
  standing : s'.standing w = x
  others : ∀ v, v ≠ w → s'.standing v = s.standing v

section Worker
variable {s : FreshSys} {now : Timestamp} {w : ℕ}

theorem standing_eq {x : Standing} (h : s.standing w = x) :
    s.queue.workers w = x.pc ∧ s.recorded w = x.recorded ∧ s.owed (.worker w) = x.owed := by
  subst h
  exact ⟨rfl, rfl, rfl⟩

theorem freshStep_claimNext (h : s.standing w = .free) {t : JobTable} {job : Option Job}
    (hclaim : claimNext now s.queue.table = .ok (t, job)) :
    ∃ s', freshStep cfg s (now, .queue (.claimNext w)) = some s' ∧
      WorkerStep s s' w t s.fresh (.polled job) := by
  obtain ⟨hpc, hrecorded, howed⟩ := standing_eq h
  simp only [Standing.free] at hpc hrecorded howed
  cases job with
  | none =>
    refine ⟨{ s with queue := { s.queue with table := t } }, ?_,
      ⟨rfl, rfl, rfl, fun _ => rfl, h, fun _ _ => rfl⟩⟩
    simp [freshStep, FreshSys.enabled, howed, step, hpc, hclaim, FreshSys.after, FreshSys.marks]
  | some j =>
    refine ⟨{ s with queue := { s.queue.setWorker w (.running j) with
      table := t, claimed := j.id :: s.queue.claimed } }, ?_,
      ⟨rfl, rfl, rfl, fun _ => rfl, ?_, ?_⟩⟩
    · simp [freshStep, FreshSys.enabled, howed, step, hpc, hclaim, FreshSys.after, FreshSys.marks]
    · simp [FreshSys.standing, workers_setWorker, hrecorded, howed, Standing.polled]
    · intro v hv
      simp [FreshSys.standing, workers_setWorker, hv]

theorem freshStep_reclaim (h : s.standing w = .free) {t : JobTable} {ids : List ℕ}
    (hreclaim : reclaimStaleRunning cfg.staleAfterSec cfg.requeueDelaySec now s.queue.table =
      .ok (t, ids)) :
    ∃ s', freshStep cfg s (now, .queue (.reclaimStaleRunning w)) = some s' ∧
      WorkerStep s s' w t s.fresh .free := by
  obtain ⟨hpc, hrecorded, howed⟩ := standing_eq h
  simp only [Standing.free] at hpc hrecorded howed
  refine ⟨s.after cfg now { s.queue with table := t } (.reclaimStaleRunning w), ?_,
    ⟨rfl, rfl, rfl, fun _ => rfl, h, fun _ _ => rfl⟩⟩
  simp [freshStep, FreshSys.enabled, howed, step, hpc, hreclaim]

theorem freshStep_catchup {slot asOf : String} {t : JobTable} {res : EnqueueResult}
    (henqueue : enqueueSlot cfg.payloadHash cfg.slots now slot (catchupPayload asOf) s.queue.table =
      .ok (t, res)) (w : ℕ) :
    ∃ s', freshStep cfg s (now, .queue (.catchup slot asOf)) = some s' ∧
      WorkerStep s s' w t s.fresh (s.standing w) := by
  refine ⟨{ s with queue := { s.queue with table := t } }, ?_,
    ⟨rfl, rfl, rfl, fun _ => rfl, rfl, fun _ _ => rfl⟩⟩
  simp [freshStep, FreshSys.enabled, step, henqueue, FreshSys.after, FreshSys.marks]

theorem freshStep_recordSuccess {j : Job} (h : s.standing w = ⟨.running j, false, none⟩)
    (processedRows : ℤ) (newRows : Option ℕ) :
    ∃ s', freshStep cfg s (now, .recordSuccess w processedRows newRows) = some s' ∧
      WorkerStep s s' w s.queue.table
        (recordFreshness now ⟨strip j.kind, true, processedRows, newRows, none, some j.id⟩ s.fresh)
        ⟨.running j, true, none⟩ := by
  obtain ⟨hpc, hrecorded, howed⟩ := standing_eq h
  simp only at hpc hrecorded howed
  let a : FreshnessRecord := ⟨strip j.kind, true, processedRows, newRows, none, some j.id⟩
  refine ⟨{ (s.ends now a).records now a with recorded := Function.update s.recorded w true }, ?_,
    ⟨rfl, rfl, rfl, fun _ => rfl, ?_, ?_⟩⟩
  · simp only [freshStep, hpc, hrecorded, Bool.false_eq_true, if_false, a]
  · simp [FreshSys.standing, FreshSys.records, FreshSys.ends, hpc, howed]
  · intro v hv
    simp [FreshSys.standing, FreshSys.records, FreshSys.ends, hv]

theorem freshStep_markDone {j : Job} (h : s.standing w = ⟨.running j, true, none⟩) {result : Dict}
    {t : JobTable} (hdone : markDone now j.id result s.queue.table = .ok t) :
    ∃ s', freshStep cfg s (now, .queue (.markDone w result)) = some s' ∧
      WorkerStep s s' w t s.fresh .free := by
  obtain ⟨hpc, hrecorded, howed⟩ := standing_eq h
  simp only at hpc hrecorded howed
  refine ⟨s.after cfg now { s.queue.setWorker w .idle with table := t } (.markDone w result), ?_,
    ⟨rfl, rfl, rfl, fun _ => rfl, ?_, ?_⟩⟩
  · simp only [freshStep, FreshSys.enabled, hrecorded, if_true, step, hpc, hdone]
  · simp [FreshSys.standing, FreshSys.after, FreshSys.marks, workers_setWorker, howed,
      Standing.free]
  · intro v hv
    simp [FreshSys.standing, FreshSys.after, FreshSys.marks, workers_setWorker, hv]

/-- The mark of an exception: what is owed then. -/
theorem freshStep_fail {j : Job} (h : s.standing w = ⟨.running j, false, none⟩) {msg : String}
    {q : Sys} (hfail : step cfg s.queue (now, .fail w msg) = some q)
    (hquiet : q.violations = s.queue.violations) (hmanual : q.manual = s.queue.manual)
    (hothers : ∀ v, v ≠ w → q.workers v = s.queue.workers v) :
    ∃ s', freshStep cfg s (now, .queue (.fail w msg)) = some s' ∧
      WorkerStep s s' w q.table s.fresh ⟨q.workers w, false, some (failureRecord cfg j msg)⟩ := by
  obtain ⟨hpc, hrecorded, howed⟩ := standing_eq h
  simp only at hpc hrecorded howed
  have hafter : s.after cfg now q (.fail w msg) =
      { s.ends now (failureRecord cfg j msg) with
        queue := q
        owed := Function.update s.owed (.worker w) (some (failureRecord cfg j msg)) } := by
    simp only [FreshSys.after, FreshSys.marks, hpc, hquiet, if_true]
  refine ⟨s.after cfg now q (.fail w msg), ?_, ?_⟩
  · simp [freshStep, FreshSys.enabled, hrecorded, howed, hfail]
  rw [hafter]
  refine ⟨rfl, rfl, hmanual, fun k => ?_, ?_, ?_⟩
  · simp
  · simp [FreshSys.standing, FreshSys.ends, hrecorded]
  · intro v hv
    simp [FreshSys.standing, FreshSys.ends, hothers v hv, hv]

/-- A `mark_retry` that the unique index refuses ends the process. -/
theorem freshStep_violate {j : Job} (h : s.standing w = ⟨.running j, false, none⟩) {msg : String}
    (hfail : step cfg s.queue (now, .fail w msg) = some (s.queue.violate w)) :
    ∃ s', freshStep cfg s (now, .queue (.fail w msg)) = some s' ∧
      WorkerStep s s' w s.queue.table s.fresh .free := by
  obtain ⟨hpc, hrecorded, howed⟩ := standing_eq h
  simp only at hpc hrecorded howed
  have hafter : s.after cfg now (s.queue.violate w) (.fail w msg) =
      { s with queue := s.queue.violate w } := by
    simp [FreshSys.after, FreshSys.marks, hpc, Sys.violate]
  refine ⟨s.after cfg now (s.queue.violate w) (.fail w msg), ?_, ?_⟩
  · simp [freshStep, FreshSys.enabled, hrecorded, howed, hfail]
  rw [hafter]
  refine ⟨rfl, rfl, rfl, fun _ => rfl, ?_, ?_⟩
  · simp [FreshSys.standing, Sys.violate, workers_setWorker, hrecorded, howed, Standing.free]
  · intro v hv
    simp [FreshSys.standing, Sys.violate, workers_setWorker, hv]

theorem freshStep_deferPending {j : Job} {delay : ℤ} {owed : Option FreshnessRecord}
    (h : s.standing w = ⟨.cooling j delay, false, owed⟩) {t : JobTable} {ids : List ℕ}
    (hdefer : deferPending now delay (some j.id) s.queue.table = .ok (t, ids)) :
    ∃ s', freshStep cfg s (now, .queue (.deferPending w)) = some s' ∧
      WorkerStep s s' w t s.fresh ⟨.idle, false, owed⟩ := by
  obtain ⟨hpc, hrecorded, howed⟩ := standing_eq h
  simp only at hpc hrecorded howed
  refine ⟨s.after cfg now { s.queue.setWorker w .idle with table := t } (.deferPending w), ?_,
    ⟨rfl, rfl, rfl, fun _ => rfl, ?_, ?_⟩⟩
  · simp only [freshStep, FreshSys.enabled, if_true, step, hpc, hdefer]
  · simp [FreshSys.standing, FreshSys.after, FreshSys.marks, workers_setWorker, hrecorded, howed]
  · intro v hv
    simp [FreshSys.standing, FreshSys.after, FreshSys.marks, workers_setWorker, hv]

theorem freshStep_recordOutcome {a : FreshnessRecord} (h : s.standing w = ⟨.idle, false, some a⟩) :
    ∃ s', freshStep cfg s (now, .recordOutcome (.worker w)) = some s' ∧
      WorkerStep s s' w s.queue.table (recordFreshness now a s.fresh) .free := by
  obtain ⟨hpc, hrecorded, howed⟩ := standing_eq h
  simp only at hpc hrecorded howed
  refine ⟨{ s.records now a with owed := Function.update s.owed (.worker w) none }, ?_,
    ⟨rfl, rfl, rfl, fun k => ?_, ?_, ?_⟩⟩
  · simp only [freshStep, FreshSys.atRecord, hpc, if_true, howed]
  · simp
  · simp [FreshSys.standing, FreshSys.records, hpc, hrecorded, Standing.free]
  · intro v hv
    simp [FreshSys.standing, FreshSys.records, hv]

theorem freshStep_crash (s : FreshSys) (now : Timestamp) (w : ℕ) :
    ∃ s', freshStep cfg s (now, .queue (.crash w)) = some s' ∧
      WorkerStep s s' w s.queue.table s.fresh .free := by
  refine ⟨_, rfl, ⟨rfl, rfl, rfl, fun k => ?_, ?_, ?_⟩⟩
  · simp [FreshSys.after, FreshSys.marks]
  · simp [FreshSys.standing, FreshSys.after, FreshSys.marks, workers_setWorker, Standing.free]
  · intro v hv
    simp [FreshSys.standing, FreshSys.after, FreshSys.marks, workers_setWorker, hv]

end Worker

/-! ## Simulation -/

theorem Mirrors.after {f : Fleet} {s s' : FreshSys} (h : Mirrors ws cfg f s) {w : ℕ} {t : JobTable}
    {fresh : FreshnessTable} {x : Standing} (hstep : WorkerStep s s' w t fresh x)
    {p : Option LoopProcess} (hp : StandsAt ws cfg p x) :
    Mirrors ws cfg { f.setProc w p with table := t, fresh := fresh } s' where
  table := hstep.table
  fresh := hstep.fresh
  manual := hstep.manual.trans h.manual
  owed k := (hstep.owed k).trans (h.owed k)
  procs v := by
    by_cases hv : v = w
    · subst hv
      show StandsAt ws cfg (Function.update f.procs v p v) _
      rw [Function.update_self, hstep.standing]
      exact hp
    · show StandsAt ws cfg (Function.update f.procs w p v) _
      rw [Function.update_of_ne hv, hstep.others v hv]
      exact h.procs v

theorem WorkerStep.refl (s : FreshSys) (w : ℕ) :
    WorkerStep s s w s.queue.table s.fresh (s.standing w) :=
  ⟨rfl, rfl, rfl, fun _ => rfl, rfl, fun _ _ => rfl⟩

/-- A call that leaves the tables alone. -/
theorem Mirrors.unseen {f : Fleet} {s : FreshSys} (h : Mirrors ws cfg f s) {w : ℕ}
    {p : Option LoopProcess} (hp : StandsAt ws cfg p (s.standing w)) :
    Mirrors ws cfg (f.setProc w p) s := by
  have hsame := h.after (WorkerStep.refl s w) hp
  rwa [h.table, h.fresh] at hsame

/-- What an event comes to in the queue's system. -/
def Mirrored (ws : WorkerSettings) (cfg : QueueConfig) (now : Timestamp) (s : FreshSys)
    (f' : Fleet) : Prop :=
  Mirrors ws cfg f' s ∨
    ∃ a s', freshStep (ws.queue cfg) s (now, a) = some s' ∧ Mirrors ws cfg f' s'

theorem Stands.free_of_nil {answer : Answer} {x : Standing} (h : Stands ws cfg answer [] x) :
    x = .free := by
  cases h
  rfl

theorem sweep_free (ws : WorkerSettings) (st : LoopState) (reclaimed : List ℕ)
    (caught : Except String ℕ) : ∀ c ∈ (sweep ws st reclaimed caught).2, c.free = true := by
  unfold sweep
  split
  · cases caught <;> simp [LoopCall.free]
  · simp [LoopCall.free]

theorem polled_stands (p : LoopProcess) (turn : TurnAnswers) (job : Option Job) :
    StandsAt ws cfg (some (p.polled ws turn job)) (.polled job) := by
  cases job with
  | none =>
    apply Stands.free
    simp only [LoopProcess.polled, TurnAnswers.answer, iteration]
    split
    · exact sweep_free ws _ turn.reclaimed turn.caught
    · simp
  | some j =>
    obtain ⟨reconnects, reclaimed, caught, claimedAt, result⟩ := turn
    cases result with
    | ok dict => exact Stands.dispatching j claimedAt (.ok dict) _
    | error msg => exact Stands.dispatching j claimedAt (.error msg) _

/-- After `dispatch` has raised. -/
theorem jobRaised_stands (j : Job) (claimedAt msg : String) (st : LoopState) :
    Stands ws cfg (.job j claimedAt (.error msg)) (jobRaised ws st j msg).2
      ⟨.running j, false, none⟩ := by
  have hplan : planRetry (classifyFlexError msg) j.attempts j.maxAttempts ws.policy =
      planFor (ws.queue cfg) j msg := rfl
  simp only [jobRaised, hplan]
  cases hst : (planFor (ws.queue cfg) j msg).status with
  | pending => exact Stands.retrying j claimedAt msg _ hst
  | failed => exact Stands.failing j claimedAt msg _ hst

section Calls
variable {f f' : Fleet} {s : FreshSys} {now : Timestamp} {w : ℕ} {p : LoopProcess}

/-- A step of the worker, on the queue. -/
theorem Mirrors.onQueue (h : Mirrors ws cfg f s) {a : FreshAction} {t : JobTable} {x : Standing}
    (hstep : ∃ s', freshStep (ws.queue cfg) s (now, a) = some s' ∧
      WorkerStep s s' w t s.fresh x) {p : Option LoopProcess} (hp : StandsAt ws cfg p x) :
    Mirrored ws cfg now s { f.setProc w p with table := t } := by
  obtain ⟨s', hs', hstep⟩ := hstep
  refine Or.inr ⟨a, s', hs', ?_⟩
  have hafter := h.after hstep hp
  rwa [h.fresh] at hafter

/-- A step of the worker, on the freshness rows. -/
theorem Mirrors.onFresh (h : Mirrors ws cfg f s) {a : FreshAction} {r : FreshnessRecord}
    {x : Standing} (hstep : ∃ s', freshStep (ws.queue cfg) s (now, a) = some s' ∧
      WorkerStep s s' w s.queue.table (recordFreshness now r s.fresh) x) {p : Option LoopProcess}
    (hp : StandsAt ws cfg p x) :
    Mirrored ws cfg now s { f.setProc w p with fresh := recordFreshness now r f.fresh } := by
  obtain ⟨s', hs', hstep⟩ := hstep
  refine Or.inr ⟨a, s', hs', ?_⟩
  have hafter := h.after hstep hp
  rwa [h.table, h.fresh] at hafter

/-- The calls of a worker without a job. -/
theorem free_mirrored (h : Mirrors ws cfg f s) (hfree : s.standing w = .free) {c : LoopCall}
    (hc : c.free = true) (hrest : ∀ c ∈ p.calls, c.free = true)
    (hcall : callStep ws sched now f w p c = some f') : Mirrored ws cfg now s f' := by
  have hp : StandsAt ws cfg (some p) .free := Stands.free hrest
  cases c with
  | reclaimStaleRunning =>
    obtain ⟨⟨t, ids⟩, hres⟩ := reclaimStaleRunning_isOk ws.staleAfterSec ws.requeueSec now f.table
    have hstep : ∃ s', freshStep (ws.queue cfg) s (now, .queue (.reclaimStaleRunning w)) = some s' ∧
        WorkerStep s s' w t s.fresh .free :=
      freshStep_reclaim hfree (by rw [h.table]; exact hres)
    simp only [callStep, hres] at hcall
    split at hcall
    · cases hcall
      rename_i heq
      cases heq
    · rename_i t' ids' reclaimed caught heq hanswer
      cases heq
      split at hcall
      · cases hcall
        exact h.onQueue hstep hp
      · cases hcall
    · cases hcall
  | catchupMissedSlots =>
    simp only [callStep] at hcall
    split at hcall
    · cases hcall
      exact Or.inl (h.unseen (hfree ▸ hp))
    · cases hcall
      exact Or.inl (h.unseen (hfree ▸ Stands.free hrest))
  | heartbeat st =>
    cases hcall
    exact Or.inl (h.unseen (hfree ▸ hp))
  | claimNext => cases hc
  | dispatch kind payload k => cases hc
  | markDone k result => cases hc
  | markRetry k error category delay => cases hc
  | deferPending delay k => cases hc
  | markFailed k error category => cases hc
  | recordIngestOutcome kind error k => cases hc

theorem call_mirrored (h : Mirrors ws cfg f s) (hp : f.procs w = some p) {c : LoopCall}
    {rest : List LoopCall} (hcalls : p.calls = c :: rest)
    (hcall : callStep ws sched now f w { p with calls := rest } c = some f') :
    Mirrored ws cfg now s f' := by
  have hst := h.procs w
  rw [hp] at hst
  obtain ⟨st, answer, calls, missed⟩ := p
  simp only at hcalls hcall
  subst hcalls
  simp only [StandsAt] at hst
  generalize hx : s.standing w = x at hst
  cases hst with
  | free hfree =>
    exact free_mirrored h hx (hfree c List.mem_cons_self)
      (fun d hd => hfree d (List.mem_cons_of_mem _ hd)) hcall
  | dispatching j claimedAt result st' =>
    cases result with
    | ok dict =>
      cases hcall
      exact h.onFresh (freshStep_recordSuccess hx _ _) (Stands.done j claimedAt dict _)
    | error msg =>
      cases hcall
      refine Or.inl (h.unseen ?_)
      rw [hx]
      exact jobRaised_stands j claimedAt msg st'
  | done j claimedAt dict st' =>
    obtain ⟨t, ht⟩ := markDone_isOk now j.id dict f.table
    simp only [callStep, ht, Fleet.commits] at hcall
    cases hcall
    exact h.onQueue (freshStep_markDone hx (by rw [h.table]; exact ht))
      (Stands.free (by simp [LoopCall.free]))
  | retrying j claimedAt msg st' hplan =>
    obtain ⟨hpc, _, _⟩ := standing_eq hx
    simp only at hpc
    cases hres : markRetry now j.id msg (planFor (ws.queue cfg) j msg).category.value
        (planFor (ws.queue cfg) j msg).delaySec f.table with
    | error e =>
      simp only [callStep, hres, Fleet.commits] at hcall
      cases hcall
      have hfail : step (ws.queue cfg) s.queue (now, .fail w msg) = some (s.queue.violate w) := by
        simp only [step, hpc, hplan, h.table, hres]
      have hmirrored := h.onQueue (p := none) (freshStep_violate hx hfail) rfl
      rwa [h.table] at hmirrored
    | ok t =>
      simp only [callStep, hres, Fleet.commits] at hcall
      cases hcall
      have hfail : step (ws.queue cfg) s.queue (now, .fail w msg) =
          some { s.queue.setWorker w (afterRetry j (planFor (ws.queue cfg) j msg)) with
            table := t } := by
        simp only [step, hpc, hplan, h.table, hres]
      have hstep := freshStep_fail hx hfail rfl rfl
        fun v hv => by simp [workers_setWorker, hv]
      refine h.onQueue hstep ?_
      simp only [workers_setWorker, if_true, afterRetry]
      by_cases hcool : (planFor (ws.queue cfg) j msg).cooldownAllSec = 0
      · rw [if_pos hcool, if_pos hcool]
        exact Stands.recording j claimedAt msg st'
      · rw [if_neg hcool, if_neg hcool]
        exact Stands.cooling j claimedAt msg st' _
  | failing j claimedAt msg st' hplan =>
    obtain ⟨hpc, _, _⟩ := standing_eq hx
    simp only at hpc
    obtain ⟨t, ht⟩ := markFailed_isOk now j.id msg
      (some (planFor (ws.queue cfg) j msg).category.value) f.table
    simp only [callStep, ht, Fleet.commits] at hcall
    cases hcall
    have hfail : step (ws.queue cfg) s.queue (now, .fail w msg) = some
        { s.queue.setWorker w .idle with table := t } := by
      simp only [step, hpc, hplan, h.table, ht]
    have hstep := freshStep_fail hx hfail rfl rfl
      fun v hv => by simp [workers_setWorker, hv]
    refine h.onQueue hstep ?_
    simp only [workers_setWorker, if_true]
    exact Stands.recording j claimedAt msg st'
  | cooling j claimedAt msg st' delay =>
    obtain ⟨⟨t, ids⟩, ht⟩ := deferPending_isOk now delay (some j.id) f.table
    simp only [callStep, ht, Except.map, Fleet.commits] at hcall
    cases hcall
    exact h.onQueue (freshStep_deferPending hx (by rw [h.table]; exact ht))
      (Stands.recording j claimedAt msg st')
  | recording j claimedAt msg st' =>
    cases hcall
    exact h.onFresh (freshStep_recordOutcome hx) (Stands.free (by simp [LoopCall.free]))

end Calls

/-! ### The API -/

section Api
variable {f : Fleet} {s : FreshSys} {now : Timestamp}

theorem enabled_api (h : Mirrors ws cfg f s) {a : Action} (ha : a.worker = none) :
    s.enabled a = f.alone.enabled a := by
  cases a with
  | auditFinish k res =>
    show (s.owed (.manual k)).isNone = (f.owed k).isNone
    rw [h.owed]
  | claimNext w => cases ha
  | reclaimStaleRunning w => cases ha
  | markDone w result => cases ha
  | fail w msg => cases ha
  | deferPending w => cases ha
  | crash w => cases ha
  | _ => rfl

theorem marks_api (h : Mirrors ws cfg f s) {a : Action} (ha : a.worker = none) (q : Sys) :
    s.marks (ws.queue cfg) (s.queue.beside q) a = f.alone.marks (ws.queue cfg) q a := by
  cases a with
  | auditFinish k res =>
    have hkind : s.kindOf k = f.alone.kindOf k := by
      show ((s.queue.table.row k).map JobRow.kind).getD "" = _
      rw [h.table]
      rfl
    have hiff : (s.queue.beside q).violations = s.queue.violations ↔
        q.violations = f.alone.queue.violations := by
      show s.queue.violations + q.violations = _ ↔ q.violations = 0
      omega
    simp only [FreshSys.marks, hkind, hiff]
  | fail w msg => cases ha
  | _ => rfl

/-- What an action of the API leaves, but for the queue. -/
theorem after_api (s : FreshSys) (cfg : QueueConfig) (now : Timestamp) {a : Action}
    (ha : a.worker = none) (q : Sys) :
    (s.after cfg now q a).queue = q ∧ (s.after cfg now q a).fresh = s.fresh ∧
      (s.after cfg now q a).recorded = s.recorded ∧
      (s.after cfg now q a).owed = match s.marks cfg q a with
        | none => s.owed
        | some (o, x) => Function.update s.owed o (some x) := by
  unfold FreshSys.after
  cases s.marks cfg q a with
  | some m => exact ⟨rfl, rfl, rfl, rfl⟩
  | none =>
    cases a with
    | reclaimStaleRunning w => cases ha
    | markDone w result => cases ha
    | crash w => cases ha
    | _ => exact ⟨rfl, rfl, rfl, rfl⟩

/-- It is a manual run that owes then. -/
theorem marks_manual {s : FreshSys} {cfg : QueueConfig} {a : Action} (ha : a.worker = none)
    {q : Sys} {o : Owner} {x : FreshnessRecord} (hm : s.marks cfg q a = some (o, x)) :
    ∃ k, o = .manual k := by
  cases a with
  | auditFinish k res =>
    simp only [FreshSys.marks] at hm
    split at hm
    · cases hm
      exact ⟨k, rfl⟩
    · cases hm
  | fail w msg => cases ha
  | _ => cases hm

/-- What a step of the API leaves, when the workers stand where they stood. -/
theorem Mirrors.withApi (h : Mirrors ws cfg f s) {s' s₁ : FreshSys}
    (htable : s'.queue.table = s₁.queue.table) (hfresh : s'.fresh = s₁.fresh)
    (hmanual : s'.queue.manual = s₁.queue.manual)
    (howed : ∀ k, s'.owed (.manual k) = s₁.owed (.manual k))
    (hstanding : ∀ w, s'.standing w = s.standing w) : Mirrors ws cfg (f.withApi s₁) s' where
  table := htable
  fresh := hfresh
  manual := hmanual
  owed := howed
  procs w := by
    rw [hstanding]
    exact h.procs w

theorem owed_manual (h : Mirrors ws cfg f s) (k i : ℕ) :
    Function.update s.owed (.manual k) none (.manual i) =
      Function.update f.alone.owed (.manual k) none (.manual i) := by
  by_cases hi : i = k
  · subst hi
    simp
  · have hne : (Owner.manual i) ≠ .manual k := by simpa using hi
    rw [Function.update_of_ne hne, Function.update_of_ne hne]
    exact h.owed i

/-- A route, or the mark of a manual run. -/
theorem action_mirrored (h : Mirrors ws cfg f s) {a : Action} (ha : a.worker = none) {q : Sys}
    (henabled : f.alone.enabled a = true)
    (hq : step (ws.queue cfg) f.alone.queue (now, a) = some q) :
    Mirrored ws cfg now s (f.withApi (f.alone.after (ws.queue cfg) now q a)) := by
  have hsame : step (ws.queue cfg) s.queue (now, a) =
      (step (ws.queue cfg) f.alone.queue (now, a)).map s.queue.beside :=
    step_api ha h.table.symm h.manual.symm rfl
  rw [hq, Option.map_some] at hsame
  have hmarks := marks_api h ha q
  obtain ⟨hqueue, hfresh, hrecorded, howed⟩ :=
    after_api s (ws.queue cfg) now ha (s.queue.beside q)
  obtain ⟨hqueue₁, hfresh₁, _, howed₁⟩ := after_api f.alone (ws.queue cfg) now ha q
  refine Or.inr ⟨.queue a, s.after (ws.queue cfg) now (s.queue.beside q) a, ?_,
    h.withApi ?_ ?_ ?_ ?_ ?_⟩
  · rw [← enabled_api h ha] at henabled
    simp only [freshStep, henabled, if_true, hsame]
  · rw [hqueue, hqueue₁]
    rfl
  · rw [hfresh, hfresh₁, h.fresh]
    rfl
  · rw [hqueue, hqueue₁]
    rfl
  · intro k
    rw [howed, howed₁, hmarks]
    cases f.alone.marks (ws.queue cfg) q a with
    | none => exact h.owed k
    | some m =>
      simp only [Function.update_apply]
      split
      · rfl
      · exact h.owed k
  · intro w
    have howner : (s.after (ws.queue cfg) now (s.queue.beside q) a).owed (.worker w) =
        s.owed (.worker w) := by
      rw [howed]
      cases hm : s.marks (ws.queue cfg) (s.queue.beside q) a with
      | none => rfl
      | some m =>
        obtain ⟨k, hk⟩ := marks_manual ha hm
        simp only [hk]
        exact Function.update_of_ne (by rintro ⟨⟩) _ _
    simp only [FreshSys.standing, hqueue, hrecorded, howner]
    rfl

theorem api_mirrored (h : Mirrors ws cfg f s) {a : FreshAction} (ha : a.ofApi = true)
    {s₁ : FreshSys} (hstep : freshStep (ws.queue cfg) f.alone (now, a) = some s₁) :
    Mirrored ws cfg now s (f.withApi s₁) := by
  cases a with
  | queue a =>
    simp only [freshStep] at hstep
    split at hstep
    · rename_i henabled
      split at hstep
      · cases hstep
      · rename_i q hq
        cases hstep
        exact action_mirrored h (Option.isNone_iff_eq_none.mp ha) henabled hq
    · cases hstep
  | recordSuccess w processedRows newRows => cases ha
  | recordOutcome o =>
    cases o with
    | worker w => cases ha
    | manual k =>
      have howed : f.alone.owed (.manual k) = s.owed (.manual k) := (h.owed k).symm
      simp only [freshStep, FreshSys.atRecord, if_true, howed] at hstep
      cases hk : s.owed (.manual k) with
      | none =>
        rw [hk] at hstep
        cases hstep
      | some x =>
        rw [hk] at hstep
        cases hstep
        refine Or.inr ⟨.recordOutcome (.manual k),
          { s.records now x with owed := Function.update s.owed (.manual k) none }, ?_,
          h.withApi h.table ?_ h.manual ?_ ?_⟩
        · simp only [freshStep, FreshSys.atRecord, if_true, hk]
        · show recordFreshness now x s.fresh = recordFreshness now x f.fresh
          rw [h.fresh]
        · exact owed_manual h k
        · intro w
          simp [FreshSys.standing, FreshSys.records]
  | unaudited kind res =>
    cases hstep
    refine Or.inr ⟨.unaudited kind res, _, rfl, h.withApi h.table ?_ h.manual ?_ fun _ => rfl⟩
    · show recordFreshness now _ s.fresh = recordFreshness now _ f.fresh
      rw [h.fresh]
    · exact h.owed
  | loseManual k =>
    cases hstep
    refine Or.inr ⟨.loseManual k, _, rfl, h.withApi h.table h.fresh h.manual ?_ ?_⟩
    · exact owed_manual h k
    · intro w
      simp [FreshSys.standing]

end Api

/-! ### Runs -/

section Runs
variable {f f' : Fleet} {s : FreshSys}

/-- **One event** is at most one step of the queue's system, at the same time. -/
theorem fleet_mirrored (h : Mirrors ws cfg f s) {e : Timestamp × FleetEvent}
    (hstep : fleetStep ws cfg sched f e = some f') : Mirrored ws cfg e.1 s f' := by
  obtain ⟨now, e⟩ := e
  cases e with
  | api a =>
    simp only [fleetStep] at hstep
    split at hstep
    · rename_i ha
      obtain ⟨s₁, hs₁, rfl⟩ := Option.map_eq_some_iff.mp hstep
      exact api_mirrored h ha hs₁
    · cases hstep
  | start w reclaimed =>
    have hdown := h.procs w
    simp only [fleetStep] at hstep
    split at hstep
    · rename_i hw
      cases hstep
      rw [hw] at hdown
      refine Or.inl (h.unseen ?_)
      rw [show s.standing w = .free from hdown]
      exact Stands.free (by simp [LoopProcess.started, LoopCall.free])
    · cases hstep
  | poll w turn =>
    have hst := h.procs w
    simp only [fleetStep] at hstep
    split at hstep
    · cases hstep
    · rename_i p hp
      rw [hp] at hst
      split at hstep
      · rename_i hcalls _
        simp only [StandsAt, hcalls] at hst
        obtain ⟨⟨t, job⟩, hclaim⟩ := claimNext_isOk now f.table
        simp only [hclaim] at hstep
        cases hstep
        exact h.onQueue (freshStep_claimNext hst.free_of_nil (by rw [h.table]; exact hclaim))
          (polled_stands p turn job)
      · cases hstep
  | call w =>
    simp only [fleetStep] at hstep
    split at hstep
    · cases hstep
    · rename_i p hp
      split at hstep
      · rename_i c rest hcalls _
        exact call_mirrored h hp hcalls hstep
      · cases hstep
  | enqueue w =>
    have hst := h.procs w
    simp only [fleetStep] at hstep
    split at hstep
    · cases hstep
    · rename_i p hp
      rw [hp] at hst
      split at hstep
      · cases hstep
      · rename_i m ms hmissed
        split at hstep
        · cases hstep
          exact Or.inl (h.unseen hst)
        · rename_i t res hins
          cases hstep
          exact h.onQueue (freshStep_catchup (by rw [h.table]; exact hins) w) hst
  | crash w =>
    cases hstep
    have hmirrored := h.onQueue (p := none) (freshStep_crash s now w) rfl
    rwa [h.table] at hmirrored

/-- At most one step, at the time of the event. -/
def AtOnce (e : Timestamp × FleetEvent) (bs : List (Timestamp × FreshAction)) : Prop :=
  bs = [] ∨ ∃ a, bs = [(e.1, a)]

theorem fleet_simulates (ws : WorkerSettings) (cfg : QueueConfig) (sched : CatchupConfig) :
    Simulates (fleetStep ws cfg sched) (freshStep (ws.queue cfg)) (Mirrors ws cfg) AtOnce := by
  intro f e f' s h hstep
  rcases fleet_mirrored h hstep with hsame | ⟨a, s', hs', hmirrors⟩
  · exact ⟨[], s, Or.inl rfl, rfl, hsame⟩
  · exact ⟨[(e.1, a)], s', Or.inr ⟨a, rfl⟩, exec_cons.mpr ⟨s', hs', rfl⟩, hmirrors⟩

/-- **The loop refines the queue's system.**  Any number of processes in the loop of `run_forever`,
started, stopped and crashed at will, each call of any of them between those of the others and
the API's statements: the tables they leave are those of a run of the system, on the same clock,
and each process is where that system has its worker. -/
theorem fleet_refines {es : List (Timestamp × FleetEvent)}
    (h : exec (fleetStep ws cfg sched) Fleet.init es = some f) :
    ∃ as s, exec (freshStep (ws.queue cfg)) FreshSys.init as = some s ∧
      s.queue.table = f.table ∧ s.fresh = f.fresh ∧ s.queue.manual = f.manual ∧
      (∀ w, StandsAt ws cfg (f.procs w) (s.standing w)) ∧
      (as.map Prod.fst).Sublist (es.map Prod.fst) := by
  obtain ⟨bss, s, hbss, hs, hmirrors⟩ :=
    (fleet_simulates ws cfg sched).exec (Mirrors.init ws cfg) h
  refine ⟨bss.flatten, s, hs, hmirrors.table, hmirrors.fresh, hmirrors.manual, hmirrors.procs, ?_⟩
  refine labels_sublist ?_ hbss
  rintro e bs (rfl | ⟨a, rfl⟩)
  · exact List.nil_sublist _
  · exact List.Sublist.refl _

end Runs

/-- The system has a run that leaves the same tables, with the job back in the queue. -/
theorem fleet_refines_two :
    ∃ f as s, exec (fleetStep defaultSettings scheduleConfig morningOnly) Fleet.init
        twoProcesses = some f ∧
      exec (freshStep (defaultSettings.queue scheduleConfig)) FreshSys.init as = some s ∧
      s.queue.table = f.table ∧ f.table.rows.map JobRow.status = [.pending] := by
  have hends : (exec (fleetStep defaultSettings scheduleConfig morningOnly) Fleet.init
      twoProcesses).any (fun f => f.table.rows.map JobRow.status = [.pending]) = true := by
    decide +kernel
  obtain ⟨f, hf, hends⟩ := (Option.any_eq_true _ _).mp hends
  obtain ⟨as, s, hs, htable, _⟩ := fleet_refines hf
  exact ⟨f, as, s, hf, hs, htable, of_decide_eq_true hends⟩

end Simulation

end FlexQuery
