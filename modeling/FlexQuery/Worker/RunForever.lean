import FlexQuery.Library.Streak
import FlexQuery.Worker.Settings

/-!
# The worker's loop

`run_forever` of `worker/loop.py`, from what each of its calls is answered.

* `LoopState` — `state` and `idle_ticks`; `LoopCall` — what the loop does to the database.
* `iteration` — one turn of the loop: a poll, and the sweep or the job that follows.
* `runLoop` — any number of turns.
* `sweeps_eq` — when the loop sweeps: once for every `reclaim_every` empty polls in a row, so a
  worker that keeps finding jobs never does.
* `runLoop_counted`, `heartbeat_shows` — the counters, and the heartbeat that shows them.
-/

set_option autoImplicit false

namespace FlexQuery

/-- `state`, with `idle_ticks`. -/
structure LoopState where
  jobsDone : ℕ := 0
  jobsFailed : ℕ := 0
  jobsRetried : ℕ := 0
  catchups : ℕ := 0
  lastKind : Option String := none
  lastClaimAt : String := ""
  lastError : String := ""
  lastErrorCategory : String := ""
  staleReclaimed : ℕ := 0
  dbReconnects : ℕ := 0
  idleTicks : ℕ := 0

/-- What the loop calls, in order. -/
inductive LoopCall where
  | claimNext
  | reclaimStaleRunning
  | catchupMissedSlots
  | dispatch (kind : String) (payload : Dict) (jobId : ℕ)
  | markDone (jobId : ℕ) (result : Dict)
  | markRetry (jobId : ℕ) (error category : String) (delaySec : ℤ)
  | deferPending (delaySec : ℤ) (excludeId : ℕ)
  | markFailed (jobId : ℕ) (error category : String)
  | recordIngestOutcome (kind error : String) (jobId : ℕ)
  | heartbeat (st : LoopState)

/-- What a poll comes to. -/
inductive Answer where
  /-- No job; what a sweep is answered, if this poll is followed by one. -/
  | idle (reclaimed : List ℕ) (caught : Except String ℕ)
  /-- A job, and how `dispatch` ends: its result or its exception's text. -/
  | job (j : Job) (claimedAt : String) (result : Except String Dict)

/-- One turn's answers; `reconnects` is the connection's count after the poll. -/
structure Poll where
  reconnects : ℕ
  answer : Answer

/-- The poll found no job. -/
def Poll.empty (p : Poll) : Bool :=
  match p.answer with
  | .idle _ _ => true
  | .job _ _ _ => false

/-- The sweep of an idle worker. -/
def sweep (ws : WorkerSettings) (st : LoopState) (reclaimed : List ℕ) (caught : Except String ℕ) :
    LoopState × List LoopCall :=
  let st := { st with
    idleTicks := 0
    staleReclaimed := st.staleReclaimed + reclaimed.length }
  if ws.catchupEnabled then
    let st := match caught with
      | .ok n => { st with catchups := st.catchups + n }
      | .error _ => st
    (st, [.reclaimStaleRunning, .catchupMissedSlots, .heartbeat st])
  else (st, [.reclaimStaleRunning, .heartbeat st])

/-- `except Exception as exc`, around `dispatch`. -/
def jobRaised (ws : WorkerSettings) (st : LoopState) (j : Job) (msg : String) :
    LoopState × List LoopCall :=
  let plan := planRetry (classifyFlexError msg) j.attempts j.maxAttempts ws.policy
  let st := { st with lastError := slice msg 500, lastErrorCategory := plan.category.value }
  let outcome := LoopCall.recordIngestOutcome j.kind (plan.category.value ++ ": " ++ msg) j.id
  match plan.status with
  | .pending =>
    let st := { st with jobsRetried := st.jobsRetried + 1 }
    let cooldown :=
      if plan.cooldownAllSec = 0 then [] else [LoopCall.deferPending plan.cooldownAllSec j.id]
    (st, .markRetry j.id msg plan.category.value plan.delaySec ::
      (cooldown ++ [outcome, .heartbeat st]))
  | .failed =>
    let st := { st with jobsFailed := st.jobsFailed + 1 }
    (st, [.markFailed j.id msg plan.category.value, outcome, .heartbeat st])

def jobDone (st : LoopState) (j : Job) (result : Dict) : LoopState × List LoopCall :=
  let st := { st with jobsDone := st.jobsDone + 1, lastError := "", lastErrorCategory := "" }
  (st, [.markDone j.id result, .heartbeat st])

/-- One turn of the loop. -/
def iteration (ws : WorkerSettings) (st : LoopState) (p : Poll) : LoopState × List LoopCall :=
  let st := { st with dbReconnects := p.reconnects }
  match p.answer with
  | .idle reclaimed caught =>
    if ws.reclaimEvery ≤ st.idleTicks + 1 then
      let swept := sweep ws st reclaimed caught
      (swept.1, .claimNext :: swept.2)
    else ({ st with idleTicks := st.idleTicks + 1 }, [.claimNext])
  | .job j claimedAt result =>
    let st := { st with idleTicks := 0, lastClaimAt := claimedAt, lastKind := some j.kind }
    let ended := match result with
      | .error msg => jobRaised ws st j msg
      | .ok dict => jobDone st j dict
    (ended.1, .claimNext :: .dispatch j.kind j.payload j.id :: ended.2)

/-- Any number of turns. -/
def runLoop (ws : WorkerSettings) : LoopState → List Poll → LoopState × List LoopCall
  | st, [] => (st, [])
  | st, p :: ps =>
    let (st', calls) := iteration ws st p
    let (st'', more) := runLoop ws st' ps
    (st'', calls ++ more)

/-- The state the loop starts in, once the rows left behind are reclaimed. -/
def loopStart (reclaimed : List ℕ) : LoopState := { staleReclaimed := reclaimed.length }

/-! ## Sweeps -/

def LoopCall.isReclaim : LoopCall → Bool
  | .reclaimStaleRunning => true
  | _ => false

/-- How often the calls sweep. -/
def sweeps (calls : List LoopCall) : ℕ := calls.countP LoopCall.isReclaim

theorem sweeps_sweep (ws : WorkerSettings) (st : LoopState) (reclaimed : List ℕ)
    (caught : Except String ℕ) :
    sweeps (sweep ws st reclaimed caught).2 = 1 ∧ (sweep ws st reclaimed caught).1.idleTicks = 0 := by
  unfold sweep
  split
  · cases caught with
    | ok n => exact ⟨rfl, rfl⟩
    | error e => exact ⟨rfl, rfl⟩
  · exact ⟨rfl, rfl⟩

theorem sweeps_jobRaised (ws : WorkerSettings) (st : LoopState) (j : Job) (msg : String) :
    sweeps (jobRaised ws st j msg).2 = 0 ∧ (jobRaised ws st j msg).1.idleTicks = st.idleTicks := by
  unfold jobRaised
  simp only
  split
  · split
    · exact ⟨rfl, rfl⟩
    · exact ⟨rfl, rfl⟩
  · exact ⟨rfl, rfl⟩

/-- **One turn** moves `idle_ticks` as the counter does, and sweeps when it fires. -/
theorem iteration_tick {ws : WorkerSettings} (st : LoopState) (p : Poll) :
    (iteration ws st p).1.idleTicks =
        (Streak.tick ws.reclaimEvery.toNat st.idleTicks p.empty).1 ∧
      sweeps (iteration ws st p).2 =
        if (Streak.tick ws.reclaimEvery.toNat st.idleTicks p.empty).2 then 1 else 0 := by
  obtain ⟨reconnects, answer⟩ := p
  cases answer with
  | idle reclaimed caught =>
    have hiff : ws.reclaimEvery ≤ (st.idleTicks : ℤ) + 1 ↔
        ws.reclaimEvery.toNat ≤ st.idleTicks + 1 := by
      omega
    by_cases hfire : ws.reclaimEvery ≤ (st.idleTicks : ℤ) + 1
    · obtain ⟨hcount, hzero⟩ :=
        sweeps_sweep ws { st with dbReconnects := reconnects } reclaimed caught
      simp only [iteration, Poll.empty, Streak.tick, hfire, hiff.mp hfire, if_true]
      exact ⟨hzero, by rw [← hcount]; rfl⟩
    · have hquiet := mt hiff.mpr hfire
      simp only [iteration, Poll.empty, Streak.tick, hfire, hquiet, if_false]
      exact ⟨trivial, rfl⟩
  | job j claimedAt result =>
    cases result with
    | ok dict => exact ⟨rfl, rfl⟩
    | error msg =>
      obtain ⟨hcount, hzero⟩ := sweeps_jobRaised ws { st with
        dbReconnects := reconnects, idleTicks := 0, lastClaimAt := claimedAt
        lastKind := some j.kind } j msg
      exact ⟨hzero, hcount⟩

theorem sweeps_runLoop {ws : WorkerSettings} (st : LoopState) (ps : List Poll) :
    sweeps (runLoop ws st ps).2 =
      Streak.firings ws.reclaimEvery.toNat st.idleTicks (ps.map Poll.empty) := by
  induction ps generalizing st with
  | nil => rfl
  | cons p ps ih =>
    obtain ⟨hticks, hcount⟩ := @iteration_tick ws st p
    have hrest := ih (iteration ws st p).1
    unfold sweeps at hcount hrest ⊢
    simp only [runLoop, List.countP_append, hcount, hrest, hticks, List.map_cons, Streak.firings]

/-- What of the state the loop counts between heartbeats: `db_reconnects` changes at every poll. -/
def LoopState.shown (st : LoopState) : LoopState :=
  { st with lastKind := none, lastClaimAt := "", dbReconnects := 0, idleTicks := 0 }

/-- The state of the last heartbeat, `init` having been written before. -/
def lastBeat (init : LoopState) : List LoopCall → LoopState
  | [] => init
  | .heartbeat st :: calls => lastBeat st calls
  | _ :: calls => lastBeat init calls

theorem lastBeat_append (init : LoopState) (calls more : List LoopCall) :
    lastBeat init (calls ++ more) = lastBeat (lastBeat init calls) more := by
  induction calls generalizing init with
  | nil => rfl
  | cons c calls ih => cases c <;> exact ih _

/-- The plan for a job's exception. -/
def Poll.plan (ws : WorkerSettings) (p : Poll) : Option RetryPlan :=
  match p.answer with
  | .job j _ (.error msg) =>
    some (planRetry (classifyFlexError msg) j.attempts j.maxAttempts ws.policy)
  | _ => none

/-- The job of this turn succeeded. -/
def Poll.succeeded (p : Poll) : Bool :=
  match p.answer with
  | .job _ _ (.ok _) => true
  | _ => false

/-- The job of this turn raised, and is tried again, or is not. -/
def Poll.raised (ws : WorkerSettings) (status : PlanStatus) (p : Poll) : Bool :=
  (p.plan ws).any (·.status = status)

/-- The counters of `st`, and those after the turns `ps`. -/
structure JobsCounted (ws : WorkerSettings) (ps : List Poll) (st st' : LoopState) : Prop where
  done : st'.jobsDone = st.jobsDone + ps.countP Poll.succeeded
  retried : st'.jobsRetried = st.jobsRetried + ps.countP (Poll.raised ws .pending)
  failed : st'.jobsFailed = st.jobsFailed + ps.countP (Poll.raised ws .failed)

theorem jobRaised_counted (ws : WorkerSettings) (st : LoopState) (j : Job) (msg : String) :
    let plan := planRetry (classifyFlexError msg) j.attempts j.maxAttempts ws.policy
    let st' := (jobRaised ws st j msg).1
    st'.jobsDone = st.jobsDone ∧
      st'.jobsRetried = st.jobsRetried + (if plan.status = .pending then 1 else 0) ∧
      st'.jobsFailed = st.jobsFailed + (if plan.status = .failed then 1 else 0) ∧
      ∀ init, lastBeat init (jobRaised ws st j msg).2 = st' := by
  unfold jobRaised
  simp only
  split
  · rename_i hst
    rw [hst]
    refine ⟨rfl, rfl, rfl, fun init => ?_⟩
    split
    · rfl
    · rfl
  · rename_i hst
    rw [hst]
    exact ⟨rfl, rfl, rfl, fun init => rfl⟩

theorem sweep_counted (ws : WorkerSettings) (st : LoopState) (reclaimed : List ℕ)
    (caught : Except String ℕ) :
    let st' := (sweep ws st reclaimed caught).1
    st'.jobsDone = st.jobsDone ∧ st'.jobsRetried = st.jobsRetried ∧
      st'.jobsFailed = st.jobsFailed ∧
      ∀ init, lastBeat init (sweep ws st reclaimed caught).2 = st' := by
  unfold sweep
  split
  · cases caught with
    | ok n => exact ⟨rfl, rfl, rfl, fun init => rfl⟩
    | error e => exact ⟨rfl, rfl, rfl, fun init => rfl⟩
  · exact ⟨rfl, rfl, rfl, fun init => rfl⟩

/-- **One turn** counts its job, and shows whatever it counted. -/
theorem iteration_counted (ws : WorkerSettings) (st : LoopState) (p : Poll) :
    JobsCounted ws [p] st (iteration ws st p).1 ∧
      ∀ init : LoopState, init.shown = st.shown →
        (lastBeat init (iteration ws st p).2).shown = (iteration ws st p).1.shown := by
  obtain ⟨reconnects, answer⟩ := p
  cases answer with
  | idle reclaimed caught =>
    obtain ⟨hdone, hretried, hfailed, hbeat⟩ :=
      sweep_counted ws { st with dbReconnects := reconnects } reclaimed caught
    unfold iteration
    simp only
    split
    · exact ⟨⟨hdone, hretried, hfailed⟩, fun init _ => congrArg LoopState.shown (hbeat init)⟩
    · exact ⟨⟨rfl, rfl, rfl⟩, fun init h => h⟩
  | job j claimedAt result =>
    cases result with
    | ok dict => exact ⟨⟨rfl, rfl, rfl⟩, fun init _ => rfl⟩
    | error msg =>
      obtain ⟨hdone, hretried, hfailed, hbeat⟩ := jobRaised_counted ws { st with
        dbReconnects := reconnects, idleTicks := 0, lastClaimAt := claimedAt
        lastKind := some j.kind } j msg
      refine ⟨⟨hdone, ?_, ?_⟩, fun init _ => congrArg LoopState.shown (hbeat init)⟩
      · refine hretried.trans ?_
        simp [List.countP_cons, Poll.raised, Poll.plan]
      · refine hfailed.trans ?_
        simp [List.countP_cons, Poll.raised, Poll.plan]

theorem runLoop_counted (ws : WorkerSettings) (st : LoopState) (ps : List Poll) :
    JobsCounted ws ps st (runLoop ws st ps).1 ∧
      ∀ init : LoopState, init.shown = st.shown →
        (lastBeat init (runLoop ws st ps).2).shown = (runLoop ws st ps).1.shown := by
  induction ps generalizing st with
  | nil => exact ⟨⟨rfl, rfl, rfl⟩, fun init h => h⟩
  | cons p ps ih =>
    obtain ⟨hfirst, hbeat⟩ := iteration_counted ws st p
    obtain ⟨hrest, hbeats⟩ := ih (iteration ws st p).1
    refine ⟨⟨?_, ?_, ?_⟩, ?_⟩
    · refine hrest.done.trans ?_
      rw [hfirst.done, List.countP_cons, List.countP_cons, List.countP_nil]
      omega
    · refine hrest.retried.trans ?_
      rw [hfirst.retried, List.countP_cons, List.countP_cons, List.countP_nil]
      omega
    · refine hrest.failed.trans ?_
      rw [hfirst.failed, List.countP_cons, List.countP_cons, List.countP_nil]
      omega
    · intro init hinit
      simp only [runLoop, lastBeat_append]
      exact hbeats _ (hbeat init hinit)

/-- A turn finds nothing, or its job succeeds, or is tried again, or is not. -/
theorem countP_jobs (ws : WorkerSettings) (ps : List Poll) :
    ps.countP Poll.succeeded + ps.countP (Poll.raised ws .pending) +
      ps.countP (Poll.raised ws .failed) = ps.countP (fun p => !p.empty) := by
  induction ps with
  | nil => rfl
  | cons p ps ih =>
    have hone : (if p.succeeded then 1 else 0) + (if p.raised ws .pending then 1 else 0) +
        (if p.raised ws .failed then 1 else 0) = if !p.empty then 1 else 0 := by
      obtain ⟨reconnects, answer⟩ := p
      cases answer with
      | idle reclaimed caught => rfl
      | job j claimedAt result =>
        cases result with
        | ok dict => rfl
        | error msg =>
          have hone : ∀ status : PlanStatus, (if status = .pending then 1 else 0) +
              (if status = .failed then 1 else 0) = 1 := by
            intro status
            cases status <;> rfl
          simpa [Poll.raised, Poll.plan, Poll.succeeded, Poll.empty] using hone _
    simp only [List.countP_cons]
    omega

/-- **The heartbeat is never behind.**  Whenever the loop polls, the heartbeat it sent last shows
its counters as they are: the jobs that succeeded, the jobs sent back and the jobs given up,
together every job it ever claimed. -/
theorem heartbeat_shows (ws : WorkerSettings) (reclaimed : List ℕ) (ps : List Poll) :
    let out := runLoop ws (loopStart reclaimed) ps
    let beat := lastBeat (loopStart reclaimed) out.2
    beat.shown = out.1.shown ∧
      beat.jobsDone = ps.countP Poll.succeeded ∧
      beat.jobsRetried = ps.countP (Poll.raised ws .pending) ∧
      beat.jobsFailed = ps.countP (Poll.raised ws .failed) ∧
      beat.jobsDone + beat.jobsRetried + beat.jobsFailed = ps.countP (fun p => !p.empty) := by
  intro out beat
  obtain ⟨hcounted, hbeat⟩ := runLoop_counted ws (loopStart reclaimed) ps
  have hshown : beat.shown = out.1.shown := hbeat _ rfl
  have hdone : beat.jobsDone = ps.countP Poll.succeeded := by
    rw [show beat.jobsDone = beat.shown.jobsDone from rfl, hshown]
    exact hcounted.done.trans (Nat.zero_add _)
  have hretried : beat.jobsRetried = ps.countP (Poll.raised ws .pending) := by
    rw [show beat.jobsRetried = beat.shown.jobsRetried from rfl, hshown]
    exact hcounted.retried.trans (Nat.zero_add _)
  have hfailed : beat.jobsFailed = ps.countP (Poll.raised ws .failed) := by
    rw [show beat.jobsFailed = beat.shown.jobsFailed from rfl, hshown]
    exact hcounted.failed.trans (Nat.zero_add _)
  refine ⟨hshown, hdone, hretried, hfailed, ?_⟩
  rw [hdone, hretried, hfailed, countP_jobs]

end FlexQuery
