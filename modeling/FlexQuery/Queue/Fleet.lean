import FlexQuery.Queue.Freshness
import FlexQuery.Worker.Catchup
import FlexQuery.Worker.RunForever

/-!
# Worker processes beside the API

Any number of processes in the loop of `run_forever`, one call at a time, on the tables they share
with the API.  A call of `WorkerDb` commits once; what connections can lose on the way is in
`Worker.Connection` and `Worker.Reconnect`.

* `LoopProcess` — a process between two calls of its loop; `Fleet` — all of them, and the tables.
* `fleetStep` — a poll, a call, an enqueue of a catch-up, a start, a crash, or a step of the API.
* `Life`, `lifeOf` — what a process was answered and what it called since it started.
* `process_runs_loop` — it is what `runLoop` calls on these answers, whatever the others do.
-/

set_option autoImplicit false

namespace FlexQuery

open Transition

/-! ## Processes -/

/-- What a turn is answered, but for the job that its poll claims. -/
structure TurnAnswers where
  reconnects : ℕ := 0
  reclaimed : List ℕ := []
  caught : Except String ℕ := .ok 0
  claimedAt : String := ""
  result : Except String Dict := .ok []

def TurnAnswers.answer (turn : TurnAnswers) : Option Job → Answer
  | none => .idle turn.reclaimed turn.caught
  | some j => .job j turn.claimedAt turn.result

/-- A process in its loop: what it polls with next, what the turn under way was answered, the calls
of it still to be made, and the slots its catch-up has still to enqueue. -/
structure LoopProcess where
  st : LoopState
  answer : Answer
  calls : List LoopCall
  missed : List Missed

/-- Before the loop: the sweep for what was left running, and the first heartbeat. -/
def LoopProcess.started (reclaimed : List ℕ) : LoopProcess where
  st := loopStart reclaimed
  answer := .idle reclaimed (.ok 0)
  calls := [.reclaimStaleRunning, .heartbeat (loopStart reclaimed)]
  missed := []

/-- After a poll. -/
def LoopProcess.polled (ws : WorkerSettings) (p : LoopProcess) (turn : TurnAnswers)
    (job : Option Job) : LoopProcess where
  st := (iteration ws p.st ⟨turn.reconnects, turn.answer job⟩).1
  answer := turn.answer job
  calls := (iteration ws p.st ⟨turn.reconnects, turn.answer job⟩).2.tail
  missed := []

/-- The queue, the freshness rows, the manual runs in flight, those whose outcome is marked and not
yet recorded, and the worker processes that are up. -/
structure Fleet where
  table : JobTable
  fresh : FreshnessTable
  manual : List ℕ
  owed : ℕ → Option FreshnessRecord
  procs : ℕ → Option LoopProcess

namespace Fleet

def init : Fleet := ⟨JobTable.empty, fun _ => none, [], fun _ => none, fun _ => none⟩

def setProc (f : Fleet) (w : ℕ) (p : Option LoopProcess) : Fleet :=
  { f with procs := Function.update f.procs w p }

/-- A statement of process `w`; an exception ends the process. -/
def commits (f : Fleet) (w : ℕ) (p : LoopProcess) : Except DbError JobTable → Fleet
  | .error _ => f.setProc w none
  | .ok t => { f.setProc w (some p) with table := t }

/-- What the API sees of it. -/
def alone (f : Fleet) : FreshSys where
  queue := ⟨f.table, fun _ => .idle, f.manual, [], 0⟩
  fresh := f.fresh
  recorded := fun _ => false
  owed
    | .worker _ => none
    | .manual k => f.owed k
  ended := fun _ => false
  success := fun _ => none

/-- What a step of the API leaves of it. -/
def withApi (f : Fleet) (s : FreshSys) : Fleet :=
  { f with
    table := s.queue.table
    fresh := s.fresh
    manual := s.queue.manual
    owed := fun k => s.owed (.manual k) }

end Fleet

inductive FleetEvent where
  /-- A route, or a step of a manual run. -/
  | api (a : FreshAction)
  | start (w : ℕ) (reclaimed : List ℕ)
  | poll (w : ℕ) (turn : TurnAnswers)
  /-- The next call of the turn under way. -/
  | call (w : ℕ)
  /-- `enqueue_slot` of the next slot that the catch-up found missed. -/
  | enqueue (w : ℕ)
  | crash (w : ℕ)

/-- The actions that are not a worker's. -/
def FreshAction.ofApi : FreshAction → Bool
  | .queue a => a.worker.isNone
  | .recordSuccess _ _ _ => false
  | .recordOutcome (.worker _) => false
  | _ => true

/-- What `dispatch` records of what the handler returned. -/
def successRecord (kind : String) (jobId : ℕ) (result : Dict) : FreshnessRecord where
  dimension := strip kind
  ok := true
  processedRows := match Dict.get result "inserted" with
    | some (.int n) => n
    | _ => 0
  newRows := match Dict.get result "new_rows" with
    | some (.int n) => some n.toNat
    | _ => none
  jobId := some jobId

/-- What `record_ingest_outcome` records. -/
def outcomeRecord (kind error : String) (jobId : ℕ) : FreshnessRecord where
  dimension := strip kind
  ok := false
  error := some error
  jobId := some jobId

section Steps
variable (ws : WorkerSettings) (cfg : QueueConfig) (sched : CatchupConfig)

/-- The queue's configuration, with what the loop was started with. -/
def WorkerSettings.queue : QueueConfig :=
  { cfg with
    policy := ws.policy
    staleAfterSec := ws.staleAfterSec
    requeueDelaySec := ws.requeueSec }

/-- The call `c` of process `w`, which `p` is once it is made; none when the turn was answered
otherwise. -/
def callStep (now : Timestamp) (f : Fleet) (w : ℕ) (p : LoopProcess) : LoopCall → Option Fleet
  -- `claim_next` is the poll the turn begins with
  | .claimNext => none
  | .reclaimStaleRunning =>
    match reclaimStaleRunning ws.staleAfterSec ws.requeueSec now f.table, p.answer with
    | .error _, _ => some (f.setProc w none)
    | .ok (t, ids), .idle reclaimed _ =>
      if ids = reclaimed then some { f.setProc w (some p) with table := t } else none
    | .ok _, .job _ _ _ => none
  | .catchupMissedSlots =>
    match missedSlots { sched with graceSec := ws.graceSec } now (newestJobPerKind f.table)
        SLOT_NAMES with
    | .error _ => some (f.setProc w (some p))
    | .ok ms => some (f.setProc w (some { p with missed := ms }))
  | .dispatch kind _ k =>
    match p.answer with
    | .job _ _ (.ok result) =>
      some { f.setProc w (some p) with
        fresh := recordFreshness now (successRecord kind k result) f.fresh }
    | _ => some (f.setProc w (some p))
  | .markDone k result => some (f.commits w p (markDone now k result f.table))
  | .markRetry k error category delay =>
    some (f.commits w p (markRetry now k error category delay f.table))
  | .markFailed k error category =>
    some (f.commits w p (markFailed now k error (some category) f.table))
  | .deferPending delay k =>
    some (f.commits w p ((deferPending now delay (some k) f.table).map Prod.fst))
  | .recordIngestOutcome kind error k =>
    some { f.setProc w (some p) with
      fresh := recordFreshness now (outcomeRecord kind error k) f.fresh }
  | .heartbeat _ => some (f.setProc w (some p))

def fleetStep (f : Fleet) : Timestamp × FleetEvent → Option Fleet
  | (now, .api a) =>
    if a.ofApi then (freshStep (ws.queue cfg) f.alone (now, a)).map f.withApi else none
  | (_, .start w reclaimed) =>
    match f.procs w with
    | none => some (f.setProc w (some (.started reclaimed)))
    | some _ => none
  | (now, .poll w turn) =>
    match f.procs w with
    | none => none
    | some p =>
      match p.calls, p.missed with
      | [], [] =>
        match claimNext now f.table with
        | .error _ => some (f.setProc w none)
        | .ok (t, job) => some { f.setProc w (some (p.polled ws turn job)) with table := t }
      | _, _ => none
  | (now, .call w) =>
    match f.procs w with
    | none => none
    | some p =>
      match p.calls, p.missed with
      | c :: rest, [] => callStep ws sched now f w { p with calls := rest } c
      | _, _ => none
  | (now, .enqueue w) =>
    match f.procs w with
    | none => none
    | some p =>
      match p.missed with
      | [] => none
      | m :: ms =>
        match enqueueSlot cfg.payloadHash cfg.slots now m.slot (catchupPayload m.asOf) f.table with
        | .error _ => some (f.setProc w (some { p with missed := [] }))
        | .ok (t, _) => some { f.setProc w (some { p with missed := ms }) with table := t }
  | (_, .crash w) => some (f.setProc w none)

end Steps

/-! ## What a process does -/

/-- What a process has done since it started: the rows it reclaimed first, what its turns were
answered, and what it called. -/
structure Life where
  reclaimed : List ℕ
  polls : List Poll
  made : List LoopCall

/-- What process `w` does in an event of the fleet `f`. -/
def Life.after (f : Fleet) (w : ℕ) (life : Life) : Timestamp × FleetEvent → Life
  | (_, .start v reclaimed) => if v = w then ⟨reclaimed, [], []⟩ else life
  | (now, .poll v turn) =>
    if v = w then
      match claimNext now f.table with
      | .error _ => life
      | .ok (_, job) => { life with
        polls := life.polls ++ [⟨turn.reconnects, turn.answer job⟩]
        made := life.made ++ [.claimNext] }
    else life
  | (_, .call v) =>
    if v = w then
      { life with made := life.made ++ ((f.procs w).bind fun p => p.calls.head?).toList }
    else life
  | _ => life

/-- What process `w` has done after the events. -/
def lifeOf (ws : WorkerSettings) (cfg : QueueConfig) (sched : CatchupConfig) (w : ℕ) :
    Fleet → Life → List (Timestamp × FleetEvent) → Life
  | _, life, [] => life
  | f, life, e :: es =>
    match fleetStep ws cfg sched f e with
    | none => life
    | some f' => lifeOf ws cfg sched w f' (life.after f w e) es

/-- Everything a process calls on these answers. -/
def loopCalls (ws : WorkerSettings) (reclaimed : List ℕ) (polls : List Poll) : List LoopCall :=
  (LoopProcess.started reclaimed).calls ++ (runLoop ws (loopStart reclaimed) polls).2

/-- The process has done what the loop does alone. -/
structure LoopProcess.Lived (ws : WorkerSettings) (p : LoopProcess) (life : Life) : Prop where
  st : p.st = (runLoop ws (loopStart life.reclaimed) life.polls).1
  calls : life.made ++ p.calls = loopCalls ws life.reclaimed life.polls

section Lives
variable {ws : WorkerSettings} {cfg : QueueConfig} {sched : CatchupConfig} {f f' : Fleet} {w : ℕ}

theorem runLoop_concat (ws : WorkerSettings) (st : LoopState) (ps : List Poll) (p : Poll) :
    (runLoop ws st (ps ++ [p])).1 = (iteration ws (runLoop ws st ps).1 p).1 ∧
      (runLoop ws st (ps ++ [p])).2 =
        (runLoop ws st ps).2 ++ (iteration ws (runLoop ws st ps).1 p).2 := by
  induction ps generalizing st with
  | nil => simp [runLoop]
  | cons q ps ih =>
    obtain ⟨hst, hcalls⟩ := ih (iteration ws st q).1
    simp only [List.cons_append, runLoop, hst, hcalls, List.append_assoc, and_self]

/-- A turn begins with its poll. -/
theorem iteration_claimNext (ws : WorkerSettings) (st : LoopState) (p : Poll) :
    .claimNext :: (iteration ws st p).2.tail = (iteration ws st p).2 := by
  obtain ⟨reconnects, answer⟩ := p
  cases answer with
  | idle reclaimed caught =>
    simp only [iteration]
    split <;> rfl
  | job j claimedAt result => rfl

/-- What a call leaves of the process that made it. -/
structure LoopProcess.Continues (p q : LoopProcess) : Prop where
  st : q.st = p.st
  calls : q.calls = p.calls
  missed : ∀ m ∈ q.missed, m ∈ p.missed ∨ m.slot ∈ SLOT_NAMES

theorem LoopProcess.Continues.self {p : LoopProcess} : ∀ q, some p = some q → p.Continues q := by
  rintro q ⟨⟩
  exact ⟨rfl, rfl, fun m hm => Or.inl hm⟩

/-- A statement leaves its process up, or ends it. -/
theorem commits_procs (f : Fleet) (w : ℕ) (p : LoopProcess) (res : Except DbError JobTable) :
    ∃ p', (f.commits w p res).procs = Function.update f.procs w p' ∧
      ∀ q, p' = some q → p.Continues q := by
  cases res with
  | error e => exact ⟨none, rfl, by rintro q ⟨⟩⟩
  | ok t => exact ⟨some p, rfl, .self⟩

/-- So does every call. -/
theorem callStep_procs {now : Timestamp} {p : LoopProcess} {c : LoopCall}
    (h : callStep ws sched now f w p c = some f') :
    ∃ p', f'.procs = Function.update f.procs w p' ∧
      ∀ q, p' = some q → p.Continues q := by
  cases c with
  | claimNext => cases h
  | reclaimStaleRunning =>
    simp only [callStep] at h
    split at h
    · cases h
      exact ⟨none, rfl, by rintro q ⟨⟩⟩
    · split at h
      · cases h
        exact ⟨some p, rfl, .self⟩
      · cases h
    · cases h
  | catchupMissedSlots =>
    simp only [callStep] at h
    split at h
    · cases h
      exact ⟨some p, rfl, .self⟩
    · rename_i ms hms
      cases h
      refine ⟨_, rfl, ?_⟩
      rintro q ⟨⟩
      refine ⟨rfl, rfl, fun m hm => Or.inr ?_⟩
      exact (missedSlots_ok hms).1.subset (List.mem_map_of_mem hm)
  | dispatch kind payload k =>
    simp only [callStep] at h
    split at h
    · cases h
      exact ⟨some p, rfl, .self⟩
    · cases h
      exact ⟨some p, rfl, .self⟩
  | markDone k result =>
    cases h
    exact commits_procs f w p _
  | markRetry k error category delay =>
    cases h
    exact commits_procs f w p _
  | markFailed k error category =>
    cases h
    exact commits_procs f w p _
  | deferPending delay k =>
    cases h
    exact commits_procs f w p _
  | recordIngestOutcome kind error k =>
    cases h
    exact ⟨some p, rfl, .self⟩
  | heartbeat st =>
    cases h
    exact ⟨some p, rfl, .self⟩

/-- **One event** of the fleet: what process `w` has done since it started. -/
theorem lived_step {life : Life} (h : ∀ p, f.procs w = some p → p.Lived ws life)
    {e : Timestamp × FleetEvent} (hstep : fleetStep ws cfg sched f e = some f') :
    ∀ p, f'.procs w = some p → p.Lived ws (life.after f w e) := by
  obtain ⟨now, e⟩ := e
  have hother : ∀ {v : ℕ} {q : Option LoopProcess}, ¬ v = w →
      f'.procs = Function.update f.procs v q → ∀ p, f'.procs w = some p → p.Lived ws life := by
    intro v q hv hprocs p hp
    rw [hprocs, Function.update_of_ne (Ne.symm hv)] at hp
    exact h p hp
  cases e with
  | api a =>
    simp only [fleetStep] at hstep
    split at hstep
    · obtain ⟨s, _, rfl⟩ := Option.map_eq_some_iff.mp hstep
      exact h
    · cases hstep
  | start v reclaimed =>
    simp only [fleetStep] at hstep
    split at hstep
    · cases hstep
      by_cases hv : v = w
      · subst hv
        intro p hp
        simp only [Fleet.setProc, Function.update_self, Option.some.injEq] at hp
        subst hp
        simp only [Life.after, if_true]
        exact ⟨rfl, by simp [loopCalls, runLoop]⟩
      · simp only [Life.after, if_neg hv]
        exact hother hv rfl
    · cases hstep
  | poll v turn =>
    simp only [fleetStep] at hstep
    split at hstep
    · cases hstep
    · rename_i p₀ hp₀
      split at hstep
      · rename_i hcalls _
        obtain ⟨⟨t, job⟩, hclaim⟩ := claimNext_isOk now f.table
        simp only [hclaim] at hstep
        cases hstep
        by_cases hv : v = w
        · subst hv
          obtain ⟨hst, hmade⟩ := h p₀ hp₀
          intro p hp
          simp only [Fleet.setProc, Function.update_self, Option.some.injEq] at hp
          subst hp
          simp only [Life.after, if_true, hclaim]
          obtain ⟨hst', hcalls'⟩ := runLoop_concat ws (loopStart life.reclaimed) life.polls
            ⟨turn.reconnects, turn.answer job⟩
          rw [hcalls, List.append_nil] at hmade
          refine ⟨?_, ?_⟩
          · rw [hst', ← hst]
            rfl
          · simp only [loopCalls, hcalls', ← hst]
            rw [← iteration_claimNext, ← List.append_assoc, ← loopCalls, ← hmade]
            simp [LoopProcess.polled]
        · simp only [Life.after, if_neg hv]
          exact hother hv rfl
      · cases hstep
  | call v =>
    simp only [fleetStep] at hstep
    split at hstep
    · cases hstep
    · rename_i p₀ hp₀
      split at hstep
      · rename_i c rest hcalls _
        obtain ⟨p', hprocs, hp'⟩ := callStep_procs hstep
        by_cases hv : v = w
        · subst hv
          obtain ⟨hst, hmade⟩ := h p₀ hp₀
          intro p hp
          rw [hprocs, Function.update_self] at hp
          obtain ⟨hpst, hpcalls, _⟩ := hp' p hp
          simp only [Life.after, if_true, hp₀, Option.bind_some, hcalls, List.head?_cons,
            Option.toList_some]
          refine ⟨hpst.trans hst, ?_⟩
          rw [hpcalls, List.append_assoc, List.singleton_append, ← hcalls]
          exact hmade
        · simp only [Life.after, if_neg hv]
          exact hother hv hprocs
      · cases hstep
  | enqueue v =>
    simp only [fleetStep] at hstep
    split at hstep
    · cases hstep
    · rename_i p₀ hp₀
      have hmine : ∀ (ms : List Missed) (g : Fleet),
          g.procs = Function.update f.procs v (some { p₀ with missed := ms }) →
          ∀ p, g.procs w = some p → p.Lived ws life := by
        intro ms g hg p hp
        rw [hg] at hp
        by_cases hv : v = w
        · subst hv
          rw [Function.update_self] at hp
          cases hp
          exact ⟨(h p₀ hp₀).st, (h p₀ hp₀).calls⟩
        · rw [Function.update_of_ne (Ne.symm hv)] at hp
          exact h p hp
      split at hstep
      · cases hstep
      · split at hstep
        · cases hstep
          exact hmine _ _ rfl
        · cases hstep
          exact hmine _ _ rfl
  | crash v =>
    cases hstep
    by_cases hv : v = w
    · subst hv
      intro p hp
      simp [Fleet.setProc] at hp
    · exact hother hv rfl

theorem lived_run {life : Life} (h : ∀ p, f.procs w = some p → p.Lived ws life)
    {es : List (Timestamp × FleetEvent)} (hrun : exec (fleetStep ws cfg sched) f es = some f') :
    ∀ p, f'.procs w = some p → p.Lived ws (lifeOf ws cfg sched w f life es) := by
  induction es generalizing f life with
  | nil =>
    cases hrun
    exact h
  | cons e es ih =>
    obtain ⟨g, hg, hrest⟩ := exec_cons.mp hrun
    simp only [lifeOf, hg]
    exact ih (lived_step h hg) hrest

/-- **Each process runs the loop**, whatever the others and the API do between its calls: what it
has called since it started is what the loop calls alone on the same answers, up to the turn under
way.  Between two turns it has swept once at its start and then as its empty polls ask, and the
heartbeat it sent last counts its jobs as they ended. -/
theorem process_runs_loop {es : List (Timestamp × FleetEvent)}
    (hrun : exec (fleetStep ws cfg sched) Fleet.init es = some f) {p : LoopProcess}
    (hp : f.procs w = some p) :
    let life := lifeOf ws cfg sched w Fleet.init ⟨[], [], []⟩ es
    let beat := lastBeat {} life.made
    life.made <+: loopCalls ws life.reclaimed life.polls ∧
      (p.calls = [] →
        sweeps life.made =
          1 + Streak.firings ws.reclaimEvery.toNat 0 (life.polls.map Poll.empty) ∧
        beat.jobsDone = life.polls.countP Poll.succeeded ∧
        beat.jobsRetried = life.polls.countP (Poll.raised ws .pending) ∧
        beat.jobsFailed = life.polls.countP (Poll.raised ws .failed)) := by
  intro life beat
  have hlived : p.Lived ws life := lived_run (by rintro p ⟨⟩) hrun p hp
  refine ⟨⟨p.calls, hlived.calls⟩, fun hnone => ?_⟩
  have hmade : life.made = loopCalls ws life.reclaimed life.polls := by
    rw [← hlived.calls, hnone, List.append_nil]
  obtain ⟨hcounted, hbeats⟩ := runLoop_counted ws (loopStart life.reclaimed) life.polls
  have hbeat : beat.shown = (runLoop ws (loopStart life.reclaimed) life.polls).1.shown := by
    show (lastBeat {} life.made).shown = _
    rw [hmade, loopCalls, lastBeat_append]
    exact hbeats _ rfl
  have hsweeps : sweeps life.made =
      1 + sweeps (runLoop ws (loopStart life.reclaimed) life.polls).2 := by
    rw [hmade, loopCalls, sweeps, List.countP_append]
    rfl
  refine ⟨?_, ?_, ?_, ?_⟩
  · rw [hsweeps, sweeps_runLoop]
    rfl
  · rw [show beat.jobsDone = beat.shown.jobsDone from rfl, hbeat]
    exact hcounted.done.trans (Nat.zero_add _)
  · rw [show beat.jobsRetried = beat.shown.jobsRetried from rfl, hbeat]
    exact hcounted.retried.trans (Nat.zero_add _)
  · rw [show beat.jobsFailed = beat.shown.jobsFailed from rfl, hbeat]
    exact hcounted.failed.trans (Nat.zero_add _)

end Lives

/-- The settings of a worker that is given none. -/
def defaultSettings : WorkerSettings where
  staleAfterSec := DEFAULT_STALE_RUNNING_SEC
  requeueSec := DEFAULT_RECLAIM_REQUEUE_SEC
  policy := {}
  reclaimEvery := 12
  graceSec := DEFAULT_CATCHUP_GRACE_SEC
  catchupEnabled := true

/-- Two processes and one job: the first claims it and is throttled, while the second finds none. -/
def twoProcesses : List (Timestamp × FleetEvent) :=
  [(0, .start 0 []), (0, .call 0), (0, .call 0),
    (seconds 1, .api (.queue (.enqueueSlot "flex-trades" [("as_of", .str "2026-09-04")]))),
    (seconds 2, .start 1 []), (seconds 2, .call 1), (seconds 2, .call 1),
    (seconds 5, .poll 0 { result := .error "[1018] Too many requests" }),
    (seconds 7, .poll 1 {}), (seconds 8, .call 0), (seconds 8, .call 0), (seconds 8, .call 0),
    (seconds 9, .call 0), (seconds 9, .call 0)]

theorem process_runs_loop_two :
    ∃ f p, exec (fleetStep defaultSettings scheduleConfig morningOnly) Fleet.init twoProcesses =
        some f ∧ f.procs 0 = some p ∧
      let life := lifeOf defaultSettings scheduleConfig morningOnly 0 Fleet.init ⟨[], [], []⟩
        twoProcesses
      sweeps life.made = 1 ∧ (lastBeat {} life.made).jobsRetried = 1 := by
  have hends : (exec (fleetStep defaultSettings scheduleConfig morningOnly) Fleet.init
      twoProcesses).any (fun f => (f.procs 0).any fun p => p.calls.isEmpty) = true := by
    decide +kernel
  obtain ⟨f, hf, hends⟩ := (Option.any_eq_true _ _).mp hends
  obtain ⟨p, hp, hcalls⟩ := (Option.any_eq_true _ _).mp hends
  obtain ⟨_, hall⟩ := process_runs_loop hf hp
  obtain ⟨hsweeps, _, hretried, _⟩ := hall (List.isEmpty_iff.mp hcalls)
  refine ⟨f, p, hf, hp, hsweeps.trans ?_, hretried.trans ?_⟩
  · decide +kernel
  · decide +kernel

end FlexQuery
