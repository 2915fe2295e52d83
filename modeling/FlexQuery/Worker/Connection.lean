import FlexQuery.Worker.Loop

/-!
# A connection that several calls share

Every call of the worker goes over the one connection of its `WorkerDb`, and only a lost
connection is opened again.

* `WorkerCall` — the calls of the loop; `WorkerCall.bare` — their statements that nothing rolls
  back when they are rejected.
* `WorkerCall.settles` — a call leaves a transaction on the connection only through one of these.
* `Healthy` — every later call does what it would on a fresh connection.
* `calls_healthy_iff` — every state of a run is healthy exactly when no round of a call has a bare
  statement rejected with an error that `call` does not catch.
-/

set_option autoImplicit false

namespace FlexQuery

open Session Transition

/-! ## The calls -/

/-- What `run_forever` passes to `WorkerDb.call`. -/
inductive WorkerCall where
  | ensureFlexOpsSchema
  | reclaimStaleRunning (staleAfterSec requeueDelaySec : ℤ)
  | claimNext
  | catchupMissedSlots
  | recordHeartbeat (state : Conn.WorkerState) (pod version : String) (startedAt : Timestamp)
  | markDone (jobId : ℕ) (result : Dict)
  | markRetry (jobId : ℕ) (error category : String) (delaySec : ℤ)
  | markFailed (jobId : ℕ) (error : String) (category : Option String)
  | deferPending (delaySec : ℤ) (excludeId : Option ℕ)

/-- What a call returns. -/
inductive Reply where
  | unit
  | ids (ids : List ℕ)
  | job (job : Option Job)
  | caughtUp (done : List (Missed × ℕ))

section Calls
variable {κ : Type} (pg : Postgres κ) (cfg : QueueConfig) (sched : CatchupConfig)

def WorkerCall.fn (c : WorkerCall) (r : Round) : OnConn κ Reply :=
  match c with
  | .ensureFlexOpsSchema => do
    Conn.ensureFlexOpsSchema pg
    pure .unit
  | .reclaimStaleRunning staleAfterSec requeueDelaySec => do
    let ids ← Conn.reclaimStaleRunning pg staleAfterSec requeueDelaySec r.now
    pure (.ids ids)
  | .claimNext => do
    let job ← Conn.claimNext pg r.now
    pure (.job job)
  | .catchupMissedSlots => do
    let done ← Conn.catchupMissedSlots pg cfg sched r.workerNow r.now
    pure (.caughtUp done)
  | .recordHeartbeat state pod version startedAt => do
    Conn.recordHeartbeat pg r.now state pod version startedAt
    pure .unit
  | .markDone jobId result => do
    Conn.markDone pg r.now jobId result
    pure .unit
  | .markRetry jobId error category delaySec => do
    Conn.markRetry pg r.now jobId error category delaySec
    pure .unit
  | .markFailed jobId error category => do
    Conn.markFailed pg r.now jobId error category
    pure .unit
  | .deferPending delaySec excludeId => do
    let ids ← Conn.deferPending pg r.now delaySec excludeId
    pure (.ids ids)

/-- The statements of a call that run outside any `try`. -/
def WorkerCall.bare (c : WorkerCall) (r : Round) (d : Database κ) (p : Process) :
    List (Database κ → Except Raised (Database κ)) :=
  match c with
  | .ensureFlexOpsSchema =>
    (Conn.countTables pg).effect :: (Conn.creates pg (pg.tables d.catalog) ++ Conn.migrations pg p)
  | .reclaimStaleRunning staleAfterSec requeueDelaySec =>
    [(Conn.updateStale pg staleAfterSec requeueDelaySec r.now).effect]
  | .claimNext =>
    (Conn.selectClaimable pg r.now).effect ::
      ((nextClaimable r.now d.jobs).map fun row => (Conn.updateClaimed pg r.now row).effect).toList
  | .catchupMissedSlots => [(Conn.selectNewest pg).effect]
  | .recordHeartbeat state pod version startedAt =>
    [(Conn.upsertHeartbeat pg (Conn.heartbeatRow r.now state pod version startedAt)).effect]
  | .markDone jobId result => [(Conn.updateDone pg r.now jobId result).effect]
  | .markRetry jobId error category delaySec =>
    [(Conn.updateRetry pg r.now jobId error category delaySec).effect]
  | .markFailed jobId error category => [(Conn.updateFailed pg r.now jobId error category).effect]
  | .deferPending delaySec excludeId =>
    [(Conn.updateDeferred pg r.now delaySec excludeId).effect]

variable {pg} {cfg} {sched}

theorem statement_ok {ρ : Type} {s : Statement}
    {q : Database κ → Except PgError (Database κ × ρ)} {d : Database κ} {x : Database κ × ρ}
    (h : pg.statement s q d = .ok x) : q d = .ok x := by
  unfold Postgres.statement at h
  split at h
  · cases h
  · split at h
    · cases h
    · rename_i y hq
      cases h
      exact hq

theorem committed_settles {ρ : Type} {q : Query κ ρ} {l : Link (Database κ) Process}
    (h : l.txn = .idle) :
    Settles (firstRejection [q.effect] l.db l.fates) (Client.run (Conn.committed q) l) := by
  have hview : l.view = some l.db := by rw [Link.view, h]
  apply settles_execute hview
  · rfl
  · intro work rows _
    exact settles_commit rfl fun _ => settles_pure

theorem claimNext_settles {now : Timestamp} {l : Link (Database κ) Process} (h : l.txn = .idle) :
    Settles (firstRejection ((Conn.selectClaimable pg now).effect ::
        ((nextClaimable now l.db.jobs).map fun row =>
          (Conn.updateClaimed pg now row).effect).toList) l.db l.fates)
      (Client.run (Conn.claimNext pg now) l) := by
  have hview : l.view = some l.db := by rw [Link.view, h]
  apply settles_execute hview
  · rfl
  · intro work row hselect
    cases statement_ok hselect
    cases nextClaimable now l.db.jobs with
    | none => exact settles_rollback (Or.inl ⟨_, rfl⟩) (settles_pure rfl)
    | some r =>
      rw [Option.map_some, Option.toList_some]
      apply settles_execute (l := l.sent l.db (.active l.db)) rfl
      · rfl
      · intro work rows _
        exact settles_commit rfl fun _ => settles_pure

theorem insertJob_settles {payloadHash : Dict → String} {now : Timestamp} {kind : String}
    {payload : Dict} {priority : ℤ} {maxAttempts : ℕ} {hashPayload : Option Dict}
    {l : Link (Database κ) Process} (h : l.txn = .idle) :
    Settles none (Client.run (Conn.insertJob pg payloadHash now kind payload priority maxAttempts
      hashPayload) l) := by
  unfold Conn.insertJob
  split
  · exact settles_throw h nofun
  · exact settles_guarded h

theorem enqueueMissed_settles {now : Timestamp} {ms : List Missed}
    {l : Link (Database κ) Process} (h : l.txn = .idle) :
    Settles none (Client.run (Conn.enqueueMissed pg cfg now ms) l) := by
  induction ms generalizing l with
  | nil => exact settles_pure h
  | cons m ms ih =>
    have hslot : Settles none (Client.run (Conn.enqueueSlot pg cfg now m.slot
        (catchupPayload m.asOf)) l) := by
      unfold Conn.enqueueSlot
      simp only
      split
      · exact settles_throw h nofun
      · exact settles_map _ (insertJob_settles h)
    refine settles_bind hslot fun result l' h' => settles_bind (ih h') fun done l'' h'' => ?_
    cases result.jobId with
    | none => exact settles_pure h''
    | some id => exact settles_pure h''

theorem catchupMissedSlots_settles {workerNow now : Timestamp} {l : Link (Database κ) Process}
    (h : l.txn = .idle) :
    Settles (firstRejection [(Conn.selectNewest pg).effect] l.db l.fates)
      (Client.run (Conn.catchupMissedSlots pg cfg sched workerNow now) l) := by
  unfold Conn.catchupMissedSlots Conn.newestJobPerKind
  rw [bind_assoc]
  refine settles_execute (by rw [Link.view, h]) rfl fun work newest _ => ?_
  rw [bind_assoc]
  refine settles_rollback (Or.inl ⟨_, rfl⟩) ?_
  rw [pure_bind]
  cases missedSlots sched workerNow newest SLOT_NAMES with
  | error e => exact settles_throw rfl (by rintro ⟨⟩)
  | ok missed => exact enqueueMissed_settles rfl

theorem ensureFlexOpsSchema_settles {l : Link (Database κ) Process} (h : l.txn = .idle) :
    Settles (firstRejection ((Conn.countTables pg).effect ::
        (Conn.creates pg (pg.tables l.db.catalog) ++ Conn.migrations pg l.memory)) l.db l.fates)
      (Client.run (Conn.ensureFlexOpsSchema pg) l) := by
  have hview : l.view = some l.db := by rw [Link.view, h]
  apply settles_execute hview
  · rfl
  intro work present hcount
  cases statement_ok hcount
  refine settles_executeAll (l := l.sent l.db (.active l.db)) rfl fun l' d' hview hmem => ?_
  rw [run_bind, run_remembered, show l'.memory = l.memory from hmem]
  rw [← List.append_nil (Conn.migrations pg l.memory)]
  refine settles_executeAll hview fun l'' d'' hview' _ => ?_
  rw [run_bind, run_remember, ← bind_pure (commit : OnConn κ Unit)]
  change Settles none (Client.run (commit >>= fun _ => pure ())
    ({ l'' with memory := ⟨true⟩ } : Link (Database κ) Process))
  exact settles_commit hview' fun _ => settles_pure

/-- **One call.**  From a connection without a transaction, the connection is left with none or
lost, unless one of the bare statements is rejected. -/
theorem WorkerCall.settles (c : WorkerCall) (r : Round) {l : Link (Database κ) Process}
    (h : l.txn = .idle) :
    Settles (firstRejection (c.bare pg r l.db l.memory) l.db l.fates)
      (Client.run (c.fn pg cfg sched r) l) := by
  cases c with
  | ensureFlexOpsSchema => exact settles_map _ (ensureFlexOpsSchema_settles h)
  | claimNext => exact settles_map _ (claimNext_settles h)
  | catchupMissedSlots => exact settles_map _ (catchupMissedSlots_settles h)
  | reclaimStaleRunning => exact settles_map _ (committed_settles h)
  | recordHeartbeat => exact settles_map _ (committed_settles h)
  | markDone => exact settles_map _ (committed_settles h)
  | markRetry => exact settles_map _ (committed_settles h)
  | markFailed => exact settles_map _ (committed_settles h)
  | deferPending => exact settles_map _ (committed_settles h)

/-! ## The connection between calls -/

/-- There is no transaction on the connection, or no connection. -/
def Settled (w : World κ) : Prop := w.conn = none ∨ w.conn = some .idle

/-- A round in which the server rejects a bare statement and `call` does not catch the error. -/
def RefusedRound (pg : Postgres κ) (c : WorkerCall) (w : World κ) (r : Round) : Prop :=
  ∃ l e, w.link r = .ok l ∧
    firstRejection (c.bare pg r l.db l.memory) l.db l.fates = some e ∧ e.caught = false

theorem Settled.link {w : World κ} (h : Settled w) {r : Round}
    {l : Link (Database κ) Process} (hl : w.link r = .ok l) : l.txn = .idle := by
  unfold World.link at hl
  split at hl
  · split at hl
    · cases hl
    · cases hl
      rfl
  · rename_i hopen
    cases hl
    rcases h with h | h
    · rw [World.disconnected, h] at hopen
      exact absurd rfl hopen
    · rw [h]
      rfl

theorem World.link_error {w : World κ} {r : Round} {f : Fault Raised}
    (h : w.link r = .error f) : ∃ text, f = .lost text := by
  unfold World.link at h
  split at h
  · split at h
    · cases h
      exact ⟨_, rfl⟩
    · cases h
  · cases h

/-- **One round.**  Unless it is followed by another, it settles the connection exactly when it is
not refused, and it does not fail for an earlier failure. -/
theorem attempt_settled {c : WorkerCall} {i : ℕ} {r : Round} {w : World κ} (h : Settled w) :
    (∃ f w', attempt (c.fn pg cfg sched) i r w = (.error f, w') ∧ caught f = true ∧
      ¬ RefusedRound pg c w r) ∨
    (∃ x w', attempt (c.fn pg cfg sched) i r w = (x, w') ∧ (∀ f, x = .error f → caught f = false) ∧
      ((Settled w' ∧ x ≠ .error .inFailed ∧ ¬ RefusedRound pg c w r) ∨
        (w'.conn = some .failed ∧ x ≠ .error .inFailed ∧ RefusedRound pg c w r))) := by
  unfold attempt
  cases hl : w.link r with
  | error f =>
    obtain ⟨text, rfl⟩ := World.link_error hl
    refine Or.inl ⟨_, _, rfl, rfl, ?_⟩
    rintro ⟨l, e, hl', _⟩
    rw [hl] at hl'
    cases hl'
  | ok l =>
    have hidle := h.link hl
    have hsettles := @WorkerCall.settles κ pg cfg sched c r l hidle
    have hnot : ∀ x, firstRejection (c.bare pg r l.db l.memory) l.db l.fates = x →
        (∀ e, x = some e → e.caught = true) → ¬ RefusedRound pg c w r := by
      rintro x hx hcaught ⟨l', e, hl', he, hpass⟩
      rw [hl] at hl'
      cases hl'
      rw [hcaught e (hx.symm.trans he)] at hpass
      cases hpass
    simp only
    rcases hrun : Client.run (c.fn pg cfg sched r) l with ⟨x, l'⟩
    rw [hrun] at hsettles
    cases hrej : firstRejection (c.bare pg r l.db l.memory) l.db l.fates with
    | none =>
      have hnot := hnot none hrej nofun
      rw [hrej] at hsettles
      rcases hsettles with ⟨htxn, hne⟩ | ⟨text, rfl⟩
      · rcases x with f | a
        · cases hcaught : caught f with
          | true => exact Or.inl ⟨f, _, rfl, hcaught, hnot⟩
          | false =>
            refine Or.inr ⟨_, _, rfl, ?_, Or.inl ⟨Or.inr (congrArg some htxn), hne, hnot⟩⟩
            rintro _ ⟨⟩
            exact hcaught
        · exact Or.inr ⟨_, _, rfl, nofun, Or.inl ⟨Or.inr (congrArg some htxn), nofun, hnot⟩⟩
      · exact Or.inl ⟨_, _, rfl, rfl, hnot⟩
    | some e =>
      rw [hrej] at hsettles
      obtain ⟨rfl, htxn⟩ := hsettles
      cases hcaught : e.caught with
      | true =>
        refine Or.inl ⟨_, _, rfl, hcaught, hnot (some e) hrej ?_⟩
        rintro _ ⟨⟩
        exact hcaught
      | false =>
        refine Or.inr ⟨_, _, rfl, ?_, Or.inr ⟨congrArg some htxn, nofun, l, e, hl, hrej, hcaught⟩⟩
        rintro _ ⟨⟩
        exact hcaught

/-- None of the rounds that are made is refused. -/
def Unrefused (pg : Postgres κ) (cfg : QueueConfig) (sched : CatchupConfig) (c : WorkerCall)
    (rounds : List (ℕ × Round)) (w : World κ) : Prop :=
  Along (retry (c.fn pg cfg sched)) (fun u x => ¬ RefusedRound pg c u x.2) w rounds

/-- **All rounds of a call.** -/
theorem attempts_settled {c : WorkerCall} {rounds : List (ℕ × Round)} {last : String}
    {w : World κ} (h : Settled w) :
    (attempts (c.fn pg cfg sched) rounds last w).1 ≠ .error .inFailed ∧
    ((Settled (attempts (c.fn pg cfg sched) rounds last w).2 ∧
        Unrefused pg cfg sched c rounds w) ∨
      ((attempts (c.fn pg cfg sched) rounds last w).2.conn = some .failed ∧
        ¬ Unrefused pg cfg sched c rounds w)) := by
  induction rounds generalizing w last with
  | nil => exact ⟨nofun, Or.inl ⟨h, trivial⟩⟩
  | cons x rounds ih =>
    obtain ⟨i, r⟩ := x
    rcases @attempt_settled κ pg cfg sched c i r w h with
      ⟨f, w', hattempt, hcaught, hnot⟩ | ⟨x, w', hattempt, hpass, hleft⟩
    · -- The round is followed by another one, on a new connection.
      have hretry : retry (c.fn pg cfg sched) w (i, r) = some w'.drop := by
        simp only [retry, hattempt, hcaught, if_true]
      have hiff : Unrefused pg cfg sched c ((i, r) :: rounds) w ↔
          Unrefused pg cfg sched c rounds w'.drop := by
        constructor
        · rintro ⟨_, hall⟩
          exact hall w'.drop hretry
        · intro hall
          refine ⟨hnot, fun u hu => ?_⟩
          rw [hretry] at hu
          cases hu
          exact hall
      obtain ⟨last', hsame⟩ := @attempts_retry κ _ _ i r rounds last w _ hretry
      obtain ⟨hne, hrest⟩ := @ih last' w'.drop (Or.inl rfl)
      rw [hsame, hiff]
      exact ⟨hne, hrest⟩
    · -- It is the last one.
      have hretry : retry (c.fn pg cfg sched) w (i, r) = none := by
        simp only [retry, hattempt]
        rcases x with f | a
        · simp only [hpass f rfl, Bool.false_eq_true, if_false]
        · rfl
      have hiff : Unrefused pg cfg sched c ((i, r) :: rounds) w ↔ ¬ RefusedRound pg c w r := by
        constructor
        · exact fun hall => hall.1
        · intro hnot
          refine ⟨hnot, fun u hu => ?_⟩
          rw [hretry] at hu
          cases hu
      rw [attempts_last hretry, hattempt, hiff]
      rcases hleft with ⟨hsettled, hne, hnot⟩ | ⟨hfailed, hne, hrefused⟩
      · exact ⟨hne, Or.inl ⟨hsettled, hnot⟩⟩
      · exact ⟨hne, Or.inr ⟨hfailed, not_not.mpr hrefused⟩⟩

/-! ## Runs -/

/-- The same worker with nothing on its connection. -/
def World.fresh (w : World κ) : World κ := { w with conn := w.conn.map fun _ => .idle }

/-- Every call does what it would on a fresh connection. -/
def Healthy (pg : Postgres κ) (cfg : QueueConfig) (sched : CatchupConfig) (w : World κ) : Prop :=
  ∀ (c : WorkerCall) (rounds : ℕ → Round),
    call (c.fn pg cfg sched) rounds w = call (c.fn pg cfg sched) rounds w.fresh

/-- A call of the worker, or what others make of the database in between. -/
inductive Event (κ : Type) where
  | call (c : WorkerCall) (rounds : ℕ → Round)
  | others (db : Database κ)

def worldStep (pg : Postgres κ) (cfg : QueueConfig) (sched : CatchupConfig) (w : World κ) :
    Event κ → Option (World κ)
  | .call c rounds => some (call (c.fn pg cfg sched) rounds w).2
  | .others db => some { w with db := db }

/-- A call one of whose rounds is refused. -/
def Poisons (pg : Postgres κ) (cfg : QueueConfig) (sched : CatchupConfig) (w : World κ) :
    Event κ → Prop
  | .call c rounds => ¬ Unrefused pg cfg sched c (schedule rounds) w
  | .others _ => False

theorem Settled.healthy {w : World κ} (h : Settled w) : Healthy pg cfg sched w := by
  have hfresh : w.fresh = w := by
    unfold World.fresh
    rcases h with h | h <;> rw [h] <;> cases w <;> cases h <;> rfl
  intro c rounds
  rw [hfresh]

/-- In a failed transaction the next claim is rejected at once. -/
theorem not_healthy_of_failed {w : World κ} (h : w.conn = some .failed) :
    ¬ Healthy pg cfg sched w := by
  intro hhealthy
  let quiet : ℕ → Round := fun _ => ⟨0, 0, []⟩
  have hfresh : Settled w.fresh := by
    refine Or.inr ?_
    rw [World.fresh, h]
    rfl
  have hclaim : (call (WorkerCall.claimNext.fn pg cfg sched) quiet w).1 = .error .inFailed := by
    have hlink : w.link (quiet 0) = .ok ⟨w.db, .failed, w.process, []⟩ := by
      simp only [World.link, World.disconnected, h, Bool.false_eq_true, if_false, Option.getD_some,
        quiet]
    have hattempt : (attempt (WorkerCall.claimNext.fn pg cfg sched) 0 (quiet 0) w).1 =
        .error .inFailed := by
      unfold attempt
      rw [hlink]
      simp only [WorkerCall.fn, Conn.claimNext]
      rw [run_bind, run_bind, run_execute_failed rfl]
      rfl
    have hlast : retry (WorkerCall.claimNext.fn pg cfg sched) w (0, quiet 0) = none := by
      unfold retry
      rcases hx : attempt (WorkerCall.claimNext.fn pg cfg sched) 0 (quiet 0) w with ⟨x, u⟩
      rw [hx] at hattempt
      cases hattempt
      rfl
    exact (congrArg Prod.fst (attempts_last hlast)).trans hattempt
  obtain ⟨hne, _⟩ := @attempts_settled κ pg cfg sched .claimNext (schedule quiet) "None" _ hfresh
  rw [hhealthy .claimNext quiet] at hclaim
  exact hne hclaim

/-- **Step lemma.** -/
theorem worldStep_settled {w w' : World κ} {e : Event κ} (h : Settled w)
    (hstep : worldStep pg cfg sched w e = some w') :
    (Settled w' ∧ ¬ Poisons pg cfg sched w e) ∨
      (w'.conn = some .failed ∧ Poisons pg cfg sched w e) := by
  cases e with
  | others db =>
    cases hstep
    exact Or.inl ⟨h, not_false⟩
  | call c rounds =>
    cases hstep
    obtain ⟨_, hleft⟩ := @attempts_settled κ pg cfg sched c (schedule rounds) "None" w h
    rcases hleft with ⟨hsettled, hall⟩ | ⟨hfailed, hsome⟩
    · exact Or.inl ⟨hsettled, not_not.mpr hall⟩
    · exact Or.inr ⟨hfailed, hsome⟩

theorem worldStep_isSome (w : World κ) (e : Event κ) :
    ∃ w', worldStep pg cfg sched w e = some w' := by
  cases e <;> exact ⟨_, rfl⟩

/-- A run through healthy states has poisoned nothing. -/
theorem along_of_healthy {w : World κ} {events : List (Event κ)} (h : Settled w)
    (hall : ∀ pre post u, events = pre ++ post → exec (worldStep pg cfg sched) w pre = some u →
      Healthy pg cfg sched u) :
    Along (worldStep pg cfg sched) (fun u e => ¬ Poisons pg cfg sched u e) w events := by
  induction events generalizing w with
  | nil => trivial
  | cons e events ih =>
    obtain ⟨w', hstep⟩ := @worldStep_isSome κ pg cfg sched w e
    rcases worldStep_settled h hstep with ⟨hsettled, hnot⟩ | ⟨hfailed, _⟩
    · refine ⟨hnot, fun u hu => ?_⟩
      rw [hstep] at hu
      cases hu
      apply ih hsettled
      rintro pre post u rfl hu
      exact hall (e :: pre) post u rfl (exec_cons.mpr ⟨w', hstep, hu⟩)
    · have hhealthy := hall [e] events w' rfl (exec_cons.mpr ⟨w', hstep, rfl⟩)
      exact absurd hhealthy (not_healthy_of_failed hfailed)

/-- **Best-effort steps and the queue connection.**  However the calls of the worker and what
others do to the database follow one another: every call of every state of a run does what it would
on a fresh connection, exactly when no round of a call has one of its bare statements rejected with
an error that `call` does not catch. -/
theorem calls_healthy_iff {w : World κ} {events : List (Event κ)} (h : Settled w) :
    (∀ pre post u, events = pre ++ post → exec (worldStep pg cfg sched) w pre = some u →
      Healthy pg cfg sched u) ↔
    Along (worldStep pg cfg sched) (fun u e => ¬ Poisons pg cfg sched u e) w events := by
  constructor
  · exact along_of_healthy h
  · rintro halong pre post u rfl hu
    have hpre := (Along.append.mp halong).1
    have hkeep : ∀ s e s', Settled s → ¬ Poisons pg cfg sched s e →
        worldStep pg cfg sched s e = some s' → Settled s' := by
      intro s e s' hs hnot hstep
      rcases worldStep_settled hs hstep with ⟨hsettled, _⟩ | ⟨_, hpoisons⟩
      · exact hsettled
      · exact absurd hpoisons hnot
    exact (exec_invariant hkeep h hpre hu).healthy

end Calls

/-! ## A missing grant -/

/-- The worker may not write `flex_worker_heartbeat`; everything else is granted. -/
def noHeartbeatGrant : Postgres Unit where
  rejects := fun _ s =>
    match s with
    | .recordHeartbeat _ => some ⟨.programming, "permission denied for table flex_worker_heartbeat"⟩
    | _ => none
  tables := fun _ => 2
  alter := fun _ _ => ()

/-- A worker whose schema is up to date, over an empty queue. -/
def startedWorld : World Unit := ⟨⟨JobTable.empty, none, ()⟩, some .idle, 0, ⟨true⟩⟩

/-- Nothing is lost. -/
def quietRounds : ℕ → Round := fun _ => ⟨0, 0, []⟩

def firstHeartbeat : WorkerCall :=
  .recordHeartbeat ⟨0, 0, 0, 0, 0, 0, "", ""⟩ "flex-query-worker-0" "0.13.2" 0

/-- A worker that only claims stays healthy. -/
theorem calls_healthy_claims : ∃ u, exec (worldStep noHeartbeatGrant scheduleConfig morningOnly)
    startedWorld [.call .claimNext quietRounds] = some u ∧
      Healthy noHeartbeatGrant scheduleConfig morningOnly u := by
  have hquiet : Along (worldStep noHeartbeatGrant scheduleConfig morningOnly)
      (fun u e => ¬ Poisons noHeartbeatGrant scheduleConfig morningOnly u e) startedWorld
      [.call .claimNext quietRounds] := by
    refine ⟨not_not.mpr ⟨?_, fun s' (hs : none = some s') => nomatch hs⟩, fun _ _ => trivial⟩
    rintro ⟨l, e, hl, hrejected, _⟩
    cases hl
    cases hrejected
  exact ⟨_, rfl, (calls_healthy_iff (Or.inr rfl)).mpr hquiet [_] [] _ rfl rfl⟩

/-- The heartbeat is refused and the refusal swallowed; the next claim fails for it. -/
theorem heartbeat_fails_claim :
    ∃ u, exec (worldStep noHeartbeatGrant scheduleConfig morningOnly) startedWorld
        [.call firstHeartbeat quietRounds] = some u ∧
      (call (WorkerCall.claimNext.fn noHeartbeatGrant scheduleConfig morningOnly) quietRounds
        u).1 = .error .inFailed ∧
      (call (WorkerCall.claimNext.fn noHeartbeatGrant scheduleConfig morningOnly) quietRounds
        u.fresh).1 = .ok (.job none) :=
  ⟨_, rfl, rfl, rfl⟩

end FlexQuery
