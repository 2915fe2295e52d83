import FlexQuery.Library.Session
import FlexQuery.Worker.Catchup

/-!
# The worker's connection to the queue

`WorkerDb` of `worker/loop.py` and what the loop calls through it, statement by statement.

* `Postgres`, `Statement` — the statements, and which of them the server rejects in which catalog:
  grants, columns, locks and the like are not part of the queue.
* `Conn` — the functions of `worker/claim.py`, `worker/catchup.py` and `schema/ddl.py` on one
  connection: where they commit, where they roll back.
* `attempt`, `call` — one round of `WorkerDb.call` and its six rounds at most.
* `retry` — the rounds of a call that end in a connection to be opened again.
-/

set_option autoImplicit false

namespace FlexQuery

open Session Transition

/-! ## Errors -/

/-- The classes of `psycopg2.Error`. -/
inductive PgClass where
  | operational
  | interface
  | programming
  | integrity
  | data
  | internal
  | notSupported
  deriving DecidableEq, Repr

/-- An error the server answers a statement with. -/
structure PgError where
  cls : PgClass
  text : String
  deriving DecidableEq, Repr

/-- What is raised on a connection that is not lost. -/
inductive Raised where
  | sql (e : PgError)
  | py (e : PyExc)
  deriving DecidableEq, Repr

/-- `except (psycopg2.OperationalError, psycopg2.InterfaceError)`. -/
def Raised.caught : Raised → Bool
  | .sql e => e.cls = .operational || e.cls = .interface
  | .py _ => false

/-- The same of a lost connection; a statement in a failed transaction is an `InternalError`. -/
def caught : Fault Raised → Bool
  | .lost _ => true
  | .inFailed => false
  | .raised e => e.caught

/-- `str(exc)`. -/
def faultText : Fault Raised → String
  | .lost text => text
  | .inFailed =>
    "current transaction is aborted, commands ignored until end of transaction block"
  | .raised (.sql e) => e.text
  | .raised (.py e) => e.str

def UNIQUE_VIOLATION : PgError where
  cls := .integrity
  text := "duplicate key value violates unique constraint \"job_flex_ingest_kind_hash_active\""

/-! ## The database -/

def WORKER_KEY : String := "flex-query-worker"

/-- The worker's row of `flex_worker_heartbeat`. -/
structure Heartbeat where
  pod : String
  version : String
  seenAt : Timestamp
  startedAt : Timestamp
  jobsDone : ℕ
  jobsFailed : ℕ
  jobsRetried : ℕ
  catchups : ℕ
  dbReconnects : ℕ
  staleReclaimed : ℕ
  lastError : Option String
  lastErrorCategory : Option String

/-- What the worker reads and writes; everything else a statement depends on is the catalog. -/
structure Database (κ : Type) where
  jobs : JobTable
  heartbeat : Option Heartbeat
  catalog : κ

/-- The statements, with their parameters. -/
inductive Statement where
  | countTables
  | ddl (sql : String)
  | newestJobPerKind
  | selectClaimable
  | claim (id : ℕ)
  | reclaimStale (delaySec : ℤ) (msg : String) (sec : ℤ)
  | markDone (jobId : ℕ) (result : Dict)
  | markRetry (jobId : ℕ) (error category : String) (delaySec : ℤ)
  | markFailed (jobId : ℕ) (error : String) (category : Option String)
  | deferPending (delaySec : ℤ) (excludeId : Option ℕ)
  | insertJob (kind : String) (payload : Dict) (hash : String) (priority : ℤ) (maxAttempts : ℕ)
  | recordHeartbeat (row : Heartbeat)

/-- The server: which statements it rejects, how many of the two queue tables there are, and what
a schema statement makes of the catalog. -/
structure Postgres (κ : Type) where
  rejects : κ → Statement → Option PgError
  tables : κ → ℕ
  alter : κ → String → κ

section Queries
variable {κ ρ : Type}

/-- A statement of the worker. -/
abbrev Query (κ ρ : Type) := Database κ → Except Raised (Database κ × ρ)

/-- What it makes of the database. -/
def Query.effect (q : Query κ ρ) : Database κ → Except Raised (Database κ) := fun d =>
  (q d).map Prod.fst

/-- The statement, unless it is rejected. -/
def Postgres.statement (pg : Postgres κ) (s : Statement)
    (q : Database κ → Except PgError (Database κ × ρ)) : Query κ ρ := fun d =>
  match pg.rejects d.catalog s with
  | some e => .error (.sql e)
  | none =>
    match q d with
    | .error e => .error (.sql e)
    | .ok x => .ok x

/-- The statement on the job table. -/
def Postgres.onJobs (pg : Postgres κ) (s : Statement)
    (q : JobTable → Except DbError (JobTable × ρ)) : Query κ ρ :=
  pg.statement s fun d =>
    match q d.jobs with
    | .error .uniqueViolation => .error UNIQUE_VIOLATION
    | .ok (t, rows) => .ok ({ d with jobs := t }, rows)

end Queries

/-! ## On one connection -/

/-- `_migrated` of `schema/ddl.py`, once per process. -/
structure Process where
  migrated : Bool
  deriving DecidableEq

/-- What a function does on the worker's connection. -/
abbrev OnConn (κ α : Type) := Client (Database κ) Process Raised α

namespace Conn

section
variable {κ ρ : Type} (pg : Postgres κ)

/-- `cur.execute(…)` and `conn.commit()`. -/
def committed (q : Query κ ρ) : OnConn κ ρ := do
  let rows ← execute q
  commit
  pure rows

/-! ### `schema/ddl.py` -/

/-- The statements for an empty database. -/
def CREATES : List String :=
  ["CREATE SCHEMA IF NOT EXISTS ops_jobs",
    "CREATE TABLE IF NOT EXISTS ops_jobs.job_flex_ingest",
    "CREATE UNIQUE INDEX IF NOT EXISTS job_flex_ingest_kind_hash_active",
    "CREATE INDEX IF NOT EXISTS job_flex_ingest_claim",
    "CREATE TABLE IF NOT EXISTS ops_jobs.flex_ingest_freshness"]

/-- `_MIGRATIONS`, by their first words. -/
def MIGRATIONS : List String :=
  ["ALTER TABLE ops_jobs.job_flex_ingest ADD COLUMN IF NOT EXISTS not_before timestamptz",
    "ALTER TABLE ops_jobs.job_flex_ingest ADD COLUMN IF NOT EXISTS error_category text",
    "ALTER TABLE ops_jobs.flex_ingest_freshness ADD COLUMN IF NOT EXISTS last_ok boolean",
    "ALTER TABLE ops_jobs.flex_ingest_freshness ADD COLUMN IF NOT EXISTS last_error text",
    "ALTER TABLE ops_jobs.flex_ingest_freshness ADD COLUMN IF NOT EXISTS processed_rows bigint",
    "ALTER TABLE ops_jobs.flex_ingest_freshness ADD COLUMN IF NOT EXISTS new_rows bigint",
    "ALTER TABLE ops_jobs.flex_ingest_freshness ADD COLUMN IF NOT EXISTS last_job_id bigint",
    "ALTER TABLE ops_jobs.flex_ingest_freshness ADD COLUMN IF NOT EXISTS last_finished_at timestamptz",
    "CREATE TABLE IF NOT EXISTS ops_jobs.flex_worker_heartbeat",
    "CREATE TABLE IF NOT EXISTS ops_jobs.flex_settings",
    "COMMENT ON TABLE ops_jobs.flex_settings"]

def countTables : Query κ ℕ :=
  pg.statement .countTables fun d => .ok (d, pg.tables d.catalog)

def ddl (sql : String) : Database κ → Except Raised (Database κ) :=
  Query.effect (pg.statement (.ddl sql) fun d =>
    .ok ({ d with catalog := pg.alter d.catalog sql }, ()))

/-- The `CREATE` statements that are due. -/
def creates (present : ℕ) : List (Database κ → Except Raised (Database κ)) :=
  if present < 2 then CREATES.map (ddl pg) else []

/-- The migrations that are due. -/
def migrations (p : Process) : List (Database κ → Except Raised (Database κ)) :=
  if p.migrated then [] else MIGRATIONS.map (ddl pg)

/-- `ensure_flex_ops_schema`; the flag is set before the commit. -/
def ensureFlexOpsSchema : OnConn κ Unit := do
  let present ← execute (countTables pg)
  executeAll (creates pg present)
  let p ← remembered
  executeAll (migrations pg p)
  remember fun p => { p with migrated := true }
  commit

/-- What `record_heartbeat` reads of the worker's state. -/
structure WorkerState where
  jobsDone : ℕ
  jobsFailed : ℕ
  jobsRetried : ℕ
  catchups : ℕ
  dbReconnects : ℕ
  staleReclaimed : ℕ
  lastError : String
  lastErrorCategory : String

/-- `s or None`. -/
def orNone (s : String) : Option String := if s = "" then none else some s

def heartbeatRow (now : Timestamp) (state : WorkerState) (pod version : String)
    (startedAt : Timestamp) : Heartbeat where
  pod := pod
  version := version
  seenAt := now
  startedAt := startedAt
  jobsDone := state.jobsDone
  jobsFailed := state.jobsFailed
  jobsRetried := state.jobsRetried
  catchups := state.catchups
  dbReconnects := state.dbReconnects
  staleReclaimed := state.staleReclaimed
  lastError := orNone (slice state.lastError 500)
  lastErrorCategory := orNone state.lastErrorCategory

def upsertHeartbeat (row : Heartbeat) : Query κ Unit :=
  pg.statement (.recordHeartbeat row) fun d => .ok ({ d with heartbeat := some row }, ())

/-- `record_heartbeat`. -/
def recordHeartbeat (now : Timestamp) (state : WorkerState) (pod version : String)
    (startedAt : Timestamp) : OnConn κ Unit :=
  committed (upsertHeartbeat pg (heartbeatRow now state pod version startedAt))

/-! ### `worker/claim.py` -/

def selectClaimable (now : Timestamp) : Query κ (Option JobRow) :=
  pg.statement .selectClaimable fun d => .ok (d, nextClaimable now d.jobs)

def updateClaimed (now : Timestamp) (r : JobRow) : Query κ Unit :=
  pg.onJobs (.claim r.id) fun t =>
    (t.update (fun x => x.id = r.id) (JobRow.claim now) (JobRow.claim_id now)).map (·, ())

/-- `claim_next`. -/
def claimNext (now : Timestamp) : OnConn κ (Option Job) := do
  let row ← execute (selectClaimable pg now)
  match row with
  | none =>
    rollback
    pure none
  | some r =>
    execute (updateClaimed pg now r)
    commit
    pure (some { r.toJob with attempts := r.attempts + 1 })

def updateStale (staleAfterSec requeueDelaySec : ℤ) (now : Timestamp) : Query κ (List ℕ) :=
  pg.onJobs (.reclaimStale (max 0 requeueDelaySec)
      (slice (reclaimMsg (max 60 staleAfterSec)) 2000) (max 60 staleAfterSec))
    (FlexQuery.reclaimStaleRunning staleAfterSec requeueDelaySec now)

/-- `reclaim_stale_running`. -/
def reclaimStaleRunning (staleAfterSec requeueDelaySec : ℤ) (now : Timestamp) :
    OnConn κ (List ℕ) :=
  committed (updateStale pg staleAfterSec requeueDelaySec now)

def updateDone (now : Timestamp) (jobId : ℕ) (result : Dict) : Query κ Unit :=
  pg.onJobs (.markDone jobId result) fun t => (FlexQuery.markDone now jobId result t).map (·, ())

/-- `mark_done`. -/
def markDone (now : Timestamp) (jobId : ℕ) (result : Dict) : OnConn κ Unit :=
  committed (updateDone pg now jobId result)

def updateRetry (now : Timestamp) (jobId : ℕ) (error category : String) (delaySec : ℤ) :
    Query κ Unit :=
  pg.onJobs (.markRetry jobId (slice error 2000) category delaySec) fun t =>
    (FlexQuery.markRetry now jobId error category delaySec t).map (·, ())

/-- `mark_retry`. -/
def markRetry (now : Timestamp) (jobId : ℕ) (error category : String) (delaySec : ℤ) :
    OnConn κ Unit :=
  committed (updateRetry pg now jobId error category delaySec)

def updateFailed (now : Timestamp) (jobId : ℕ) (error : String) (category : Option String) :
    Query κ Unit :=
  pg.onJobs (.markFailed jobId (slice error 2000) category) fun t =>
    (FlexQuery.markFailed now jobId error category t).map (·, ())

/-- `mark_failed`. -/
def markFailed (now : Timestamp) (jobId : ℕ) (error : String) (category : Option String) :
    OnConn κ Unit :=
  committed (updateFailed pg now jobId error category)

def updateDeferred (now : Timestamp) (delaySec : ℤ) (excludeId : Option ℕ) : Query κ (List ℕ) :=
  pg.onJobs (.deferPending delaySec excludeId) (FlexQuery.deferPending now delaySec excludeId)

/-- `defer_pending`. -/
def deferPending (now : Timestamp) (delaySec : ℤ) (excludeId : Option ℕ) : OnConn κ (List ℕ) :=
  committed (updateDeferred pg now delaySec excludeId)

/-! ### `worker/catchup.py` -/

def selectNewest : Query κ (String → Option Timestamp) :=
  pg.statement .newestJobPerKind fun d => .ok (d, FlexQuery.newestJobPerKind d.jobs)

/-- `_newest_job_per_kind`. -/
def newestJobPerKind : OnConn κ (String → Option Timestamp) := do
  let newest ← execute (selectNewest pg)
  rollback
  pure newest

def insertRow (now : Timestamp) (kind : String) (payload : Dict) (hash : String) (priority : ℤ)
    (maxAttempts : ℕ) : Query κ (Option ℕ) :=
  pg.onJobs (.insertJob kind payload hash priority maxAttempts) fun t =>
    .ok (t.insert (newJob now kind payload hash priority maxAttempts))

/-- `insert_job`, which rolls back what it could not commit. -/
def insertJob (payloadHash : Dict → String) (now : Timestamp) (kind : String) (payload : Dict)
    (priority : ℤ) (maxAttempts : ℕ) (hashPayload : Option Dict) : OnConn κ (Option ℕ) :=
  if strip kind = "" then throw (.raised (.py (.valueError "kind is required")))
  else
    tryCatch (committed (insertRow pg now (strip kind) payload
      (payloadHash (hashPayload.getD payload)) priority maxAttempts)) fun f => do
      rollback
      throw f

/-- `enqueue_slot`. -/
def enqueueSlot (cfg : QueueConfig) (now : Timestamp) (slot : String) (payload : Dict) :
    OnConn κ EnqueueResult :=
  let slotKey := lower (strip slot)
  if slotKey ∉ SLOT_NAMES then
    throw (.raised (.py (.valueError ("unknown slot: '" ++ slot ++
      "' (expected one of ('flex-trades', 'flex-transactions'))"))))
  else do
    let scfg := cfg.slots slotKey
    let jobId ← insertJob pg cfg.payloadHash now (slotKind slotKey) (slotBody now payload)
      (scfg.priority.getD 0) scfg.budget (some (slotIdentity now payload))
    pure {
      slot := slotKey
      kind := slotKind slotKey
      enqueued := if jobId.isNone then 0 else 1
      deduped := if jobId.isNone then 1 else 0
      jobId := jobId
      payload := slotBody now payload
      maxAttempts := scfg.budget }

/-- The missed slots one after the other; the jobs of those that were not deduped. -/
def enqueueMissed (cfg : QueueConfig) (now : Timestamp) :
    List Missed → OnConn κ (List (Missed × ℕ))
  | [] => pure []
  | m :: ms => do
    let result ← enqueueSlot pg cfg now m.slot (catchupPayload m.asOf)
    let done ← enqueueMissed cfg now ms
    match result.jobId with
    | some id => pure ((m, id) :: done)
    | none => pure done

/-- `catchup_missed_slots`, at the worker's time; the jobs are created at the database's. -/
def catchupMissedSlots (cfg : QueueConfig) (sched : CatchupConfig) (workerNow now : Timestamp) :
    OnConn κ (List (Missed × ℕ)) := do
  let jobsSince ← newestJobPerKind pg
  match missedSlots sched workerNow jobsSince SLOT_NAMES with
  | .error e => throw (.raised (.py e))
  | .ok missed => enqueueMissed pg cfg now missed

end

end Conn

/-! ## `WorkerDb` -/

/-- `_RECONNECT_DELAYS`. -/
def RECONNECT_DELAYS : List ℕ := [5, 10, 20, 40, 60]

/-- The worker's process and the database.  The connection is none when it has been dropped. -/
structure World (κ : Type) where
  db : Database κ
  conn : Option (Txn (Database κ))
  reconnects : ℕ
  process : Process

/-- What one round of `call` meets: the worker's clock, the database's, and the network. -/
structure Round where
  workerNow : Timestamp
  now : Timestamp
  fates : List Fate

section Calls
variable {κ α : Type}

/-- `_drop`; the server undoes an open transaction. -/
def World.drop (w : World κ) : World κ := { w with conn := none }

/-- `self.conn is None or self.conn.closed`. -/
def World.disconnected (w : World κ) : Bool :=
  match w.conn with
  | none => true
  | some .closed => true
  | some _ => false

/-- The connection a round works on. -/
def World.link (w : World κ) (r : Round) : Except (Fault Raised) (Link (Database κ) Process) :=
  if w.disconnected then
    match r.fates.headD .arrives with
    | .lost text _ => .error (.lost text)
    | .arrives => .ok ⟨w.db, .idle, w.process, r.fates.tail⟩
  else .ok ⟨w.db, w.conn.getD .closed, w.process, r.fates⟩

/-- What the `try` of `call` does in its `i`-th round. -/
def attempt (fn : Round → OnConn κ α) (i : ℕ) (r : Round) (w : World κ) :
    Except (Fault Raised) α × World κ :=
  match w.link r with
  | .error f => (.error f, w)
  | .ok l =>
    let done := Client.run (fn r) l
    (done.1, {
      db := done.2.db
      conn := some done.2.txn
      reconnects := w.reconnects + if w.disconnected ∧ i ≠ 0 then 1 else 0
      process := done.2.memory })

/-- The rounds of `call` that are left; `last` is the error of the last one. -/
def attempts (fn : Round → OnConn κ α) :
    List (ℕ × Round) → String → World κ → Except (Fault Raised) α × World κ
  | [], last, w =>
    (.error (.raised (.py (.other "RuntimeError" ("postgres unavailable after " ++
      toString RECONNECT_DELAYS.length ++ " reconnects: " ++ last)))), w)
  | (i, r) :: rounds, _, w =>
    match attempt fn i r w with
    | (.ok a, w) => (.ok a, w)
    | (.error f, w) =>
      if caught f then attempts fn rounds (faultText f) w.drop else (.error f, w)

/-- The rounds, numbered. -/
def schedule (rounds : ℕ → Round) : List (ℕ × Round) :=
  (List.range (RECONNECT_DELAYS.length + 1)).map fun i => (i, rounds i)

/-- `WorkerDb.call`. -/
def call (fn : Round → OnConn κ α) (rounds : ℕ → Round) (w : World κ) :
    Except (Fault Raised) α × World κ :=
  attempts fn (schedule rounds) "None" w

/-- A round that is followed by another one. -/
def retry (fn : Round → OnConn κ α) (w : World κ) (x : ℕ × Round) : Option (World κ) :=
  match attempt fn x.1 x.2 w with
  | (.ok _, _) => none
  | (.error f, w) => if caught f then some w.drop else none

section Rounds
variable {fn : Round → OnConn κ α} {i : ℕ} {r : Round} {rounds : List (ℕ × Round)}
  {last : String} {w : World κ}

theorem retry_of_ok {a : α} {u : World κ} (h : attempt fn i r w = (.ok a, u)) :
    retry fn w (i, r) = none := by
  simp only [retry, h]

theorem retry_of_error {f : Fault Raised} {u : World κ} (h : attempt fn i r w = (.error f, u)) :
    retry fn w (i, r) = if caught f then some u.drop else none := by
  simp only [retry, h]

theorem retry_drop {u : World κ} (h : retry fn w (i, r) = some u) :
    u = (attempt fn i r w).2.drop := by
  unfold retry at h
  split at h
  · cases h
  · rename_i hattempt
    split at h
    · cases h
      simp only at hattempt
      rw [hattempt]
    · cases h

theorem attempts_retry {u : World κ} (h : retry fn w (i, r) = some u) :
    ∃ last', attempts fn ((i, r) :: rounds) last w = attempts fn rounds last' u := by
  simp only [retry] at h
  rcases hx : attempt fn i r w with ⟨f | a, w'⟩ <;> rw [hx] at h <;> simp only at h
  · split at h
    · rename_i hcaught
      cases h
      refine ⟨faultText f, ?_⟩
      rw [attempts, hx]
      exact if_pos hcaught
    · cases h
  · cases h

theorem attempts_last (h : retry fn w (i, r) = none) :
    attempts fn ((i, r) :: rounds) last w = attempt fn i r w := by
  simp only [retry] at h
  rw [attempts]
  rcases hx : attempt fn i r w with ⟨f | a, w'⟩
  · rw [hx] at h
    simp only at h ⊢
    split at h
    · cases h
    · rename_i hpass
      exact if_neg hpass
  · rfl

end Rounds

end Calls

end FlexQuery
