import FlexQuery.Config
import FlexQuery.Orchestration.ConfigRw
import FlexQuery.Worker.Loop

/-!
# Writing the configuration

`write_flex_config` of `orchestration/config_rw.py`, statement by statement, and its two readers.

* `ConfigTables` — `ops_jobs.flex_settings` and `raw_broker.settings_flex`, with what the statements
  of a write make of them.
* `getFlexConfigRows`, `summaryRows` — the rows as `get_flex_config` and `config_summary` show them.
* `prepare`, `writeFlexConfig` — the transaction up to its commit, and the whole call.
* `write_all_or_nothing` — a call that fails leaves both tables as they were, any other one is read
  back as it was asked for.
-/

set_option autoImplicit false

namespace FlexQuery

open Session

/-! ## The two tables -/

/-- The row with id 1 of `ops_jobs.flex_settings`, which has no null in it. -/
structure RangeDays where
  default : ℤ
  init : ℤ
  deriving DecidableEq, Repr

/-- A row of `raw_broker.settings_flex` with its place. -/
structure StoredQuery where
  id : ℕ
  sortOrder : Option ℤ
  row : QueryRow
  deriving DecidableEq, Repr

structure ConfigTables where
  flexSettings : Option RangeDays
  settingsFlex : List StoredQuery
  deriving DecidableEq, Repr

/-- `ORDER BY sort_order, id`. -/
def StoredQuery.before (a b : StoredQuery) : Bool :=
  match a.sortOrder, b.sortOrder with
  | some x, some y => x < y || (x = y && a.id ≤ b.id)
  | some _, none => true
  | none, some _ => false
  | none, none => a.id ≤ b.id

/-- The rows in the order in which they are read. -/
def ConfigTables.queries (t : ConfigTables) : List QueryRow :=
  (t.settingsFlex.mergeSort StoredQuery.before).map StoredQuery.row

/-- Golden Source with these two tables. -/
def ConfigTables.over (t : ConfigTables) (gs : GoldenSource) : GoldenSource :=
  { gs with
    settingsFlex := t.queries
    flexSettings := t.flexSettings.map fun r => (some r.default, some r.init) }

/-! ## The readers -/

/-- `(v or "").strip() or None`. -/
def trimmed (v : Option String) : Option String := orNone (strip (v.getD ""))

/-- An item of `rows` of `get_flex_config`; a label or a purpose that is none is left out. -/
structure FlexConfigRow where
  queryHostId : String
  querySecondaryId : Option String
  queryLabel : Option String
  purpose : Option String
  deriving DecidableEq, Repr

def flexConfigRow (r : QueryRow) : FlexConfigRow where
  queryHostId := strip (r.queryHostId.getD "")
  querySecondaryId := trimmed r.querySecondaryId
  queryLabel := trimmed r.queryLabel
  purpose := trimmed r.purpose

/-- The rows of `get_flex_config` without a purpose. -/
def getFlexConfigRows (t : ConfigTables) : List FlexConfigRow := t.queries.map flexConfigRow

/-- An item of `query_rows` of `config_summary`. -/
structure SummaryRow where
  purpose : String
  queryLabel : Option String
  queryHostId : String
  querySecondaryId : Option String
  deriving DecidableEq, Repr

def summaryRow (r : QueryRow) : SummaryRow where
  purpose := (trimmed r.purpose).getD "cash_transactions"
  queryLabel := trimmed r.queryLabel
  queryHostId := strip (r.queryHostId.getD "")
  querySecondaryId := trimmed r.querySecondaryId

/-- `query_rows` of `config_summary`. -/
def summaryRows (t : ConfigTables) : List SummaryRow := t.queries.map summaryRow

/-- The range days as both readers show them. -/
def effectiveDays (settings : Option RangeDays) : ℤ × ℤ :=
  match settings with
  | none => (DEFAULT_RANGE_DAYS, DEFAULT_INIT_RANGE_DAYS)
  | some r => (max 1 r.default, max 1 r.init)

@[simp] theorem getFlexRangeDays_over (t : ConfigTables) (gs : GoldenSource) :
    getFlexRangeDays (t.over gs) = effectiveDays t.flexSettings := by
  unfold getFlexRangeDays readFlexSettings ConfigTables.over
  cases t.flexSettings <;> rfl

/-! ## A request -/

/-- An item of `accounts`; a field that is missing or null is none. -/
structure Account where
  queryHostId : Option String
  querySecondaryId : Option String
  queryLabel : Option String
  purpose : Option String
  deriving DecidableEq, Repr

structure WriteRequest where
  accounts : Option (List Account)
  defaultDays : Option ℤ
  initDays : Option ℤ
  deriving DecidableEq, Repr

/-- `valid_accounts`. -/
def validAccounts (accounts : List Account) : List Account :=
  accounts.filter fun a => strip (a.queryHostId.getD "") ≠ ""

/-- `(a.get("purpose") or "cash_transactions").strip() or "cash_transactions"`. -/
def accountPurpose (a : Account) : String :=
  (orNone (strip ((a.purpose.bind orNone).getD "cash_transactions"))).getD "cash_transactions"

/-- The row an account is stored as. -/
def accountRow (a : Account) : QueryRow where
  queryHostId := some (strip (a.queryHostId.getD ""))
  querySecondaryId := trimmed a.querySecondaryId
  queryLabel := trimmed a.queryLabel
  purpose := some (accountPurpose a)

namespace WriteRequest

/-- `days_val`. -/
def daysVal (req : WriteRequest) : Option ℤ := req.defaultDays.map (max 1)

/-- `init_val`. -/
def initVal (req : WriteRequest) : Option ℤ := req.initDays.map (max 1)

/-- `range_requested`. -/
def rangeRequested (req : WriteRequest) : Bool := req.defaultDays.isSome || req.initDays.isSome

end WriteRequest

/-! ## What the statements make of the tables -/

/-- `insert_vals`. -/
def insertVals (req : WriteRequest) (current : ℤ × ℤ) : RangeDays where
  default := req.daysVal.getD current.1
  init := req.initVal.getD current.2

/-- `INSERT … ON CONFLICT (id) DO UPDATE SET … = COALESCE(…)`. -/
def upsertDays (req : WriteRequest) (vals : RangeDays) (settings : Option RangeDays) : RangeDays :=
  match settings with
  | none => vals
  | some s => ⟨req.daysVal.getD s.default, req.initVal.getD s.init⟩

/-- What is sent for the accounts, with the place each gets. -/
inductive QueryStatement where
  | deleteAll
  | insert (place : ℕ) (row : QueryRow)
  deriving DecidableEq, Repr

/-- `DELETE` and one `INSERT` an account. -/
def queryStatements (req : WriteRequest) : List QueryStatement :=
  match req.accounts with
  | none => []
  | some accounts =>
    .deleteAll :: (validAccounts accounts).zipIdx.map fun a => .insert a.2 (accountRow a.1)

/-- What such a statement makes of the rows; `ids` are those the sequence gives. -/
def QueryStatement.apply (ids : ℕ → ℕ) (s : QueryStatement) (rows : List StoredQuery) :
    List StoredQuery :=
  match s with
  | .deleteAll => []
  | .insert place row => rows ++ [⟨ids place, some place, row⟩]

@[simp] theorem QueryStatement.apply_deleteAll (ids : ℕ → ℕ) (rows : List StoredQuery) :
    QueryStatement.deleteAll.apply ids rows = [] := rfl

@[simp] theorem QueryStatement.apply_insert (ids : ℕ → ℕ) (place : ℕ) (row : QueryRow)
    (rows : List StoredQuery) : (QueryStatement.insert place row).apply ids rows =
      rows ++ [⟨ids place, some place, row⟩] := rfl

/-! ## The call -/

/-- The statements of a write that are not the schema's. -/
inductive ConfigStatement where
  | selectDays
  | upsertDays (vals : RangeDays) (daysVal initVal : Option ℤ)
  | query (s : QueryStatement)

/-- The server: the queue's, and which statements of a write it rejects. -/
structure ConfigServer (κ : Type) where
  pg : Postgres κ
  rejects : κ → ConfigStatement → Option PgError

/-- What the worker reads and writes, and the two tables. -/
structure ConfigDb (κ : Type) where
  worker : Database κ
  tables : ConfigTables

abbrev OnConfig (κ α : Type) := Client (ConfigDb κ) Process Raised α

section Write
variable {κ ρ : Type} (server : ConfigServer κ)

/-- A statement of the worker. -/
def onWorker (q : Query κ ρ) : ConfigDb κ → Except Raised (ConfigDb κ × ρ) := fun d =>
  (q d.worker).map fun x => ({ d with worker := x.1 }, x.2)

def onWorkerAlone (q : Database κ → Except Raised (Database κ)) :
    ConfigDb κ → Except Raised (ConfigDb κ) := fun d =>
  (q d.worker).map fun worker => { d with worker := worker }

/-- A statement on the two tables, unless it is rejected. -/
def onTables (s : ConfigStatement) (f : ConfigTables → ConfigTables) :
    ConfigDb κ → Except Raised (ConfigDb κ) := fun d =>
  match server.rejects d.worker.catalog s with
  | some e => .error (.sql e)
  | none => .ok { d with tables := f d.tables }

/-- `ensure_flex_ops_schema`. -/
def ensureSchema : OnConfig κ Unit := do
  let present ← execute (onWorker (Conn.countTables server.pg))
  executeAll ((Conn.creates server.pg present).map onWorkerAlone)
  let p ← remembered
  executeAll ((Conn.migrations server.pg p).map onWorkerAlone)
  remember fun p => { p with migrated := true }
  commit

/-- `_end_read`. -/
def endRead : OnConfig κ Unit := tryCatch rollback fun _ => pure ()

def NO_ROWS : GoldenSource := ⟨[], [], [], none⟩

def selectDays : ConfigDb κ → Except Raised (ConfigDb κ × (ℤ × ℤ)) := fun d =>
  match server.rejects d.worker.catalog .selectDays with
  | some e => .error (.sql e)
  | none => .ok (d, getFlexRangeDays (d.tables.over NO_ROWS))

/-- `get_flex_range_days`. -/
def readRangeDays : OnConfig κ (ℤ × ℤ) := do
  let days ← tryCatch (execute (selectDays server)) fun f => do
    endRead
    throw f
  endRead
  pure days

/-- `insert_vals`; the half that is not in the request is read. -/
def rangeValues (req : WriteRequest) : OnConfig κ RangeDays :=
  if req.daysVal.isSome && req.initVal.isSome then pure (insertVals req (0, 0))
  else do
    let current ← readRangeDays server
    pure (insertVals req current)

def upsertStatement (req : WriteRequest) (vals : RangeDays) :
    ConfigDb κ → Except Raised (ConfigDb κ) :=
  onTables server (.upsertDays vals req.daysVal req.initVal) fun t =>
    { t with flexSettings := some (upsertDays req vals t.flexSettings) }

def queryStatement (ids : ℕ → ℕ) (s : QueryStatement) : ConfigDb κ → Except Raised (ConfigDb κ) :=
  onTables server (.query s) fun t => { t with settingsFlex := s.apply ids t.settingsFlex }

/-- The part of the `try` that is about the range days. -/
def writeRange (req : WriteRequest) : OnConfig κ Unit := do
  ensureSchema server
  let vals ← rangeValues server req
  executeAll [upsertStatement server req vals]

/-- The `try` of `write_flex_config` up to its commit. -/
def prepare (ids : ℕ → ℕ) (req : WriteRequest) : OnConfig κ Unit := do
  if req.rangeRequested then writeRange server req
  executeAll ((queryStatements req).map (queryStatement server ids))

/-- The database, the process and the network as a call finds them. -/
structure ConfigWorld (κ : Type) where
  db : ConfigDb κ
  process : Process
  fates : List Fate

/-- `postgres_ready`. -/
def postgresReady (config : YamlDict) : Bool :=
  !config.isEmpty &&
    ((match config.get "sink" with
      | some (.str s) => s = "postgres"
      | _ => false) ||
      (config.get "postgres").any Yaml.truthy)

/-- The connection `open_golden_conn` returns. -/
def ConfigWorld.link (w : ConfigWorld κ) : Link (ConfigDb κ) Process :=
  ⟨w.db, .idle, w.process, w.fates.tail⟩

/-- `write_flex_config`: what it returns, and the database and the process it leaves. -/
def writeFlexConfig (config : YamlDict) (ids : ℕ → ℕ) (req : WriteRequest) (w : ConfigWorld κ) :
    Bool × ConfigDb κ × Process :=
  if !postgresReady config then (false, w.db, w.process)
  else if req.accounts.any fun accounts => (validAccounts accounts).isEmpty then
    (false, w.db, w.process)
  else if !req.rangeRequested && req.accounts.isNone then (true, w.db, w.process)
  else
    match w.fates.headD .arrives with
    | .lost _ _ => (false, w.db, w.process)
    | .arrives =>
      match Client.run (prepare server ids req >>= fun _ => commit) w.link with
      | (.ok _, l) => (true, l.db, l.memory)
      | (.error _, l) =>
        match Client.run (endRead : OnConfig κ Unit) l with
        | (_, l) => (false, l.db, l.memory)

end Write

/-! ## What a write leaves -/

/-- The tables once everything asked for is stored. -/
def WriteRequest.target (ids : ℕ → ℕ) (req : WriteRequest) (t : ConfigTables) : ConfigTables where
  flexSettings :=
    if req.rangeRequested then
      some (upsertDays req (insertVals req (effectiveDays t.flexSettings)) t.flexSettings)
    else t.flexSettings
  settingsFlex :=
    (queryStatements req).foldl (fun rows s => s.apply ids rows) t.settingsFlex

/-- A half is the one asked for, or what it was. -/
def halfAfter (asked : Option ℤ) (before : ℤ) : ℤ :=
  match asked with
  | some v => max 1 v
  | none => before

theorem effectiveDays_upsert (req : WriteRequest) (settings : Option RangeDays) :
    effectiveDays (some (upsertDays req (insertVals req (effectiveDays settings)) settings)) =
      (halfAfter req.defaultDays (effectiveDays settings).1,
        halfAfter req.initDays (effectiveDays settings).2) := by
  obtain ⟨accounts, days, init⟩ := req
  cases settings <;> cases days <;> cases init <;>
    simp [upsertDays, insertVals, effectiveDays, halfAfter, WriteRequest.daysVal,
      WriteRequest.initVal, DEFAULT_RANGE_DAYS, DEFAULT_INIT_RANGE_DAYS]

/-- An account as `get_flex_config` shows it. -/
def Account.shown (a : Account) : FlexConfigRow where
  queryHostId := strip (a.queryHostId.getD "")
  querySecondaryId := trimmed a.querySecondaryId
  queryLabel := trimmed a.queryLabel
  purpose := some (accountPurpose a)

/-- An account as `config_summary` shows it. -/
def Account.summary (a : Account) : SummaryRow where
  purpose := accountPurpose a
  queryLabel := trimmed a.queryLabel
  queryHostId := strip (a.queryHostId.getD "")
  querySecondaryId := trimmed a.querySecondaryId

/-- Each half that was asked for is read back as at least one day, the other one as before; the rows
are the accounts with a host id, in order, or those that were there. -/
structure ReadsBack (req : WriteRequest) (before after : ConfigTables) : Prop where
  defaultDays : ∀ gs, (getFlexRangeDays (after.over gs)).1 =
    halfAfter req.defaultDays (getFlexRangeDays (before.over gs)).1
  initDays : ∀ gs, (getFlexRangeDays (after.over gs)).2 =
    halfAfter req.initDays (getFlexRangeDays (before.over gs)).2
  rows : getFlexConfigRows after =
    match req.accounts with
    | none => getFlexConfigRows before
    | some accounts => (validAccounts accounts).map Account.shown
  summary : summaryRows after =
    match req.accounts with
    | none => summaryRows before
    | some accounts => (validAccounts accounts).map Account.summary

theorem trimmed_trimmed (v : Option String) : trimmed (trimmed v) = trimmed v := by
  unfold trimmed orNone
  split
  · rfl
  · rename_i h
    simp [strip_strip, h]

theorem trimmed_accountPurpose (a : Account) :
    trimmed (some (accountPurpose a)) = some (accountPurpose a) := by
  unfold accountPurpose
  generalize (a.purpose.bind orNone).getD "cash_transactions" = purpose
  unfold trimmed orNone
  split
  · decide
  · rename_i h
    simp [strip_strip, h]

theorem flexConfigRow_accountRow (a : Account) : flexConfigRow (accountRow a) = a.shown := by
  simp [flexConfigRow, accountRow, Account.shown, strip_strip, trimmed_trimmed,
    trimmed_accountPurpose]

theorem summaryRow_accountRow (a : Account) : summaryRow (accountRow a) = a.summary := by
  simp [summaryRow, accountRow, Account.summary, strip_strip, trimmed_trimmed,
    trimmed_accountPurpose]

/-- The inserts, onto the rows that are there. -/
theorem foldl_inserts (ids : ℕ → ℕ) (rows : List StoredQuery) (xs : List (Account × ℕ)) :
    (xs.map fun a => QueryStatement.insert a.2 (accountRow a.1)).foldl
        (fun rows s => s.apply ids rows) rows =
      rows ++ xs.map fun a => ⟨ids a.2, some a.2, accountRow a.1⟩ := by
  induction xs generalizing rows with
  | nil => simp
  | cons x xs ih => simp [ih]

theorem target_queries {ids : ℕ → ℕ} {req : WriteRequest} {accounts : List Account}
    (h : req.accounts = some accounts) (t : ConfigTables) :
    (req.target ids t).queries = (validAccounts accounts).map accountRow := by
  have hrows : (req.target ids t).settingsFlex = (validAccounts accounts).zipIdx.map fun a =>
      ⟨ids a.2, some a.2, accountRow a.1⟩ := by
    simp only [WriteRequest.target, queryStatements, h, List.foldl_cons,
      QueryStatement.apply_deleteAll]
    rw [foldl_inserts, List.nil_append]
  have hsorted : ((validAccounts accounts).zipIdx.map fun a =>
      (⟨ids a.2, some a.2, accountRow a.1⟩ : StoredQuery)).Pairwise fun a b => a.before b := by
    rw [List.pairwise_map]
    have hplaces : (validAccounts accounts).zipIdx.Pairwise fun a b => a.2 < b.2 := by
      rw [← List.pairwise_map (f := Prod.snd), List.zipIdx_map_snd]
      exact List.pairwise_lt_range'
    refine hplaces.imp fun hlt => ?_
    simp [StoredQuery.before, hlt]
  unfold ConfigTables.queries
  rw [hrows, List.mergeSort_of_pairwise hsorted, List.map_map]
  conv_rhs => rw [← List.zipIdx_map_fst 0 (validAccounts accounts), List.map_map]
  rfl

theorem target_readsBack (ids : ℕ → ℕ) (req : WriteRequest) (t : ConfigTables) :
    ReadsBack req t (req.target ids t) := by
  have hdays : effectiveDays (req.target ids t).flexSettings =
      (halfAfter req.defaultDays (effectiveDays t.flexSettings).1,
        halfAfter req.initDays (effectiveDays t.flexSettings).2) := by
    unfold WriteRequest.target
    split
    · exact effectiveDays_upsert req t.flexSettings
    · rename_i hrange
      simp only [WriteRequest.rangeRequested, Bool.or_eq_true, not_or, Option.not_isSome_iff_eq_none]
        at hrange
      simp [hrange.1, hrange.2, halfAfter]
  have hqueries : req.accounts = none → (req.target ids t).queries = t.queries := by
    intro hnone
    simp [ConfigTables.queries, WriteRequest.target, queryStatements, hnone]
  constructor
  · intro gs
    simp [hdays]
  · intro gs
    simp [hdays]
  · unfold getFlexConfigRows
    cases haccounts : req.accounts with
    | none => rw [hqueries haccounts]
    | some accounts =>
      rw [target_queries haccounts, List.map_map]
      exact List.map_congr_left fun a _ => flexConfigRow_accountRow a
  · unfold summaryRows
    cases haccounts : req.accounts with
    | none => rw [hqueries haccounts]
    | some accounts =>
      rw [target_queries haccounts, List.map_map]
      exact List.map_congr_left fun a _ => summaryRow_accountRow a

/-! ## Up to the commit -/

section Prepare
variable {κ ρ : Type} (server : ConfigServer κ) {t : ConfigTables}

theorem onWorker_tables {q : Query κ ρ} {d work : ConfigDb κ} {rows : ρ}
    (h : onWorker q d = .ok (work, rows)) : work.tables = d.tables := by
  unfold onWorker at h
  cases hq : q d.worker with
  | error e =>
    rw [hq] at h
    cases h
  | ok x =>
    rw [hq] at h
    cases h
    rfl

theorem onWorkerAlone_tables {q : Database κ → Except Raised (Database κ)} {d work : ConfigDb κ}
    (h : onWorkerAlone q d = .ok work) : work.tables = d.tables := by
  unfold onWorkerAlone at h
  cases hq : q d.worker with
  | error e =>
    rw [hq] at h
    cases h
  | ok worker =>
    rw [hq] at h
    cases h
    rfl

theorem onTables_tables {s : ConfigStatement} {f : ConfigTables → ConfigTables}
    {d work : ConfigDb κ} (h : onTables server s f d = .ok work) : work.tables = f d.tables := by
  unfold onTables at h
  split at h
  · cases h
  · cases h
    rfl

theorem triple_schemaStatements (qs : List (Database κ → Except Raised (Database κ))) :
    Triple (Shows ConfigDb.tables t t) (executeAll (qs.map onWorkerAlone) : OnConfig κ Unit)
      (fun _ => Shows ConfigDb.tables t t) (Keeps ConfigDb.tables t) := by
  have hconst : ∀ qs : List (Database κ → Except Raised (Database κ)),
      qs.foldl (fun t _ => t) t = t := by
    intro qs
    induction qs with
    | nil => rfl
    | cons q qs ih => exact ih
  have hkeep : Triple (Shows ConfigDb.tables t t)
      (executeAll (qs.map onWorkerAlone) : OnConfig κ Unit)
      (fun _ => Shows ConfigDb.tables t (qs.foldl (fun t _ => t) t)) (Keeps ConfigDb.tables t) :=
    shows_executeAll (fun _ _ _ h => onWorkerAlone_tables h) qs
  rwa [hconst] at hkeep

/-- The schema's statements and their commit leave the two tables alone. -/
theorem triple_ensureSchema :
    Triple (Shows ConfigDb.tables t t) (ensureSchema server)
      (fun _ => Shows ConfigDb.tables t t) (Keeps ConfigDb.tables t) := by
  unfold ensureSchema
  have hcount : Triple (Shows ConfigDb.tables t t)
      (execute (onWorker (Conn.countTables server.pg)) : OnConfig κ ℕ)
      (fun _ l => Working ConfigDb.tables t t l ∧ True) (Keeps ConfigDb.tables t) :=
    shows_execute fun _ _ _ hd h => ⟨(onWorker_tables h).trans hd, trivial⟩
  refine triple_bind hcount fun present => ?_
  refine triple_bind ((triple_schemaStatements _).weaken (fun _ hl => hl.1.toShows)
    fun _ _ hl => hl) fun _ => ?_
  refine triple_bind (triple_remembered (Q := fun _ => Shows ConfigDb.tables t t)
    fun _ hl => hl) fun p => ?_
  refine triple_bind (triple_schemaStatements _) fun _ => ?_
  refine triple_bind (triple_remember (Q := fun _ => Shows ConfigDb.tables t t)
    fun l hl => ⟨hl.kept, hl.view⟩) fun _ => ?_
  exact shows_commit

theorem triple_endRead :
    Triple (fun l => ConfigDb.tables l.db = t) (endRead : OnConfig κ Unit)
      (fun _ => Shows ConfigDb.tables t t) (Keeps ConfigDb.tables t) :=
  triple_tryCatch shows_rollback fun _ => triple_pure fun _ hl => hl

theorem endRead_tables (l : Link (ConfigDb κ) Process) :
    (Client.run (endRead : OnConfig κ Unit) l).2.db.tables = l.db.tables := by
  have hend := triple_endRead (κ := κ) (t := l.db.tables)
  rcases hrun : Client.run (endRead : OnConfig κ Unit) l with ⟨f | _, l'⟩
  · exact hend.error rfl hrun
  · exact (hend.ok rfl hrun).kept

/-- The read finds what the table shows, and its transaction is ended. -/
theorem triple_readRangeDays :
    Triple (Shows ConfigDb.tables t t) (readRangeDays server)
      (fun days l => Shows ConfigDb.tables t t l ∧ days = effectiveDays t.flexSettings)
      (Keeps ConfigDb.tables t) := by
  have hselect : Triple (Shows ConfigDb.tables t t)
      (execute (selectDays server) : OnConfig κ (ℤ × ℤ))
      (fun days l => Working ConfigDb.tables t t l ∧ days = effectiveDays t.flexSettings)
      (Keeps ConfigDb.tables t) := by
    refine shows_execute fun d work rows hd h => ?_
    unfold selectDays at h
    split at h
    · cases h
    · cases h
      exact ⟨hd, by rw [getFlexRangeDays_over, hd]⟩
  unfold readRangeDays
  refine triple_bind (triple_tryCatch hselect fun f => ?_) fun days => ?_
  · exact triple_bind triple_endRead fun _ _ hl => hl.kept
  · exact triple_bind ((triple_frame fun _ => triple_endRead).weaken
      (fun _ hl => ⟨hl.1.kept, hl.2⟩) fun _ _ hl => hl) fun _ => triple_pure fun _ hl => hl

theorem triple_rangeValues (req : WriteRequest) :
    Triple (Shows ConfigDb.tables t t) (rangeValues server req)
      (fun vals l => Shows ConfigDb.tables t t l ∧
        vals = insertVals req (effectiveDays t.flexSettings)) (Keeps ConfigDb.tables t) := by
  unfold rangeValues
  split
  · rename_i hboth
    refine triple_pure fun l hl => ⟨hl, ?_⟩
    obtain ⟨hdays, hinit⟩ := (Bool.and_eq_true _ _).mp hboth
    obtain ⟨days, hdays⟩ := Option.isSome_iff_exists.mp hdays
    obtain ⟨init, hinit⟩ := Option.isSome_iff_exists.mp hinit
    simp [insertVals, hdays, hinit]
  · refine triple_bind (triple_readRangeDays server) fun days => triple_pure fun l hl => ?_
    exact ⟨hl.1, by rw [hl.2]⟩

/-- The tables with the range days that are asked for. -/
def upserted (req : WriteRequest) (t : ConfigTables) : ConfigTables :=
  { t with
    flexSettings :=
      some (upsertDays req (insertVals req (effectiveDays t.flexSettings)) t.flexSettings) }

theorem triple_writeRange (req : WriteRequest) :
    Triple (Shows ConfigDb.tables t t) (writeRange server req)
      (fun _ => Working ConfigDb.tables t (upserted req t)) (Keeps ConfigDb.tables t) := by
  unfold writeRange
  refine triple_bind (triple_ensureSchema server) fun _ => ?_
  refine triple_bind (triple_rangeValues server req) fun vals => ?_
  have hupsert : Triple (Shows ConfigDb.tables t t)
      (executeAll ([vals].map (upsertStatement server req)) : OnConfig κ Unit)
      (fun _ => Working ConfigDb.tables t
        { t with flexSettings := some (upsertDays req vals t.flexSettings) })
      (Keeps ConfigDb.tables t) :=
    shows_executeAll_cons (fun _ _ _ h => onTables_tables server h) vals []
  refine (triple_frame fun _ => hupsert).weaken (fun _ hl => hl) ?_
  rintro _ l ⟨hworking, rfl⟩
  exact hworking

/-- The tables after the statements of the accounts. -/
def queried (ids : ℕ → ℕ) (ss : List QueryStatement) (t : ConfigTables) : ConfigTables :=
  { t with settingsFlex := ss.foldl (fun rows s => s.apply ids rows) t.settingsFlex }

theorem queried_foldl (ids : ℕ → ℕ) (ss : List QueryStatement) (t : ConfigTables) :
    ss.foldl (fun t s => { t with settingsFlex := s.apply ids t.settingsFlex }) t =
      queried ids ss t := by
  induction ss generalizing t with
  | nil => rfl
  | cons s ss ih => exact ih _

/-- Up to the commit the tables are as they were, and the transaction shows what was asked for. -/
theorem triple_prepare (ids : ℕ → ℕ) {req : WriteRequest}
    (hreq : req.rangeRequested = true ∨ req.accounts.isSome = true) :
    Triple (Shows ConfigDb.tables t t) (prepare server ids req)
      (fun _ => Working ConfigDb.tables t (req.target ids t)) (Keeps ConfigDb.tables t) := by
  have hquery : ∀ (s : QueryStatement) (d work : ConfigDb κ),
      queryStatement server ids s d = .ok work →
        work.tables = { d.tables with settingsFlex := s.apply ids d.tables.settingsFlex } :=
    fun _ _ _ h => onTables_tables server h
  unfold prepare
  by_cases hrange : req.rangeRequested = true
  · rw [if_pos hrange]
    refine triple_bind (triple_writeRange server req) fun _ => ?_
    have htarget : req.target ids t = queried ids (queryStatements req) (upserted req t) := by
      simp [WriteRequest.target, upserted, queried, hrange]
    rw [htarget, ← queried_foldl]
    exact working_executeAll hquery (queryStatements req)
  · rw [if_neg hrange]
    obtain ⟨accounts, haccounts⟩ := Option.isSome_iff_exists.mp (hreq.resolve_left hrange)
    obtain ⟨s, ss, hss⟩ : ∃ s ss, queryStatements req = s :: ss := by
      simp [queryStatements, haccounts]
    have htarget : req.target ids t = queried ids (queryStatements req) t := by
      simp [WriteRequest.target, queried, hrange]
    rw [htarget, ← queried_foldl, hss]
    exact shows_executeAll_cons hquery s ss

end Prepare

/-! ## All or nothing -/

/-- What `core_config` returns is ready. -/
theorem coreConfig_ready {env : Environ} {data core : YamlDict}
    (h : coreConfig env data = .ok core) : postgresReady core = true := by
  simp only [coreConfig, bind, Except.bind, pure, Except.pure] at h
  split at h
  · cases h
  · split at h
    · cases h
    · cases h
      have hsink : ∀ core : YamlDict, core.get "sink" = some (.str "postgres") →
          postgresReady core = true := by
        intro core hsink
        cases core with
        | nil => cases hsink
        | cons e core => simp [postgresReady, hsink]
      refine hsink _ ?_
      split <;> simp

section Write
variable {κ : Type} (server : ConfigServer κ) (ids : ℕ → ℕ) (req : WriteRequest)
  (w : ConfigWorld κ)

/-- The connection cannot be opened, or a statement before the commit raises. -/
def Raises : Prop :=
  (∃ text carriedOut, w.fates.headD .arrives = .lost text carriedOut) ∨
    ∃ f, (Client.run (prepare server ids req) w.link).1 = .error f

/-- The commit, once it is sent, arrives. -/
def CommitArrives : Prop :=
  ∀ l, Client.run (prepare server ids req) w.link = (.ok (), l) → l.fate = .arrives

variable {server ids req w}

/-- **All or nothing.**  Whatever the tables hold, a call that asks for something and in which a
statement raises returns `False` and leaves them as they were; any other one returns `True`, and
both readers show what was asked for. -/
theorem write_all_or_nothing {config : YamlDict} (hready : postgresReady config = true)
    (hreq : req.rangeRequested = true ∨ req.accounts.isSome = true)
    (haccounts : ∀ accounts, req.accounts = some accounts →
      ∃ a ∈ accounts, strip (a.queryHostId.getD "") ≠ "")
    (hcommit : CommitArrives server ids req w) :
    (Raises server ids req w ∧ (writeFlexConfig server config ids req w).1 = false ∧
      (writeFlexConfig server config ids req w).2.1.tables = w.db.tables) ∨
    (¬ Raises server ids req w ∧ (writeFlexConfig server config ids req w).1 = true ∧
      ReadsBack req w.db.tables (writeFlexConfig server config ids req w).2.1.tables) := by
  have hvalid : ¬ (req.accounts.any fun accounts => (validAccounts accounts).isEmpty) = true := by
    cases h : req.accounts with
    | none => simp
    | some accounts =>
      obtain ⟨a, ha, hhost⟩ := haccounts accounts h
      rw [Option.any_some, List.isEmpty_iff, validAccounts, List.filter_eq_nil_iff]
      intro hall
      exact hall a ha (decide_eq_true hhost)
  have hasked : ¬ (!req.rangeRequested && req.accounts.isNone) = true := by
    rcases hreq with h | h
    · simp [h]
    · simp [Option.isSome_iff_ne_none.mp h]
  unfold writeFlexConfig
  rw [hready, Bool.not_true, if_neg Bool.false_ne_true, if_neg hvalid, if_neg hasked]
  cases hopen : w.fates.headD .arrives with
  | lost text carriedOut => exact Or.inl ⟨Or.inl ⟨text, carriedOut, hopen⟩, rfl, rfl⟩
  | arrives =>
    have hprepare := triple_prepare server ids hreq (t := w.db.tables)
    have hstart : Shows ConfigDb.tables w.db.tables w.db.tables w.link := Shows.idle rfl rfl
    simp only [run_bind]
    rcases hrun : Client.run (prepare server ids req) w.link with ⟨f | _, l⟩
    · have hkept : l.db.tables = w.db.tables := hprepare.error hstart hrun
      exact Or.inl ⟨Or.inr ⟨f, by rw [hrun]⟩, rfl, (endRead_tables l).trans hkept⟩
    · obtain ⟨⟨_, hview⟩, work, hwork⟩ := hprepare.ok hstart hrun
      have htables : work.tables = req.target ids w.db.tables :=
        hview work (by rw [Link.view, hwork])
      simp only [run_commit hwork, hcommit l hrun]
      refine Or.inr ⟨?_, trivial, ?_⟩
      · rintro (⟨text, carriedOut, hlost⟩ | ⟨f, hraised⟩)
        · rw [hopen] at hlost
          cases hlost
        · rw [hrun] at hraised
          cases hraised
      · exact htables ▸ target_readsBack ids req w.db.tables

end Write

/-- A server that rejects nothing, on a database with the queue's tables. -/
def willingServer : ConfigServer Unit where
  pg := ⟨fun _ _ => none, fun _ => 2, fun c _ => c⟩
  rejects := fun _ _ => none

/-- No range days are stored yet, and one query. -/
def firstConfig : ConfigWorld Unit where
  db := {
    worker := ⟨JobTable.empty, none, ()⟩
    tables := ⟨none, [⟨1, some 0, ⟨some "111", none, none, some "trades"⟩⟩]⟩ }
  process := ⟨false⟩
  fates := []

/-- Fourteen days, and one account among two items that has a host id. -/
def fourteenDays : WriteRequest where
  accounts := some [⟨some " 222 ", none, some "", none⟩, ⟨some " ", none, none, none⟩]
  defaultDays := some 14
  initDays := none

/-- Nothing raises: the days are 14 and the default 360, the account is the only row. -/
theorem write_fourteenDays :
    ReadsBack fourteenDays firstConfig.db.tables
      (writeFlexConfig willingServer [("sink", .str "postgres")] id fourteenDays
        firstConfig).2.1.tables := by
  have hfates : (Client.run (prepare willingServer id fourteenDays)
      firstConfig.link).2.fates.isEmpty = true := by
    decide +kernel
  have htrue : (writeFlexConfig willingServer [("sink", .str "postgres")] id fourteenDays
      firstConfig).1 = true := by
    decide +kernel
  have hcommit : CommitArrives willingServer id fourteenDays firstConfig := by
    intro l hl
    rw [hl, List.isEmpty_iff] at hfates
    rw [Link.fate, hfates]
    rfl
  have hhost : ∀ accounts, fourteenDays.accounts = some accounts →
      ∃ a ∈ accounts, strip (a.queryHostId.getD "") ≠ "" := by
    intro accounts h
    cases h
    exact ⟨_, List.mem_cons_self, by decide⟩
  have hready : postgresReady [("sink", .str "postgres")] = true := by decide
  rcases write_all_or_nothing hready (Or.inl rfl) hhost hcommit with
    ⟨_, hfalse, _⟩ | ⟨_, _, hreads⟩
  · rw [htrue] at hfalse
    cases hfalse
  · exact hreads

end FlexQuery
