import FlexQuery.Orchestration.Run

/-!
# The flex-trades run

`fetch_flex_trades_and_upsert_executions` of `orchestration/trades.py`.

* `scheduledTradesWindow`, `tradesWindow` — what the run asks for; one window, never split.
* `fetchTradesWithDateFallback` — one query: the dates, the query default, `period=5`.
* `rowsSpan` — first and last day of some rows.
* `fetchFlexTradesAndUpsertExecutions` — every query, then one write.
* `scheduledTradesWindow_reaches_iff` — when the scheduled window reaches back to a day.
* `scheduled_trades_ok` — what a scheduled run that ends well has asked for and left behind.
-/

set_option autoImplicit false

namespace FlexQuery

open Visit

/-- The window of a scheduled run: back from the newest stored trade date. -/
def scheduledTradesWindow (gs : GoldenSource) (today : Date) : Except PyExc Window :=
  let stats := getFlexExecutionsStats gs
  let rangeDays := getFlexRangeDays gs
  match today.addDays (-1) with
  | .error e => .error e
  | .ok yesterday =>
    match if stats.count = 0 then none else stats.maxDate with
    | none =>
      match yesterday.addDays (-rangeDays.2) with
      | .error e => .error e
      | .ok start => .ok ⟨start, yesterday, .init, rangeDays.2⟩
    | some lastDate =>
      let totalDays := max 0 (yesterday.daysSince lastDate) + rangeDays.1
      match yesterday.addDays (-totalDays) with
      | .error e => .error e
      | .ok start => .ok ⟨start, yesterday, .incremental, totalDays⟩

/-- The window of a run: the payload's, or the scheduled one when it names no date. -/
def tradesWindow (payload : Dict) (gs : GoldenSource) (today : Date) : Except PyExc Requested :=
  match optionalText payload "from_date", optionalText payload "to_date" with
  | .error e, _ => .error e
  | .ok _, .error e => .error e
  | .ok none, .ok none =>
    match scheduledTradesWindow gs today with
    | .error e => .error e
    | .ok w => .ok ⟨some (strftimeYmd w.start), some (strftimeYmd w.stop), w.mode, some w.days⟩
  | .ok fromDate, .ok toDate => .ok ⟨fromDate, toDate, .manual, none⟩

/-- A configured query of a run. -/
structure TradesEntry where
  token : String
  queryId : String
  role : String
  queryLabel : Option String
  deriving DecidableEq, Repr

def tradesEntries (env : Env) (gs : GoldenSource) : List TradesEntry :=
  ((getFlexConfig env.tokens "trades" gs).map fun a =>
    { token := strip a.token
      queryId := strip a.queryId
      role := (orNone (strip a.role)).getD "unknown"
      queryLabel := (a.queryLabel.map strip).bind orNone }).filter
    fun e => e.token ≠ "" ∧ e.queryId ≠ ""

/-- One query of a run, counted from zero, and the dates it is asked for. -/
structure TradesRequest where
  index : ℕ
  entry : TradesEntry
  fromDate : Option String
  toDate : Option String
  deriving DecidableEq, Repr

def tradesRequests (entries : List TradesEntry) (req : Requested) : List TradesRequest :=
  entries.zipIdx.map fun e => ⟨e.2, e.1, req.fromDate, req.toDate⟩

theorem mem_tradesRequests {entries : List TradesEntry} {req : Requested} {r : TradesRequest}
    (h : r ∈ tradesRequests entries req) :
    r.entry ∈ entries ∧ r.fromDate = req.fromDate ∧ r.toDate = req.toDate := by
  obtain ⟨e, he, rfl⟩ := List.mem_map.mp h
  exact ⟨(List.mem_zipIdx' he).2 ▸ List.getElem_mem _, rfl, rfl⟩

theorem exists_tradesRequest {entries : List TradesEntry} (req : Requested) {e : TradesEntry}
    (h : e ∈ entries) : ∃ i, ⟨i, e, req.fromDate, req.toDate⟩ ∈ tradesRequests entries req := by
  obtain ⟨i, hi, he⟩ := List.getElem_of_mem h
  exact ⟨i, List.mem_map.mpr ⟨(e, i), List.mk_mem_zipIdx_iff_getElem?.mpr (by simp [hi, he]), rfl⟩⟩

/-! ## One query -/

inductive FallbackKind where
  | queryDefaultAfter1003
  | queryDefaultAfterEmpty
  | period5AfterEmptyOr1003
  deriving DecidableEq, Repr

def FallbackKind.text : FallbackKind → String
  | queryDefaultAfter1003 => "query_default_after_1003"
  | queryDefaultAfterEmpty => "query_default_after_empty"
  | period5AfterEmptyOr1003 => "period5_after_empty_or_1003"

/-- `(rows, used_fallback, fallback_kind)`. -/
abbrev Fetched := List TradeRow × Bool × Option FallbackKind

/-- `fetch_trades`. -/
def fetchTrades (env : Env) (token queryId : String) (fromDate toDate : Option String)
    (period : Option ℤ) (w : Wire) : Except PyExc (List TradeRow) × Wire :=
  fetchReport env.flex env.parseTradesXml token queryId fromDate toDate period w

/-- The last step, `period=5`. -/
def fetchPeriod5 (env : Env) (token queryId : String) (primary : Option String) (w : Wire) :
    Except PyExc Fetched × Wire :=
  match fetchTrades env token queryId none none (some 5) w with
  | (.error (.other cls msg), w') => (.error (.other cls msg), w')
  | (.error (.valueError e), w') =>
    match primary with
    | some p => (.error (.valueError
        (p ++ "; fallback query-default/period=5 also failed: " ++ e)), w')
    | none => (.error (.valueError e), w')
  | (.ok rows, w') =>
    if rows ≠ [] then (.ok (rows, true, some .period5AfterEmptyOr1003), w')
    else
      match primary with
      | some p => (.error (.valueError p), w')
      | none => (.ok (rows, false, none), w')

/-- The second step, the query's own period. -/
def fetchQueryDefault (env : Env) (token queryId : String) (primary : Option String) (w : Wire) :
    Except PyExc Fetched × Wire :=
  match fetchTrades env token queryId none none none w with
  | (.error (.other cls msg), w') => (.error (.other cls msg), w')
  | (.error (.valueError e), w') => fetchPeriod5 env token queryId (some (primary.getD e)) w'
  | (.ok rows, w') =>
    if rows ≠ [] then
      (.ok (rows, true, some (if primary.isSome then .queryDefaultAfter1003
        else .queryDefaultAfterEmpty)), w')
    else fetchPeriod5 env token queryId primary w'

/-- `_fetch_trades_with_date_fallback`. -/
def fetchTradesWithDateFallback (env : Env) (token queryId : String)
    (fromDate toDate : Option String) (fallback : Bool) (w : Wire) : Except PyExc Fetched × Wire :=
  match fetchTrades env token queryId fromDate toDate none w with
  | (.error (.other cls msg), w') => (.error (.other cls msg), w')
  | (.error (.valueError e), w') =>
    if given fromDate && given toDate && statementUnavailable e && fallback then
      fetchQueryDefault env token queryId (some e) w'
    else (.error (.valueError e), w')
  | (.ok rows, w') =>
    if rows ≠ [] ∨ fallback = false then (.ok (rows, false, none), w')
    else fetchQueryDefault env token queryId none w'

/-- One turn of the query loop: a `ValueError` is caught, anything else is not. -/
def fetchQuery (env : Env) (fallback : Bool) (req : TradesRequest) (w : Wire) :
    Outcome Fetched PyExc × Wire :=
  match fetchTradesWithDateFallback env req.entry.token req.entry.queryId req.fromDate req.toDate
      fallback w with
  | (.ok fetched, w') => (.ok fetched, w')
  | (.error (.valueError e), w') => (.failed e, w')
  | (.error (.other cls msg), w') => (.escaped (.other cls msg), w')

abbrev TradesTurn := RunTurn TradesRequest Fetched

/-! ## The result -/

/-- The UTC day of a Unix time; `719163` is 1970-01-01. -/
def dayOfUnix (t : ℤ) : Option Date :=
  if h : 1 ≤ 719163 + t / 86400 ∧ 719163 + t / 86400 ≤ 3652059 then
    some ⟨719163 + t / 86400, h.1, h.2⟩
  else none

/-- The day `rows_span` reads off a row. -/
def rowDay (r : TradeRow) : Option Date :=
  ((r.time.bind dayOfUnix).or r.tradeDate).or r.reportDate

/-- `rows_span`, as days. -/
def rowsSpan (rows : List TradeRow) : Option Date × Option Date :=
  ((rows.filterMap rowDay).min?, maxDate (rows.filterMap rowDay))

/-- An item of `per_query`. -/
structure QueryReport where
  role : String
  queryId : String
  label : Option String
  rows : ℕ
  dataFrom : Option Date
  dataTo : Option Date
  usedFallback : Bool
  fallbackKind : Option FallbackKind
  deriving DecidableEq, Repr

/-- The returned dictionary; what a return leaves out is none, and no errors. -/
structure TradesResult where
  ok : Bool
  count : ℕ
  error : Option String := none
  message : Option String := none
  errors : List String := []
  byAccount : Option ℕ := none
  byAccountCounts : List ℤ := []
  dataFrom : Option String := none
  dataTo : Option String := none
  rawCount : Option ℕ := none
  perQuery : List QueryReport := []
  updatedAccounts : Option ℕ := none
  range : Option Requested := none
  lastFlexDateAfter : Option String := none
  deriving DecidableEq, Repr

/-- `{"ok": False, "error": …, "count": 0}`. -/
def TradesResult.refused (error : String) : TradesResult :=
  { ok := false, count := 0, error := error }

/-- A run: its result, its turns, and the wire and the store it leaves. -/
structure TradesRun where
  result : TradesResult
  turns : List TradesTurn
  wire : Wire
  store : GoldenSource

def noTradesCredentials : String :=
  "No Flex credentials for trades: set FLEX_HOST_TOKEN / FLEX_SECONDARY_TOKEN " ++
    "(K8s Secret bifrost-flex-tokens) and purpose=trades query_id rows " ++
    "(Settings → IB Connection → Flex Query IDs, or Ops Console Flex Plugin)."

/-- `all_rows`. -/
def tradeRows (turns : List TradesTurn) : List TradeRow :=
  turns.flatMap fun t => (t.outcome.ok?.map (·.1)).getD []

/-- `errors`. -/
def tradesErrors (nEntries : ℕ) (turns : List TradesTurn) : List String :=
  (failures turns).map fun f =>
    "Flex query " ++ toString (f.1.index + 1) ++ "/" ++ toString nEntries ++ " (" ++
      f.1.entry.role ++ " " ++ f.1.entry.queryId ++ "): " ++ f.2

/-- `rows_per_fetch`. -/
def rowsPerFetch (turns : List TradesTurn) : List ℤ :=
  turns.map fun t => (t.outcome.ok?.map fun f => (f.1.length : ℤ)).getD (-1)

/-- `per_query`. -/
def perQuery (turns : List TradesTurn) : List QueryReport :=
  turns.filterMap fun t => t.outcome.ok?.map fun f =>
    { role := t.key.entry.role
      queryId := t.key.entry.queryId
      label := t.key.entry.queryLabel
      rows := f.1.length
      dataFrom := (rowsSpan f.1).1
      dataTo := (rowsSpan f.1).2
      usedFallback := f.2.1
      fallbackKind := f.2.2 }

/-- The accounts of some rows. -/
def affectedAccounts (rows : List TradeRow) : List String :=
  ((rows.map fun r => strip r.accountId).filter (· ≠ "")).dedup

/-- The hint about a first query without trades. -/
def hostHint (entries : List TradesEntry) (counts : List ℤ) : String :=
  match counts, entries with
  | c :: others, e :: _ =>
    if c = 0 ∧ (others = [] ∨ others.any (· > 0)) then
      " Host (Query ID " ++ e.queryId ++
        ") returned 0 trades; in Settings > IB Connection > Flex ensure the " ++
        "purpose=trades row uses a Query that includes Activity > Trades and the " ++
        "date range covers your trades."
    else ""
  | _, _ => ""

/-- The message of a run that wrote something. -/
def tradesMessage (entries : List TradesEntry) (rows : List TradeRow) (counts : List ℤ)
    (lastAfter dataFrom dataTo : Option String) (errors : List String) : String :=
  "Upserted " ++ toString rows.length ++ " execution(s) from " ++ toString entries.length ++
    " Flex account config row(s); affected " ++ toString (affectedAccounts rows).length ++
    " account(s)." ++
  (match lastAfter with
    | some d => " Latest Flex execution date after update: " ++ d ++ "."
    | none => "") ++
  (match dataFrom, dataTo with
    | some a, some b => " Flex data time span: " ++ a ++ " .. " ++ b ++ "."
    | _, _ => "") ++
  hostHint entries counts ++
  (if errors ≠ [] then " Partial errors: " ++ joined errors else "")

/-- What follows the query loop: at most one write, and the result. -/
def finishTrades (env : Env) (entries : List TradesEntry) (req : Requested)
    (turns : List TradesTurn) (gs : GoldenSource) : TradesResult × GoldenSource :=
  match escapedOf turns with
  | some e => (.refused e.str, gs)
  | none =>
    let rows := tradeRows turns
    let errors := tradesErrors entries.length turns
    let counts := rowsPerFetch turns
    let dataFrom := ((perQuery turns).filterMap QueryReport.dataFrom).min?.map (isoformat ·.civil)
    let dataTo := (maxDate ((perQuery turns).filterMap QueryReport.dataTo)).map (isoformat ·.civil)
    if rows = [] then
      if errors ≠ [] then
        ({ ok := false, count := 0, error := joined errors, byAccount := entries.length
           byAccountCounts := counts }, gs)
      else
        ({ ok := true, count := 0, message := "No trades in Flex report.", errors := errors
           byAccount := entries.length, byAccountCounts := counts, rawCount := some 0
           perQuery := perQuery turns, range := some { req with days := none } }, gs)
    else
      match env.writeAccountExecutionsToDb rows gs with
      | (.error e, gs') => (.refused e.str, gs')
      | (.ok false, gs') =>
        ({ ok := false, count := 0, error := "Failed to write account_executions."
           rawCount := rows.length, dataFrom := dataFrom, dataTo := dataTo
           byAccount := entries.length, byAccountCounts := counts, perQuery := perQuery turns
           range := req }, gs')
      | (.ok true, gs') =>
        let lastAfter := (getFlexExecutionsStats gs').maxDate.map (isoformat ·.civil)
        ({ ok := true, count := rows.length, rawCount := rows.length
           message := tradesMessage entries rows counts lastAfter dataFrom dataTo errors
           errors := errors, byAccount := entries.length, byAccountCounts := counts
           perQuery := perQuery turns, updatedAccounts := (affectedAccounts rows).length
           range := req, lastFlexDateAfter := lastAfter, dataFrom := dataFrom
           dataTo := dataTo }, gs')

/-- The run once its window is known. -/
def runTrades (env : Env) (fallback : Bool) (entries : List TradesEntry) (req : Requested)
    (gs : GoldenSource) (w : Wire) : TradesRun :=
  let visited := visit (fetchQuery env fallback) (tradesRequests entries req) w
  let finished := finishTrades env entries req visited.1 gs
  ⟨finished.1, visited.1, visited.2, finished.2⟩

/-- `fetch_flex_trades_and_upsert_executions`. -/
def fetchFlexTradesAndUpsertExecutions (env : Env) (payload : Dict) (today : Date)
    (gs : GoldenSource) (w : Wire) : TradesRun :=
  if env.postgresReady = false then
    ⟨.refused "PostgreSQL is required to write account_executions.", [], w, gs⟩
  else
    let entries := tradesEntries env gs
    if entries = [] then ⟨.refused noTradesCredentials, [], w, gs⟩
    else
      match tradesWindow payload gs today with
      | .error e => ⟨.refused e.str, [], w, gs⟩
      | .ok req => runTrades env (allowFallback payload) entries req gs w

/-! ## The scheduled window -/

/-- The first day of the scheduled window that ends on day `y`. -/
def tradesStart (gs : GoldenSource) (y : ℤ) : ℤ :=
  match maxDate (flexDates gs) with
  | none => y - (getFlexRangeDays gs).2
  | some m => min y m.ord - (getFlexRangeDays gs).1

/-- No Flex execution, or none with a trade date. -/
theorem newest_eq (gs : GoldenSource) :
    (if (getFlexExecutionsStats gs).count = 0 then none else (getFlexExecutionsStats gs).maxDate) =
      maxDate (flexDates gs) := by
  split
  · rename_i h
    have hnil : flexExecutions gs = [] := List.length_eq_zero_iff.mp h
    rw [flexDates, hnil]
    rfl
  · rfl

theorem scheduledTradesWindow_ok {gs : GoldenSource} {today : Date} {w : Window}
    (h : scheduledTradesWindow gs today = .ok w) :
    w.stop.ord = today.ord - 1 ∧ w.start.ord = tradesStart gs (today.ord - 1) := by
  unfold scheduledTradesWindow at h
  simp only [newest_eq] at h
  unfold tradesStart
  cases hy : today.addDays (-1) with
  | error e =>
    rw [hy] at h
    cases h
  | ok yesterday =>
    have hyord := Date.addDays_eq_ok.mp hy
    rw [hy] at h
    cases hm : maxDate (flexDates gs) with
    | none =>
      simp only [hm] at h
      split at h
      · cases h
      · rename_i start hs
        cases h
        have hsord := Date.addDays_eq_ok.mp hs
        exact ⟨hyord, by simp only; omega⟩
    | some m =>
      simp only [hm] at h
      split at h
      · cases h
      · rename_i start hs
        cases h
        have hsord := Date.addDays_eq_ok.mp hs
        simp only [Date.daysSince] at hsord
        exact ⟨hyord, by simp only; omega⟩

theorem scheduledTradesWindow_isOk {gs : GoldenSource} {today : Date}
    (h : 1 ≤ tradesStart gs (today.ord - 1)) : ∃ w, scheduledTradesWindow gs today = .ok w := by
  obtain ⟨hdef, hinit⟩ := getFlexRangeDays_pos gs
  have hmax := today.le_max
  have hpos : 1 ≤ today.ord - 1 := by
    unfold tradesStart at h
    split at h <;> omega
  obtain ⟨yesterday, hy, hyord⟩ := today.addDays_isOk (n := -1) (by omega) (by omega)
  unfold scheduledTradesWindow
  simp only [newest_eq, hy]
  unfold tradesStart at h
  cases hm : maxDate (flexDates gs) with
  | none =>
    simp only [hm] at h
    obtain ⟨start, hs, _⟩ :=
      yesterday.addDays_isOk (n := -(getFlexRangeDays gs).2) (by omega) (by omega)
    simp only [hs]
    exact ⟨_, rfl⟩
  | some m =>
    simp only [hm] at h
    obtain ⟨start, hs, _⟩ := yesterday.addDays_isOk
      (n := -(max 0 (yesterday.daysSince m) + (getFlexRangeDays gs).1))
      (by simp only [Date.daysSince]; omega) (by simp only [Date.daysSince]; omega)
    simp only [hs]
    exact ⟨_, rfl⟩

/-- When a scheduled window reaches back to a day. -/
theorem scheduledTradesWindow_reaches_iff {gs : GoldenSource} {today : Date} {a : ℤ} :
    (∃ w, scheduledTradesWindow gs today = .ok w ∧ w.start.ord ≤ a) ↔
      1 ≤ tradesStart gs (today.ord - 1) ∧ tradesStart gs (today.ord - 1) ≤ a := by
  constructor
  · rintro ⟨w, hw, hle⟩
    obtain ⟨_, hstart⟩ := scheduledTradesWindow_ok hw
    have hpos := w.start.one_le
    omega
  · rintro ⟨hpos, hle⟩
    obtain ⟨w, hw⟩ := scheduledTradesWindow_isOk hpos
    exact ⟨w, hw, (scheduledTradesWindow_ok hw).2.trans_le hle⟩

theorem tradesWindow_scheduled {payload : Dict} {gs : GoldenSource} {today : Date}
    {req : Requested} (hfrom : optionalText payload "from_date" = .ok none)
    (hto : optionalText payload "to_date" = .ok none)
    (h : tradesWindow payload gs today = .ok req) :
    ∃ w, scheduledTradesWindow gs today = .ok w ∧
      req = ⟨some (strftimeYmd w.start), some (strftimeYmd w.stop), w.mode, some w.days⟩ := by
  simp only [tradesWindow, hfrom, hto] at h
  split at h
  · cases h
  · rename_i w hw
    cases h
    exact ⟨w, hw, rfl⟩

/-! ## What a run that ends well has done -/

theorem finishTrades_ok {env : Env} {entries : List TradesEntry} {req : Requested}
    {turns : List TradesTurn} {gs : GoldenSource}
    (h : (finishTrades env entries req turns gs).1.ok = true) :
    escapedOf turns = none ∧
      ((tradeRows turns = [] ∧ (finishTrades env entries req turns gs).2 = gs) ∨
        env.writeAccountExecutionsToDb (tradeRows turns) gs =
          (.ok true, (finishTrades env entries req turns gs).2)) := by
  unfold finishTrades at h ⊢
  cases hesc : escapedOf turns with
  | some e =>
    rw [hesc] at h
    cases h
  | none =>
    rw [hesc] at h
    refine ⟨rfl, ?_⟩
    simp only at h ⊢
    by_cases hrows : tradeRows turns = []
    · rw [if_pos hrows] at h ⊢
      split at h
      · cases h
      · rename_i herr
        rw [if_neg herr]
        exact Or.inl ⟨hrows, rfl⟩
    · rw [if_neg hrows] at h ⊢
      apply Or.inr
      cases hup : env.writeAccountExecutionsToDb (tradeRows turns) gs with
      | mk res gs' =>
        rw [hup] at h
        cases res with
        | error e => cases h
        | ok written =>
          cases written with
          | false => cases h
          | true => rfl

/-- What `finishTrades` reports of the failures, when the run ends well. -/
theorem finishTrades_errors {env : Env} {entries : List TradesEntry} {req : Requested}
    {turns : List TradesTurn} {gs : GoldenSource}
    (h : (finishTrades env entries req turns gs).1.ok = true) :
    (finishTrades env entries req turns gs).1.errors = tradesErrors entries.length turns := by
  unfold finishTrades at h ⊢
  cases hesc : escapedOf turns with
  | some e =>
    rw [hesc] at h
    cases h
  | none =>
    rw [hesc] at h
    simp only at h ⊢
    split at h
    · rename_i hrows
      rw [if_pos hrows]
      split at h
      · cases h
      · rename_i herr
        rw [if_neg herr]
    · rename_i hrows
      rw [if_neg hrows]
      cases hup : env.writeAccountExecutionsToDb (tradeRows turns) gs with
      | mk res gs' =>
        rw [hup] at h
        cases res with
        | error e => cases h
        | ok written =>
          cases written with
          | false => cases h
          | true => rfl

/-- A run is turned away before its first request, or its window is known and it visits every
query. -/
theorem trades_run_cases (env : Env) (payload : Dict) (today : Date) (gs : GoldenSource)
    (w : Wire) :
    (∃ why, fetchFlexTradesAndUpsertExecutions env payload today gs w =
      ⟨.refused why, [], w, gs⟩) ∨
    ∃ req, tradesWindow payload gs today = .ok req ∧
      fetchFlexTradesAndUpsertExecutions env payload today gs w =
        runTrades env (allowFallback payload) (tradesEntries env gs) req gs w := by
  unfold fetchFlexTradesAndUpsertExecutions
  split
  · exact Or.inl ⟨_, rfl⟩
  · simp only
    split
    · exact Or.inl ⟨_, rfl⟩
    · cases hwin : tradesWindow payload gs today with
      | error e => exact Or.inl ⟨_, rfl⟩
      | ok req => exact Or.inr ⟨req, rfl, rfl⟩

/-- A run that ends well: what it asked for, its turns, which are one for each query, and the store,
as the writer left it or as it was when no row came. -/
theorem trades_run_ok {env : Env} {payload : Dict} {today : Date} {gs : GoldenSource} {w : Wire}
    (h : (fetchFlexTradesAndUpsertExecutions env payload today gs w).result.ok = true) :
    ∃ req, tradesWindow payload gs today = .ok req ∧
      let run := fetchFlexTradesAndUpsertExecutions env payload today gs w
      run = runTrades env (allowFallback payload) (tradesEntries env gs) req gs w ∧
      run.turns.map Turn.key = tradesRequests (tradesEntries env gs) req ∧
      run.result.errors = tradesErrors (tradesEntries env gs).length run.turns ∧
      ((tradeRows run.turns = [] ∧ run.store = gs) ∨
        env.writeAccountExecutionsToDb (tradeRows run.turns) gs = (.ok true, run.store)) := by
  rcases trades_run_cases env payload today gs w with ⟨why, hrun⟩ | ⟨req, hwin, hrun⟩
  · rw [hrun] at h
    cases h
  · rw [hrun] at h ⊢
    obtain ⟨hesc, hstore⟩ := finishTrades_ok h
    exact ⟨req, hwin, rfl, (visit_keys _ _).2 hesc, finishTrades_errors h, hstore⟩

/-- A scheduled run that ends well: its window, which every query was asked for, and the store,
as the writer left it or as it was when no row came. -/
theorem scheduled_trades_ok {env : Env} {payload : Dict} {today : Date} {gs : GoldenSource}
    {w : Wire} (hfrom : optionalText payload "from_date" = .ok none)
    (hto : optionalText payload "to_date" = .ok none)
    (h : (fetchFlexTradesAndUpsertExecutions env payload today gs w).result.ok = true) :
    ∃ win, scheduledTradesWindow gs today = .ok win ∧
      let run := fetchFlexTradesAndUpsertExecutions env payload today gs w
      run.turns.map Turn.key = tradesRequests (tradesEntries env gs)
        ⟨some (strftimeYmd win.start), some (strftimeYmd win.stop), win.mode, some win.days⟩ ∧
      ((tradeRows run.turns = [] ∧ run.store = gs) ∨
        env.writeAccountExecutionsToDb (tradeRows run.turns) gs = (.ok true, run.store)) := by
  obtain ⟨req, hwin, _, hkeys, _, hstore⟩ := trades_run_ok h
  obtain ⟨win, hsched, rfl⟩ := tradesWindow_scheduled hfrom hto hwin
  exact ⟨win, hsched, hkeys, hstore⟩

end FlexQuery
