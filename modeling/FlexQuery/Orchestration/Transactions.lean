import FlexQuery.Orchestration.Run

/-!
# The flex-transactions run

`fetch_cash_transactions_from_flex` of `orchestration/transactions.py`.

* `scheduledWindow`, `cashWindow`, `requestChunks` — what the run asks for.
* `fetchChunk` — one query id and chunk, with the widening of a manual run.
* `fetchCashTransactionsFromFlex` — every query id and chunk, then one write.
* `scheduled_run_ok` — what a scheduled run that ends well has asked for and left behind.
-/

set_option autoImplicit false

namespace FlexQuery

open Visit

/-- `_scheduled_window`. -/
def scheduledWindow (gs : GoldenSource) (today : Date) : Except PyExc Window :=
  transactionsWindow (readLastTransactionDates gs) (getFlexRangeDays gs).1 (getFlexRangeDays gs).2
    today

/-- `_parse_yyyymmdd`. -/
def parseYyyymmdd (s : String) : Option Date := (strptimeYmd (slice (strip s) 8)).toOption

/-- What is sent as `fd` and `td`. -/
abbrev Chunk := Option String × Option String

/-- The window of a run: the payload's, or the scheduled one when it names no date. -/
def cashWindow (payload : Dict) (gs : GoldenSource) (today : Date) : Except PyExc Requested :=
  match optionalText payload "from_date", optionalText payload "to_date" with
  | .error e, _ => .error e
  | .ok _, .error e => .error e
  | .ok none, .ok none =>
    match scheduledWindow gs today with
    | .error e => .error e
    | .ok w => .ok ⟨some (strftimeYmd w.start), some (strftimeYmd w.stop), w.mode, some w.days⟩
  | .ok fromDate, .ok toDate => .ok ⟨fromDate, toDate, .manual, none⟩

/-- `chunks`: a half-given or unreadable window is passed through as it is. -/
def requestChunks (fromDate toDate : Option String) : Except PyExc (List Chunk) :=
  match fromDate.bind parseYyyymmdd, toDate.bind parseYyyymmdd with
  | some fd, some td =>
    match splitWindow fd td CHUNK_MAX_SPAN_DAYS with
    | .error e => .error e
    | .ok chunks => .ok (chunks.map fun c => (some (strftimeYmd c.1), some (strftimeYmd c.2)))
  | _, _ => .ok [(fromDate, toDate)]

/-- The `(token, query id)` pairs of a run. -/
def cashEntries (env : Env) (gs : GoldenSource) : List (String × String) :=
  ((getFlexConfig env.tokens "cash_transactions" gs).map fun a =>
    (strip a.token, strip a.queryId)).filter fun e => e.1 ≠ "" ∧ e.2 ≠ ""

/-- One `(query id, chunk)` of a run. -/
structure CashRequest where
  token : String
  queryId : String
  chunk : Chunk
  deriving DecidableEq, Repr

/-- The requests in the order of the two loops. -/
def cashRequests (entries : List (String × String)) (chunks : List Chunk) : List CashRequest :=
  entries.flatMap fun e => chunks.map fun c => ⟨e.1, e.2, c⟩

theorem mem_cashRequests {entries : List (String × String)} {chunks : List Chunk}
    {req : CashRequest} : req ∈ cashRequests entries chunks ↔
      (req.token, req.queryId) ∈ entries ∧ req.chunk ∈ chunks := by
  simp only [cashRequests, List.mem_flatMap, List.mem_map]
  constructor
  · rintro ⟨e, he, c, hc, rfl⟩
    exact ⟨he, hc⟩
  · rintro ⟨he, hc⟩
    exact ⟨_, he, _, hc, rfl⟩

/-- `_fetch_chunk`. -/
def fetchChunk (env : Env) (fallback : Bool) (req : CashRequest) (w : Wire) :
    Outcome (List CashRow) PyExc × Wire :=
  match fetchReport env.flex env.parseCashTransactionsXml req.token req.queryId req.chunk.1
      req.chunk.2 none w with
  | (.ok rows, w') => (.ok rows, w')
  | (.error (.other cls msg), w') => (.escaped (.other cls msg), w')
  | (.error (.valueError e), w') =>
    if fallback && given req.chunk.1 && given req.chunk.2 && statementUnavailable e then
      match fetchReport env.flex env.parseCashTransactionsXml req.token req.queryId none none none
          w' with
      | (.ok rows, w'') => (.ok rows, w'')
      | (.error (.other cls msg), w'') => (.escaped (.other cls msg), w'')
      | (.error (.valueError e2), w'') =>
        (.failed (e ++ "; fallback query-default failed: " ++ e2), w'')
    else (.failed e, w')

abbrev CashTurn := RunTurn CashRequest (List CashRow)

/-! ## The result -/

/-- The keys `range_from`, `range_to` and the `extra` ones. -/
structure CashRange where
  requested : Requested
  chunks : ℕ
  deriving DecidableEq, Repr

/-- The returned dictionary; what a return leaves out is none, and no errors. -/
structure CashResult where
  ok : Bool
  count : ℕ
  error : Option String := none
  message : Option String := none
  errors : List String := []
  skipped : Option ℕ := none
  byAccount : Option ℕ := none
  range : Option CashRange := none
  deriving DecidableEq, Repr

/-- `{"ok": False, "error": …, "count": 0}`. -/
def CashResult.refused (error : String) : CashResult := { ok := false, count := 0, error := error }

/-- A run: its result, its turns, and the wire and the store it leaves. -/
structure CashRun where
  result : CashResult
  turns : List CashTurn
  wire : Wire
  store : GoldenSource

def noCashCredentials : String :=
  "No Flex credentials for cash_transactions: set FLEX_HOST_TOKEN / " ++
    "FLEX_SECONDARY_TOKEN (K8s Secret bifrost-flex-tokens) and " ++
    "purpose=cash_transactions query_id rows " ++
    "(Settings → IB Connection → Flex Query IDs, or Ops Console Flex Plugin)."

/-- `all_rows`. -/
def cashRows (turns : List CashTurn) : List CashRow := turns.flatMap fun t => t.outcome.ok?.getD []

/-- `errors`; an empty text counts as no error. -/
def cashErrors (nChunks : ℕ) (turns : List CashTurn) : List String :=
  ((failures turns).filter fun f => f.2 ≠ "").map fun f =>
    if nChunks = 1 then f.2
    else f.1.chunk.1.getD "None" ++ ".." ++ f.1.chunk.2.getD "None" ++ ": " ++ f.2

/-- The message of a run that wrote something. -/
def cashMessage (written skipped nEntries nChunks : ℕ) (req : Requested) (errors : List String) :
    String :=
  "Upserted " ++ toString written ++ " transaction(s) from " ++ toString nEntries ++
    " Flex account(s)." ++
  (if skipped ≠ 0 then " Skipped " ++ toString skipped ++ " row(s)." else "") ++
  (if nChunks > 1 then
    " Window " ++ req.fromDate.getD "None" ++ ".." ++ req.toDate.getD "None" ++ " in " ++
      toString nChunks ++ " requests per account."
  else "") ++
  (if errors ≠ [] then " Partial errors: " ++ joined errors else "")

/-- What follows the two loops: at most one write, and the result. -/
def finishCash (env : Env) (nEntries : ℕ) (req : Requested) (nChunks : ℕ)
    (turns : List CashTurn) (gs : GoldenSource) : CashResult × GoldenSource :=
  match escapedOf turns with
  | some e => (.refused e.str, gs)
  | none =>
    let rows := cashRows turns
    let errors := cashErrors nChunks turns
    let range : CashRange := ⟨req, nChunks⟩
    if rows = [] then
      if errors ≠ [] then (.refused (joined errors), gs)
      else
        ({ ok := true, count := 0, message := "No cash transactions in report."
           errors := errors, byAccount := nEntries, range := range }, gs)
    else
      match env.upsertAccountTransactions rows gs with
      | (.error e, gs') => (.refused e.str, gs')
      | (.ok (written, skipped), gs') =>
        if written = 0 then
          ({ ok := false, count := 0
             error := "Parsed " ++ toString rows.length ++ " cash transaction(s) but wrote 0" ++
               (if skipped ≠ 0 then " (" ++ toString skipped ++ " skipped)" else "") ++ "."
             skipped := skipped, byAccount := nEntries, range := range }, gs')
        else
          ({ ok := true, count := written, skipped := skipped
             message := cashMessage written skipped nEntries nChunks req errors
             errors := errors, byAccount := nEntries, range := range }, gs')

/-- The run once its requests are known. -/
def runCash (env : Env) (fallback : Bool) (entries : List (String × String)) (req : Requested)
    (chunks : List Chunk) (gs : GoldenSource) (w : Wire) : CashRun :=
  let visited := visit (fetchChunk env (fallback && chunks.length = 1))
    (cashRequests entries chunks) w
  let finished := finishCash env entries.length req chunks.length visited.1 gs
  ⟨finished.1, visited.1, visited.2, finished.2⟩

/-- `fetch_cash_transactions_from_flex`. -/
def fetchCashTransactionsFromFlex (env : Env) (payload : Dict) (today : Date) (gs : GoldenSource)
    (w : Wire) : CashRun :=
  if env.postgresReady = false then
    ⟨.refused "Postgres config required to write account_transactions.", [], w, gs⟩
  else
    let entries := cashEntries env gs
    if entries = [] then ⟨.refused noCashCredentials, [], w, gs⟩
    else
      match cashWindow payload gs today with
      | .error e => ⟨.refused e.str, [], w, gs⟩
      | .ok req =>
        match requestChunks req.fromDate req.toDate with
        | .error e => ⟨.refused e.str, [], w, gs⟩
        | .ok chunks => runCash env (allowFallback payload) entries req chunks gs w

/-! ## What a run that ends well has done -/

theorem parseYyyymmdd_strftimeYmd (d : Date) : parseYyyymmdd (strftimeYmd d) = some d := by
  unfold parseYyyymmdd
  rw [strip_strftimeYmd, slice_strftimeYmd, strptimeYmd_strftimeYmd]
  rfl

theorem requestChunks_strftimeYmd {start stop : Date} {chunks : List Chunk}
    (h : requestChunks (some (strftimeYmd start)) (some (strftimeYmd stop)) = .ok chunks) :
    ∃ days, splitWindow start stop CHUNK_MAX_SPAN_DAYS = .ok days ∧
      chunks = days.map fun c => (some (strftimeYmd c.1), some (strftimeYmd c.2)) := by
  simp only [requestChunks, Option.bind_some, parseYyyymmdd_strftimeYmd] at h
  split at h
  · cases h
  · rename_i days hdays
    cases h
    exact ⟨days, hdays, rfl⟩

/-- There is always something to ask for. -/
theorem requestChunks_ne_nil {fromDate toDate : Option String} {chunks : List Chunk}
    (h : requestChunks fromDate toDate = .ok chunks) : ∃ c, c ∈ chunks := by
  unfold requestChunks at h
  split at h
  · rename_i fd td _ _
    split at h
    · cases h
    · rename_i days hdays
      cases h
      have hne : days ≠ [] := by
        by_cases hle : fd ≤ td
        · exact (splitWindow_chunks hle hdays).1
        · unfold splitWindow at hdays
          rw [if_pos (not_le.mp hle)] at hdays
          cases hdays
          exact List.cons_ne_nil _ _
      obtain ⟨c, hc⟩ := List.exists_mem_of_ne_nil days hne
      exact ⟨_, List.mem_map_of_mem hc⟩
  · cases h
    exact ⟨_, List.mem_singleton_self _⟩

theorem cashWindow_scheduled {payload : Dict} {gs : GoldenSource} {today : Date} {req : Requested}
    (hfrom : optionalText payload "from_date" = .ok none)
    (hto : optionalText payload "to_date" = .ok none) (h : cashWindow payload gs today = .ok req) :
    ∃ w, scheduledWindow gs today = .ok w ∧
      req = ⟨some (strftimeYmd w.start), some (strftimeYmd w.stop), w.mode, some w.days⟩ := by
  simp only [cashWindow, hfrom, hto] at h
  split at h
  · cases h
  · rename_i w hw
    cases h
    exact ⟨w, hw, rfl⟩

theorem finishCash_ok {env : Env} {n k : ℕ} {req : Requested} {turns : List CashTurn}
    {gs : GoldenSource} (h : (finishCash env n req k turns gs).1.ok = true) :
    escapedOf turns = none ∧
      ((cashRows turns = [] ∧ (finishCash env n req k turns gs).2 = gs) ∨
        ∃ written skipped, written ≠ 0 ∧ env.upsertAccountTransactions (cashRows turns) gs =
          (.ok (written, skipped), (finishCash env n req k turns gs).2)) := by
  unfold finishCash at h ⊢
  cases hesc : escapedOf turns with
  | some e =>
    rw [hesc] at h
    cases h
  | none =>
    rw [hesc] at h
    refine ⟨rfl, ?_⟩
    simp only at h ⊢
    by_cases hrows : cashRows turns = []
    · rw [if_pos hrows] at h ⊢
      split at h
      · cases h
      · rename_i herr
        rw [if_neg herr]
        exact Or.inl ⟨hrows, rfl⟩
    · rw [if_neg hrows] at h ⊢
      apply Or.inr
      cases hup : env.upsertAccountTransactions (cashRows turns) gs with
      | mk res gs' =>
        rw [hup] at h
        cases res with
        | error e => cases h
        | ok counts =>
          obtain ⟨written, skipped⟩ := counts
          simp only at h ⊢
          split at h
          · cases h
          · rename_i hwritten
            rw [if_neg hwritten]
            exact ⟨written, skipped, hwritten, rfl⟩

/-- What `finishCash` reports of the failures, when the run ends well. -/
theorem finishCash_errors {env : Env} {n k : ℕ} {req : Requested} {turns : List CashTurn}
    {gs : GoldenSource} (h : (finishCash env n req k turns gs).1.ok = true) :
    (finishCash env n req k turns gs).1.errors = cashErrors k turns := by
  unfold finishCash at h ⊢
  cases hesc : escapedOf turns with
  | some e =>
    rw [hesc] at h
    cases h
  | none =>
    rw [hesc] at h
    simp only at h ⊢
    split at h
    · rename_i hrows
      rw [if_pos hrows]
      split at h
      · cases h
      · rename_i herr
        rw [if_neg herr]
    · rename_i hrows
      rw [if_neg hrows]
      cases hup : env.upsertAccountTransactions (cashRows turns) gs with
      | mk res gs' =>
        rw [hup] at h
        cases res with
        | error e => cases h
        | ok counts =>
          obtain ⟨written, skipped⟩ := counts
          simp only at h ⊢
          split at h
          · cases h
          · rename_i hwritten
            rw [if_neg hwritten]

/-- A run is turned away before its first request, or its chunks are known and it visits every
query id and chunk. -/
theorem cash_run_cases (env : Env) (payload : Dict) (today : Date) (gs : GoldenSource) (w : Wire) :
    (∃ why, fetchCashTransactionsFromFlex env payload today gs w = ⟨.refused why, [], w, gs⟩) ∨
    ∃ req chunks, cashWindow payload gs today = .ok req ∧
      requestChunks req.fromDate req.toDate = .ok chunks ∧
      fetchCashTransactionsFromFlex env payload today gs w =
        runCash env (allowFallback payload) (cashEntries env gs) req chunks gs w := by
  unfold fetchCashTransactionsFromFlex
  split
  · exact Or.inl ⟨_, rfl⟩
  · simp only
    split
    · exact Or.inl ⟨_, rfl⟩
    · cases hwin : cashWindow payload gs today with
      | error e => exact Or.inl ⟨_, rfl⟩
      | ok req =>
        simp only
        cases hchunks : requestChunks req.fromDate req.toDate with
        | error e => exact Or.inl ⟨_, rfl⟩
        | ok chunks => exact Or.inr ⟨req, chunks, rfl, hchunks, rfl⟩

/-- A run that ends well: its window, its chunks, and its turns, which are one for each query id
and chunk; the store is as the writer left it, or as it was when no row came. -/
theorem cash_run_ok {env : Env} {payload : Dict} {today : Date} {gs : GoldenSource} {w : Wire}
    (h : (fetchCashTransactionsFromFlex env payload today gs w).result.ok = true) :
    ∃ req chunks, cashWindow payload gs today = .ok req ∧
      requestChunks req.fromDate req.toDate = .ok chunks ∧
      let run := fetchCashTransactionsFromFlex env payload today gs w
      run = runCash env (allowFallback payload) (cashEntries env gs) req chunks gs w ∧
      run.turns.map Turn.key = cashRequests (cashEntries env gs) chunks ∧
      run.result.errors = cashErrors chunks.length run.turns ∧
      ((cashRows run.turns = [] ∧ run.store = gs) ∨
        ∃ written skipped, written ≠ 0 ∧ env.upsertAccountTransactions (cashRows run.turns) gs =
          (.ok (written, skipped), run.store)) := by
  rcases cash_run_cases env payload today gs w with ⟨why, hrun⟩ | ⟨req, chunks, hwin, hchunks, hrun⟩
  · rw [hrun] at h
    cases h
  · rw [hrun] at h ⊢
    obtain ⟨hesc, hstore⟩ := finishCash_ok h
    exact ⟨req, chunks, hwin, hchunks, rfl, (visit_keys _ _).2 hesc, finishCash_errors h, hstore⟩

/-- A scheduled run that ends well: its window, its chunks, and its turns, which are one for
each query id and chunk; the store is as the writer left it, or as it was when no row came. -/
theorem scheduled_run_ok {env : Env} {payload : Dict} {today : Date} {gs : GoldenSource} {w : Wire}
    (hfrom : optionalText payload "from_date" = .ok none)
    (hto : optionalText payload "to_date" = .ok none)
    (h : (fetchCashTransactionsFromFlex env payload today gs w).result.ok = true) :
    ∃ win days, scheduledWindow gs today = .ok win ∧
      splitWindow win.start win.stop CHUNK_MAX_SPAN_DAYS = .ok days ∧
      let run := fetchCashTransactionsFromFlex env payload today gs w
      run.turns.map Turn.key = cashRequests (cashEntries env gs)
        (days.map fun c => (some (strftimeYmd c.1), some (strftimeYmd c.2))) ∧
      ((cashRows run.turns = [] ∧ run.store = gs) ∨
        ∃ written skipped, written ≠ 0 ∧ env.upsertAccountTransactions (cashRows run.turns) gs =
          (.ok (written, skipped), run.store)) := by
  obtain ⟨req, chunks, hwin, hchunks, _, hkeys, _, hstore⟩ := cash_run_ok h
  obtain ⟨win, hsched, rfl⟩ := cashWindow_scheduled hfrom hto hwin
  obtain ⟨days, hdays, rfl⟩ := requestChunks_strftimeYmd hchunks
  exact ⟨win, days, hsched, hdays, hkeys, hstore⟩

end FlexQuery
