import FlexQuery.Python.Date

/-!
# What a run reads from Golden Source

The reads of `orchestration/config_rw.py` and `read_last_transaction_dates` of
`orchestration/transactions.py`, over the tables as lists of rows.

* `getFlexConfig` — the configured queries of a purpose, with their tokens.
* `getFlexRangeDays` — the two range settings, or the defaults.
* `getFlexExecutionsStats` — count and trade-date span of the Flex executions.
* `readLastTransactionDates` — last stored day of each account that counts.

`mem_readLastTransactionDates` says what the last one answers, `maxDate_eq_some` what the newest of
some dates is.
-/

set_option autoImplicit false

namespace FlexQuery

/-- A row of `raw_broker.executions_raw_flex`. -/
structure Execution where
  accountId : Option String
  source : Option String
  tradeDate : Option Date
  deriving DecidableEq, Repr

/-- A row of `raw_broker.transactions`; a timestamp counts by its day. -/
structure CashTransaction where
  accountId : Option String
  ts : Option Date
  deriving DecidableEq, Repr

/-- A row of `raw_broker.settings_flex`. -/
structure QueryRow where
  queryHostId : Option String
  querySecondaryId : Option String
  queryLabel : Option String
  purpose : Option String
  deriving DecidableEq, Repr

/-- The tables a run reads; `settingsFlex` in the order of `ORDER BY sort_order, id`, and
`flexSettings` the row with id 1 of `ops_jobs.flex_settings`. -/
structure GoldenSource where
  executions : List Execution
  transactions : List CashTransaction
  settingsFlex : List QueryRow
  flexSettings : Option (Option ℤ × Option ℤ)
  deriving DecidableEq, Repr

/-! ## Configured queries -/

/-- What `_query_entries` returns for one query id. -/
structure QueryEntry where
  token : String
  queryId : String
  role : String
  queryLabel : Option String
  purpose : Option String
  deriving DecidableEq, Repr

/-- The tokens of the Secret. -/
structure FlexTokens where
  host : String
  secondary : String
  deriving DecidableEq, Repr

/-- `[x.strip() for x in (raw or "").split(",") if x.strip()]`. -/
def queryIds (raw : Option String) : List String :=
  (((raw.getD "").toList.splitOn ',').map fun x => strip (String.ofList x)).filter (· ≠ "")

/-- `_query_entries`. -/
def queryEntries (rows : List QueryRow) (tokens : FlexTokens) : List QueryEntry :=
  rows.flatMap fun r =>
    [("host", tokens.host, r.queryHostId), ("secondary", tokens.secondary, r.querySecondaryId)].flatMap
      fun (role, tok, raw) =>
        if tok = "" then []
        else (queryIds raw).map fun qid =>
          { token := tok
            queryId := qid
            role := role
            queryLabel := orNone (strip (r.queryLabel.getD ""))
            purpose := orNone (strip (r.purpose.getD "")) }

/-- `get_flex_config` with a purpose; the tokens are stripped where they are read. -/
def getFlexConfig (tokens : FlexTokens) (purpose : String) (gs : GoldenSource) : List QueryEntry :=
  queryEntries (gs.settingsFlex.filter fun r => r.purpose = some purpose)
    ⟨strip tokens.host, strip tokens.secondary⟩

/-! ## Range days -/

def DEFAULT_RANGE_DAYS : ℤ := 30
def DEFAULT_INIT_RANGE_DAYS : ℤ := 360

/-- `read_flex_settings`. -/
def readFlexSettings (gs : GoldenSource) : Option (ℤ × ℤ) :=
  match gs.flexSettings with
  | some (some d, some i) => some (max 1 d, max 1 i)
  | _ => none

/-- `get_flex_range_days`: `(default_days, init_days)`. -/
def getFlexRangeDays (gs : GoldenSource) : ℤ × ℤ :=
  (readFlexSettings gs).getD (DEFAULT_RANGE_DAYS, DEFAULT_INIT_RANGE_DAYS)

theorem getFlexRangeDays_pos (gs : GoldenSource) :
    1 ≤ (getFlexRangeDays gs).1 ∧ 1 ≤ (getFlexRangeDays gs).2 := by
  unfold getFlexRangeDays readFlexSettings
  split
  · exact ⟨le_max_left _ _, le_max_left _ _⟩
  · decide

/-! ## The newest of some dates -/

/-- `max(…)` of SQL: none of no dates. -/
def maxDate : List Date → Option Date
  | [] => none
  | d :: ds =>
    match maxDate ds with
    | none => some d
    | some m => some (max d m)

theorem maxDate_eq_none {ds : List Date} : maxDate ds = none ↔ ds = [] := by
  cases ds with
  | nil => simp [maxDate]
  | cons d ds =>
    simp only [maxDate]
    cases maxDate ds <;> simp

theorem maxDate_eq_some {ds : List Date} {m : Date} :
    maxDate ds = some m ↔ m ∈ ds ∧ ∀ d ∈ ds, d ≤ m := by
  have hgreatest : ∀ {ds : List Date} {m : Date}, maxDate ds = some m →
      m ∈ ds ∧ ∀ d ∈ ds, d ≤ m := by
    intro ds
    induction ds with
    | nil => nofun
    | cons x xs ih =>
      intro m h
      simp only [maxDate] at h
      split at h
      · rename_i hnone
        cases h
        rw [maxDate_eq_none.mp hnone]
        exact ⟨List.mem_cons_self, by simp⟩
      · rename_i k hk
        cases h
        obtain ⟨hmem, hall⟩ := ih hk
        constructor
        · rcases max_choice x k with hx | hk
          · rw [hx]
            exact List.mem_cons_self
          · rw [hk]
            exact List.mem_cons_of_mem _ hmem
        · intro d hd
          rcases List.mem_cons.mp hd with rfl | hd
          · exact le_max_left _ _
          · exact (hall d hd).trans (le_max_right _ _)
  constructor
  · exact hgreatest
  · rintro ⟨hmem, hall⟩
    cases h : maxDate ds with
    | none =>
      rw [maxDate_eq_none.mp h] at hmem
      cases hmem
    | some k =>
      obtain ⟨hk, hle⟩ := hgreatest h
      rw [le_antisymm (hall k hk) (hle m hmem)]

/-! ## Executions -/

/-- What `get_flex_executions_stats` returns. -/
structure ExecutionStats where
  count : ℕ
  accounts : ℕ
  minDate : Option Date
  maxDate : Option Date
  deriving DecidableEq, Repr

/-- `WHERE source = 'flex_trades'`. -/
def flexExecutions (gs : GoldenSource) : List Execution :=
  gs.executions.filter fun e => e.source = some "flex_trades"

/-- Their trade dates. -/
def flexDates (gs : GoldenSource) : List Date := (flexExecutions gs).filterMap Execution.tradeDate

/-- `get_flex_executions_stats`. -/
def getFlexExecutionsStats (gs : GoldenSource) : ExecutionStats where
  count := (flexExecutions gs).length
  accounts := ((flexExecutions gs).filterMap Execution.accountId).dedup.length
  minDate := (flexDates gs).min?
  maxDate := maxDate (flexDates gs)

/-! ## Last transaction dates -/

/-- The account counts: it has a name, and Flex executions unless nothing has. -/
def Counted (gs : GoldenSource) (acct : String) : Prop :=
  acct ≠ "" ∧ (gs.executions = [] ∨ acct ∈ gs.executions.filterMap Execution.accountId)

instance (gs : GoldenSource) (acct : String) : Decidable (Counted gs acct) :=
  inferInstanceAs (Decidable (_ ∧ (_ ∨ _)))

/-- The days the account has cash rows on. -/
def cashDays (gs : GoldenSource) (acct : String) : List Date :=
  (gs.transactions.filter fun t => t.accountId = some acct).filterMap CashTransaction.ts

/-- `read_last_transaction_dates`: `GROUP BY account_id`, then the rows with a name and a
date. -/
def readLastTransactionDates (gs : GoldenSource) : List (String × Date) :=
  ((gs.transactions.filterMap CashTransaction.accountId).dedup.filter fun a => Counted gs a).filterMap
    fun acct => (maxDate (cashDays gs acct)).map (acct, ·)

theorem mem_cashDays {gs : GoldenSource} {acct : String} {d : Date} :
    d ∈ cashDays gs acct ↔
      ∃ t ∈ gs.transactions, t.accountId = some acct ∧ t.ts = some d := by
  simp [cashDays, and_assoc]

theorem mem_readLastTransactionDates {gs : GoldenSource} {acct : String} {d : Date} :
    (acct, d) ∈ readLastTransactionDates gs ↔
      Counted gs acct ∧ maxDate (cashDays gs acct) = some d := by
  simp only [readLastTransactionDates, List.mem_filterMap, List.mem_filter, List.mem_dedup,
    decide_eq_true_eq, Option.map_eq_some_iff, Prod.mk.injEq]
  constructor
  · rintro ⟨a, ⟨_, hcounted⟩, e, hmax, rfl, rfl⟩
    exact ⟨hcounted, hmax⟩
  · rintro ⟨hcounted, hmax⟩
    refine ⟨acct, ⟨?_, hcounted⟩, d, hmax, rfl, rfl⟩
    obtain ⟨t, ht, hacct, _⟩ := mem_cashDays.mp (maxDate_eq_some.mp hmax).1
    exact ⟨t, ht, hacct⟩

end FlexQuery
