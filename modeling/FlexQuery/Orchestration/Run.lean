import FlexQuery.Client.FlexClient
import FlexQuery.Library.Visit
import FlexQuery.Orchestration.ConfigRw
import FlexQuery.Orchestration.Window

/-!
# What both orchestrated runs share

* `Env` — IB, the tokens, the parsers and the writers a run depends on.
* `Requested` — the window a run asks for, as texts.
* `statementUnavailable`, `allowFallback`, `joined` — the fragments both runs repeat.
* `scripted` — an IB for concrete runs.
* `requireOk` — `_require_ok` of `worker/handlers.py`: what makes a run's result a finished job.
-/

set_option autoImplicit false

namespace FlexQuery

open Visit

/-- The fields of a parsed cash transaction that decide where it is stored. -/
structure CashRow where
  accountId : String
  ts : Date
  deriving DecidableEq, Repr

/-- The fields of a parsed execution that a run reads; `time` in Unix seconds. -/
structure TradeRow where
  accountId : String
  time : Option ℤ
  tradeDate : Option Date
  reportDate : Option Date
  deriving DecidableEq, Repr

/-- What a run depends on.  A writer answers and leaves the store as it is afterwards. -/
structure Env where
  flex : FlexService
  tokens : FlexTokens
  postgresReady : Bool
  parseCashTransactionsXml : String → Except PyExc (List CashRow)
  parseTradesXml : String → Except PyExc (List TradeRow)
  upsertAccountTransactions : List CashRow → GoldenSource → Except PyExc (ℕ × ℕ) × GoldenSource
  writeAccountExecutionsToDb : List TradeRow → GoldenSource → Except PyExc Bool × GoldenSource

/-- The window of a run: `from_date`, `to_date`, `range_mode` and `range_days`. -/
structure Requested where
  fromDate : Option String
  toDate : Option String
  mode : RangeMode
  days : Option ℤ
  deriving DecidableEq, Repr

/-- `"[1003]" in msg or "Statement is not available" in msg`. -/
def statementUnavailable (msg : String) : Bool :=
  contains msg "[1003]" || contains msg "Statement is not available"

/-- `_truthy(payload.get("fallback", True))`. -/
def allowFallback (payload : Dict) : Bool := truthyFlag ((payload.get "fallback").getD (.bool true))

/-- `"; ".join(errors)`. -/
def joined (errors : List String) : String := "; ".intercalate errors

/-- One request of a run and what it came to. -/
abbrev RunTurn (κ α : Type) := Turn κ α PyExc (HttpRequest × HttpAnswer)

/-- The texts of the turns that failed, in order. -/
def failures {κ α : Type} (turns : List (RunTurn κ α)) : List (κ × String) :=
  turns.filterMap fun t => t.outcome.failed?.map (t.key, ·)

theorem mem_failures {κ α : Type} {turns : List (RunTurn κ α)} {k : κ} {text : String} :
    (k, text) ∈ failures turns ↔ ∃ t ∈ turns, t.key = k ∧ t.outcome = .failed text := by
  simp only [failures, List.mem_filterMap, Option.map_eq_some_iff, Prod.mk.injEq]
  constructor
  · rintro ⟨t, ht, s, hs, hk, rfl⟩
    refine ⟨t, ht, hk, ?_⟩
    cases ho : t.outcome with
    | ok a =>
      rw [ho] at hs
      cases hs
    | failed x =>
      rw [ho] at hs
      cases hs
      rfl
    | escaped e =>
      rw [ho] at hs
      cases hs
  · rintro ⟨t, ht, hk, ho⟩
    exact ⟨t, ht, text, by rw [ho]; rfl, hk, rfl⟩

/-- The exception of a turn that ended the run. -/
theorem escapedOf_none {κ α : Type} {turns : List (RunTurn κ α)} (h : escapedOf turns = none) :
    ∀ t ∈ turns, ∀ e, t.outcome ≠ .escaped e := by
  intro t ht e ho
  have := List.findSome?_eq_none_iff.mp h t ht
  rw [ho] at this
  cases this

/-! ## Scripted answers -/

/-- An IB whose answer depends on the request only, and a parser that knows these documents. -/
def scripted (answer : HttpRequest → String) (docs : List (String × Element)) : FlexService where
  answer _ req := .body (answer req)
  fromstring body :=
    match docs.find? fun d => d.1 = body with
    | some d => .ok d.2
    | none => .error "no element found: line 1, column 0"

/-- An accepted SendRequest. -/
def acceptedDoc : String × Element :=
  ("<FlexStatementResponse><Status>Success</Status><ReferenceCode>7</ReferenceCode>" ++
    "</FlexStatementResponse>",
    .mk "FlexStatementResponse" [] none
      [.mk "Status" [] "Success" [], .mk "ReferenceCode" [] "7" []])

/-- A refused SendRequest, or a GetStatement without a report. -/
def refusedDoc (code msg : String) : String × Element :=
  ("<FlexStatementResponse><Status>Fail</Status><ErrorCode>" ++ code ++
    "</ErrorCode><ErrorMessage>" ++ msg ++ "</ErrorMessage></FlexStatementResponse>",
    .mk "FlexStatementResponse" [] none
      [.mk "Status" [] "Fail" [], .mk "ErrorCode" [] code [], .mk "ErrorMessage" [] msg []])

/-- A report with one section for one account. -/
def reportOf (acct sect : String) (items : List Element) : Element :=
  let part := Element.mk sect [] none items
  let statement := Element.mk "FlexStatement" [("accountId", acct)] none [part]
  .mk "FlexQueryResponse" [] none [.mk "FlexStatements" [] none [statement] ]

/-! ## A finished job -/

/-- `_require_ok`: the number of rows of a result that makes its job `done`. -/
def requireOk (label : String) (ok : Bool) (error : Option String) (errors : List String)
    (count : ℕ) : Except PyExc ℕ :=
  if !ok then
    .error (.other "RuntimeError" (if given error then error.getD "" else label ++ " failed"))
  else
    let errors := errors.filter fun e => strip e ≠ ""
    if errors ≠ [] then .error (.other "RuntimeError" (label ++ " partial: " ++ joined errors))
    else .ok count

theorem requireOk_eq_ok {label : String} {ok : Bool} {error : Option String}
    {errors : List String} {count n : ℕ} (h : requireOk label ok error errors count = .ok n) :
    ok = true ∧ n = count ∧ ∀ e ∈ errors, strip e = "" := by
  unfold requireOk at h
  split at h
  · cases h
  · rename_i hok
    simp only at h
    split at h
    · cases h
    · rename_i hall
      cases h
      refine ⟨by simpa using hok, rfl, ?_⟩
      simpa [List.filter_eq_nil_iff] using hall

end FlexQuery
