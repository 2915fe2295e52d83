import FlexQuery.Api.RunNow
import FlexQuery.Client.Accounts
import FlexQuery.Orchestration.Answered

/-!
# Handlers

`worker/handlers.py`, and the result dictionaries as `api/manual_ops.py` reads them.

* `Deployment` — what a run depends on outside the package; `Deployment.env` adds the parsers.
* `handleFlexTrades`, `handleFlexTransactions`, `dispatch` — one queued job.
* `TradesResult.manual`, `CashResult.manual` — the same result, handed to `_audit_finish`.
* `dispatch_ok` — a dispatch that returns comes from a run `_require_ok` accepts.
-/

set_option autoImplicit false

namespace FlexQuery

/-! ## The real parsers -/

def FlexCash.toRow (r : FlexCash) : CashRow := ⟨r.accountId, r.ts.date⟩

def FlexTrade.toRow (r : FlexTrade) : TradeRow := ⟨r.accountId, r.time, r.tradeDate, r.reportDate⟩

/-- IB, the zone database, the Secret, and core's writers. -/
structure Deployment where
  flex : FlexService
  zone : Zone
  tokens : FlexTokens
  postgresReady : Bool
  upsertAccountTransactions : List CashRow → GoldenSource → Except PyExc (ℕ × ℕ) × GoldenSource
  writeAccountExecutionsToDb : List TradeRow → GoldenSource → Except PyExc Bool × GoldenSource

def Deployment.env (d : Deployment) : Env where
  flex := d.flex
  tokens := d.tokens
  postgresReady := d.postgresReady
  parseCashTransactionsXml := fun body =>
    .ok ((parseCashTransactionsXml d.flex body).map FlexCash.toRow)
  parseTradesXml := fun body => (parseTradesXml d.flex d.zone body).map (List.map FlexTrade.toRow)
  upsertAccountTransactions := d.upsertAccountTransactions
  writeAccountExecutionsToDb := d.writeAccountExecutionsToDb

/-- A cash fetch never fails without saying why. -/
theorem Deployment.cash_says (d : Deployment) {t q : String} {fromDate toDate : Option String}
    {period : Option ℤ} {w w' : Wire} {e : String}
    (h : fetchReport d.env.flex d.env.parseCashTransactionsXml t q fromDate toDate period w =
      (.error (.valueError e), w')) : strip e ≠ "" :=
  fetchReport_says (fun _ _ hparse => by cases hparse) h

/-! ## `dispatch` -/

/-- What the freshness connection answers. -/
structure FreshnessDb where
  connect : Except PyExc Unit
  countNewRows : Option ℕ
  recordFreshness : String → ℕ → Option ℕ → Except PyExc Unit

/-- What a handler leaves: `inserted` or its exception, the wire and the store. -/
abbrev Handled := Except PyExc ℕ × Wire × GoldenSource

def handleFlexTrades (d : Deployment) (payload : Dict) (today : Date) (gs : GoldenSource)
    (w : Wire) : Handled :=
  let run := fetchFlexTradesAndUpsertExecutions d.env payload today gs w
  (requireOk "flex-trades" run.result.ok run.result.error run.result.errors run.result.count,
    run.wire, run.store)

def handleFlexTransactions (d : Deployment) (payload : Dict) (today : Date) (gs : GoldenSource)
    (w : Wire) : Handled :=
  let run := fetchCashTransactionsFromFlex d.env payload today gs w
  (requireOk "flex-transactions" run.result.ok run.result.error run.result.errors run.result.count,
    run.wire, run.store)

/-- `HANDLERS.get(kind)`. -/
def handlerOf (kind : String) :
    Option (Deployment → Dict → Date → GoldenSource → Wire → Handled) :=
  if kind = "flex-trades" then some handleFlexTrades
  else if kind = "flex-transactions" then some handleFlexTransactions
  else none

/-- The dictionary `dispatch` returns. -/
structure Dispatched where
  inserted : ℕ
  newRows : Option ℕ
  deriving DecidableEq, Repr

/-- `dispatch`: the handler's outcome, once its freshness row is written. -/
def dispatch (d : Deployment) (fresh : FreshnessDb) (kind : String) (payload : Dict) (today : Date)
    (gs : GoldenSource) (w : Wire) : Except PyExc Dispatched × Wire × GoldenSource :=
  match handlerOf (strip kind) with
  | none => (.error (.valueError ("unknown job kind: '" ++ kind ++ "'")), w, gs)
  | some handler =>
    match fresh.connect with
    | .error e => (.error e, w, gs)
    | .ok () =>
      match handler d payload today gs w with
      | (.error e, w', gs') => (.error e, w', gs')
      | (.ok inserted, w', gs') =>
        match fresh.recordFreshness (strip kind) inserted fresh.countNewRows with
        | .error e => (.error e, w', gs')
        | .ok () => (.ok ⟨inserted, fresh.countNewRows⟩, w', gs')

/-- A dispatch that returns: which run it was, and that `_require_ok` accepted it. -/
theorem dispatch_ok {d : Deployment} {fresh : FreshnessDb} {kind : String} {payload : Dict}
    {today : Date} {gs gs' : GoldenSource} {w w' : Wire} {out : Dispatched}
    (h : dispatch d fresh kind payload today gs w = (.ok out, w', gs')) :
    (strip kind = "flex-trades" ∧
      let run := fetchFlexTradesAndUpsertExecutions d.env payload today gs w
      requireOk "flex-trades" run.result.ok run.result.error run.result.errors run.result.count =
        .ok out.inserted ∧ w' = run.wire ∧ gs' = run.store) ∨
    (strip kind = "flex-transactions" ∧
      let run := fetchCashTransactionsFromFlex d.env payload today gs w
      requireOk "flex-transactions" run.result.ok run.result.error run.result.errors
        run.result.count = .ok out.inserted ∧ w' = run.wire ∧ gs' = run.store) := by
  have hfinish : ∀ handled : Handled,
      (match handled with
        | (.error e, w₁, gs₁) => (Except.error e, w₁, gs₁)
        | (.ok inserted, w₁, gs₁) =>
          match fresh.recordFreshness (strip kind) inserted fresh.countNewRows with
          | .error e => (Except.error e, w₁, gs₁)
          | .ok () => (.ok ⟨inserted, fresh.countNewRows⟩, w₁, gs₁)) = (.ok out, w', gs') →
      handled = (.ok out.inserted, w', gs') := by
    rintro ⟨res, w₁, gs₁⟩ h
    cases res with
    | error e => cases h
    | ok inserted =>
      simp only at h
      split at h
      · cases h
      · cases h
        rfl
  unfold dispatch at h
  cases hhandler : handlerOf (strip kind) with
  | none =>
    rw [hhandler] at h
    cases h
  | some handler =>
    rw [hhandler] at h
    simp only at h
    cases hconn : fresh.connect with
    | error e =>
      rw [hconn] at h
      cases h
    | ok u =>
      rw [hconn] at h
      have hrun := hfinish _ h
      unfold handlerOf at hhandler
      split at hhandler
      · rename_i hkind
        cases hhandler
        simp only [handleFlexTrades, Prod.mk.injEq] at hrun
        exact Or.inl ⟨hkind, hrun.1, hrun.2.1.symm, hrun.2.2.symm⟩
      · split at hhandler
        · rename_i hkind
          cases hhandler
          simp only [handleFlexTransactions, Prod.mk.injEq] at hrun
          exact Or.inr ⟨hkind, hrun.1, hrun.2.1.symm, hrun.2.2.symm⟩
        · cases hhandler

/-- A trades job whose run `_require_ok` accepts. -/
theorem dispatch_trades {d : Deployment} {fresh : FreshnessDb} {payload : Dict} {today : Date}
    {gs : GoldenSource} {w : Wire} {n : ℕ} (hconn : fresh.connect = .ok ())
    (hok : let r := (fetchFlexTradesAndUpsertExecutions d.env payload today gs w).result
      requireOk "flex-trades" r.ok r.error r.errors r.count = .ok n)
    (hrecord : fresh.recordFreshness "flex-trades" n fresh.countNewRows = .ok ()) :
    let run := fetchFlexTradesAndUpsertExecutions d.env payload today gs w
    dispatch d fresh "flex-trades" payload today gs w =
      (.ok ⟨n, fresh.countNewRows⟩, run.wire, run.store) := by
  have hkind : strip "flex-trades" = "flex-trades" := by decide
  simp only [dispatch, hkind, handlerOf, if_true, hconn, handleFlexTrades, hok, hrecord]

/-! ## The result of a manual run -/

/-- A text, or null. -/
def jsonText (o : Option String) : Json := (o.map Json.str).getD .null

/-- A date as it is written, or null. -/
def jsonDate (o : Option Date) : Json := jsonText (o.map fun d => isoformat d.civil)

def QueryReport.json (r : QueryReport) : Json :=
  .obj [("role", .str r.role), ("query_id", .str r.queryId), ("label", jsonText r.label),
    ("rows", .int r.rows), ("data_from", jsonDate r.dataFrom), ("data_to", jsonDate r.dataTo),
    ("used_fallback", .bool r.usedFallback),
    ("fallback_kind", jsonText (r.fallbackKind.map FallbackKind.text))]

/-- The keys of a result that are kept in the row: the message comes with the errors, and the
window with what is known of the data. -/
def TradesResult.summary (r : TradesResult) : Dict :=
  [("count", .int r.count)] ++
  (match r.message with
    | none => []
    | some m => [("message", .str m)]) ++
  (match r.range with
    | none => []
    | some q => [("range_from", jsonText q.fromDate), ("range_to", jsonText q.toDate),
        ("data_from", jsonText r.dataFrom), ("data_to", jsonText r.dataTo),
        ("per_query", .arr (r.perQuery.map QueryReport.json))]) ++
  (if r.message.isSome then [("errors", .arr (r.errors.map .str))] else [])

def CashResult.summary (r : CashResult) : Dict :=
  [("count", .int r.count)] ++
  (match r.message with
    | none => []
    | some m => [("message", .str m)]) ++
  (match r.range with
    | none => []
    | some q => [("range_from", jsonText q.requested.fromDate),
        ("range_to", jsonText q.requested.toDate)]) ++
  (if r.message.isSome then [("errors", .arr (r.errors.map .str))] else [])

/-- The result as `_audit_finish` reads it. -/
def TradesResult.manual (r : TradesResult) : ManualResult :=
  ⟨r.ok, r.errors, r.error, r.count, r.summary⟩

def CashResult.manual (r : CashResult) : ManualResult :=
  ⟨r.ok, r.errors, r.error, r.count, r.summary⟩

end FlexQuery
