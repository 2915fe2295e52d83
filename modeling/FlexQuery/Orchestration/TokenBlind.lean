import FlexQuery.Api.ConfigSummary
import FlexQuery.Worker.Done
import FlexQuery.Worker.Retry

/-!
# Two runs with different tokens

The requests of a run carry the tokens; what it returns, publishes and raises does not.

* `Corresponds` — what two tokens may have in common for an observer.
* `SameWire`, `SameButTokens` — two runs and two deployments that differ in the tokens alone.
* `fetchReport_blind`, `fetchQuery_blind`, `fetchChunk_blind` — one step of either comes to the same.
* `tradesMessageOf` — what a trades run publishes.
* `tokens_unobserved` — every answer is the same.
-/

set_option autoImplicit false

namespace FlexQuery

open Visit

/-! ## Requests with different tokens -/

/-- Requests that are the same but for related tokens. -/
inductive SameRequest (pair : String → String → Prop) : HttpRequest → HttpRequest → Prop where
  | sendRequest {t t' : String} (q : String) (p : Option String) (dates : Option (String × String))
      (h : pair t t') : SameRequest pair (.sendRequest t q p dates) (.sendRequest t' q p dates)
  | getStatement {t t' : String} (q : String) (h : pair t t') :
      SameRequest pair (.getStatement t q) (.getStatement t' q)

/-- Exchanges with such requests, answered alike. -/
def SameWire (pair : String → String → Prop) : Wire → Wire → Prop :=
  List.Forall₂ fun x x' => SameRequest pair x.1 x'.1 ∧ x.2 = x'.2

/-- Two services that do not tell such requests apart. -/
structure SameService (pair : String → String → Prop) (flex flex' : FlexService) : Prop where
  answer : ∀ w w' req req', SameWire pair w w' → SameRequest pair req req' →
    flex.answer w req = flex'.answer w' req'
  fromstring : flex.fromstring = flex'.fromstring

/-- The same result, and wires that differ in the tokens alone. -/
def Agree {α : Type} (pair : String → String → Prop) (r r' : α × Wire) : Prop :=
  r.1 = r'.1 ∧ SameWire pair r.2 r'.2

section
variable {pair : String → String → Prop} {flex flex' : FlexService} {w w' : Wire}
  {t t' : String}

theorem send_blind (h : SameService pair flex flex') (hw : SameWire pair w w')
    {req req' : HttpRequest} (hreq : SameRequest pair req req') :
    Agree pair (flex.send w req) (flex'.send w' req') := by
  have hans := h.answer w w' req req' hw hreq
  refine ⟨hans, ?_⟩
  exact List.rel_append hw (.cons ⟨hreq, hans⟩ .nil)

theorem statementNotReady_blind (h : SameService pair flex flex') (body : String) :
    statementNotReady flex body = statementNotReady flex' body := by
  unfold statementNotReady
  rw [h.fromstring]

theorem readReference_blind (h : SameService pair flex flex') (ans : HttpAnswer) :
    readReference flex ans = readReference flex' ans := by
  unfold readReference
  rw [h.fromstring]

theorem pollStatement_blind (h : SameService pair flex flex') (ht : pair t t') (q : String) (n : ℕ)
    (last : Option String) (hw : SameWire pair w w') :
    Agree pair (pollStatement flex (.getStatement t q) n last w)
      (pollStatement flex' (.getStatement t' q) n last w') := by
  induction n generalizing last w w' with
  | zero => exact ⟨rfl, hw⟩
  | succ n ih =>
    obtain ⟨hans, hwire⟩ := send_blind h hw (.getStatement q ht)
    unfold pollStatement
    rcases hsend : flex.send w (.getStatement t q) with ⟨ans, w₁⟩
    rcases hsend' : flex'.send w' (.getStatement t' q) with ⟨ans', w₁'⟩
    rw [hsend, hsend'] at hans hwire
    subst hans
    cases ans with
    | httpError text => exact ih _ hwire
    | raised cls msg => exact ⟨rfl, hwire⟩
    | body body =>
      simp only [← statementNotReady_blind h body]
      cases statementNotReady flex body with
      | none => exact ⟨rfl, hwire⟩
      | some why => exact ih _ hwire

/-- The request of a fetch is made, or refused, for either token. -/
theorem reportRequest_blind (ht : pair t t') (q : String) (fromDate toDate : Option String)
    (period : Option ℤ) :
    (∃ e, reportRequest t q fromDate toDate period = .error e ∧
        reportRequest t' q fromDate toDate period = .error e) ∨
      ∃ req req', reportRequest t q fromDate toDate period = .ok req ∧
        reportRequest t' q fromDate toDate period = .ok req' ∧ SameRequest pair req req' := by
  unfold reportRequest
  cases period with
  | some p => exact Or.inr ⟨_, _, rfl, rfl, .sendRequest _ _ _ ht⟩
  | none =>
    simp only
    split
    · cases checkSpan (fromDate.getD "") (toDate.getD "") with
      | error e => exact Or.inl ⟨e, rfl, rfl⟩
      | ok u => exact Or.inr ⟨_, _, rfl, rfl, .sendRequest _ _ _ ht⟩
    · split
      · exact Or.inl ⟨_, rfl, rfl⟩
      · exact Or.inr ⟨_, _, rfl, rfl, .sendRequest _ _ _ ht⟩

theorem fetchReport_blind {ρ : Type} (h : SameService pair flex flex')
    {parse parse' : String → Except PyExc (List ρ)} (hparse : parse = parse') (ht : pair t t')
    (q : String) (fromDate toDate : Option String) (period : Option ℤ) (hw : SameWire pair w w') :
    Agree pair (fetchReport flex parse t q fromDate toDate period w)
      (fetchReport flex' parse' t' q fromDate toDate period w') := by
  subst hparse
  unfold fetchReport requestReport
  rcases reportRequest_blind ht q fromDate toDate period with
    ⟨e, he, he'⟩ | ⟨req, req', hreq, hreq', hsame⟩
  · rw [he, he']
    exact ⟨rfl, hw⟩
  · obtain ⟨hans, hwire⟩ := send_blind h hw hsame
    rw [hreq, hreq']
    simp only [← hans, ← readReference_blind h]
    cases readReference flex (flex.send w req).1 with
    | error e => exact ⟨rfl, hwire⟩
    | ok ref =>
      obtain ⟨hbody, hpolled⟩ := pollStatement_blind h ht ref MAX_GET_STATEMENT_POLLS none hwire
      simp only [getStatement]
      rcases hst : pollStatement flex (.getStatement t ref) MAX_GET_STATEMENT_POLLS none
        (flex.send w req).2 with ⟨res, w₁⟩
      rcases hst' : pollStatement flex' (.getStatement t' ref) MAX_GET_STATEMENT_POLLS none
        (flex'.send w' req').2 with ⟨res', w₁'⟩
      rw [hst, hst'] at hbody hpolled
      subst hbody
      cases res with
      | error e => exact ⟨rfl, hpolled⟩
      | ok body => exact ⟨rfl, hpolled⟩

end

/-! ## One query -/

/-- Environments that are the same but for the tokens and for how IB is asked. -/
structure SameEnv (pair : String → String → Prop) (env env' : Env) : Prop where
  service : SameService pair env.flex env'.flex
  postgresReady : env.postgresReady = env'.postgresReady
  parseCash : env.parseCashTransactionsXml = env'.parseCashTransactionsXml
  parseTrades : env.parseTradesXml = env'.parseTradesXml
  upsert : env.upsertAccountTransactions = env'.upsertAccountTransactions
  write : env.writeAccountExecutionsToDb = env'.writeAccountExecutionsToDb

section
variable {pair : String → String → Prop} {env env' : Env} {w w' : Wire} {t t' : String}

theorem fetchTrades_blind (h : SameEnv pair env env') (ht : pair t t') (q : String)
    (fromDate toDate : Option String) (period : Option ℤ) (hw : SameWire pair w w') :
    Agree pair (fetchTrades env t q fromDate toDate period w)
      (fetchTrades env' t' q fromDate toDate period w') :=
  fetchReport_blind h.service h.parseTrades ht q fromDate toDate period hw

theorem fetchPeriod5_blind (h : SameEnv pair env env') (ht : pair t t') (q : String)
    (primary : Option String) (hw : SameWire pair w w') :
    Agree pair (fetchPeriod5 env t q primary w) (fetchPeriod5 env' t' q primary w') := by
  obtain ⟨hres, hwire⟩ := fetchTrades_blind h ht q none none (some 5) hw
  unfold fetchPeriod5
  rcases hf : fetchTrades env t q none none (some 5) w with ⟨res, w₁⟩
  rcases hf' : fetchTrades env' t' q none none (some 5) w' with ⟨res', w₁'⟩
  rw [hf, hf'] at hres hwire
  subst hres
  cases res with
  | ok rows =>
    simp only
    split
    · exact ⟨rfl, hwire⟩
    · cases primary <;> exact ⟨rfl, hwire⟩
  | error e =>
    cases e with
    | other cls msg => exact ⟨rfl, hwire⟩
    | valueError e => cases primary <;> exact ⟨rfl, hwire⟩

theorem fetchQueryDefault_blind (h : SameEnv pair env env') (ht : pair t t') (q : String)
    (primary : Option String) (hw : SameWire pair w w') :
    Agree pair (fetchQueryDefault env t q primary w) (fetchQueryDefault env' t' q primary w') := by
  obtain ⟨hres, hwire⟩ := fetchTrades_blind h ht q none none none hw
  unfold fetchQueryDefault
  rcases hf : fetchTrades env t q none none none w with ⟨res, w₁⟩
  rcases hf' : fetchTrades env' t' q none none none w' with ⟨res', w₁'⟩
  rw [hf, hf'] at hres hwire
  subst hres
  cases res with
  | ok rows =>
    simp only
    split
    · exact ⟨rfl, hwire⟩
    · exact fetchPeriod5_blind h ht q primary hwire
  | error e =>
    cases e with
    | other cls msg => exact ⟨rfl, hwire⟩
    | valueError e => exact fetchPeriod5_blind h ht q _ hwire

theorem fetchTradesWithDateFallback_blind (h : SameEnv pair env env') (ht : pair t t') (q : String)
    (fromDate toDate : Option String) (fallback : Bool) (hw : SameWire pair w w') :
    Agree pair (fetchTradesWithDateFallback env t q fromDate toDate fallback w)
      (fetchTradesWithDateFallback env' t' q fromDate toDate fallback w') := by
  obtain ⟨hres, hwire⟩ := fetchTrades_blind h ht q fromDate toDate none hw
  unfold fetchTradesWithDateFallback
  rcases hf : fetchTrades env t q fromDate toDate none w with ⟨res, w₁⟩
  rcases hf' : fetchTrades env' t' q fromDate toDate none w' with ⟨res', w₁'⟩
  rw [hf, hf'] at hres hwire
  subst hres
  cases res with
  | ok rows =>
    simp only
    split
    · exact ⟨rfl, hwire⟩
    · exact fetchQueryDefault_blind h ht q none hwire
  | error e =>
    cases e with
    | other cls msg => exact ⟨rfl, hwire⟩
    | valueError e =>
      simp only
      split
      · exact fetchQueryDefault_blind h ht q (some e) hwire
      · exact ⟨rfl, hwire⟩

/-- Queries of two runs. -/
def SameTradesRequest (pair : String → String → Prop) (r r' : TradesRequest) : Prop :=
  pair r.entry.token r'.entry.token ∧
    r' = { r with entry := { r.entry with token := r'.entry.token } }

theorem fetchQuery_blind (h : SameEnv pair env env') (fallback : Bool) {r r' : TradesRequest}
    (hr : SameTradesRequest pair r r') (hw : SameWire pair w w') :
    Agree pair (fetchQuery env fallback r w) (fetchQuery env' fallback r' w') := by
  obtain ⟨ht, hsame⟩ := hr
  obtain ⟨hres, hwire⟩ := fetchTradesWithDateFallback_blind h ht r.entry.queryId r.fromDate r.toDate
    fallback hw
  unfold fetchQuery
  rw [hsame]
  simp only
  rcases hf : fetchTradesWithDateFallback env r.entry.token r.entry.queryId r.fromDate r.toDate
    fallback w with ⟨res, w₁⟩
  rcases hf' : fetchTradesWithDateFallback env' r'.entry.token r.entry.queryId r.fromDate r.toDate
    fallback w' with ⟨res', w₁'⟩
  rw [hf, hf'] at hres hwire
  subst hres
  cases res with
  | ok fetched => exact ⟨rfl, hwire⟩
  | error e => cases e <;> exact ⟨rfl, hwire⟩

/-- Query ids and chunks of two runs. -/
def SameCashRequest (pair : String → String → Prop) (r r' : CashRequest) : Prop :=
  pair r.token r'.token ∧ r' = { r with token := r'.token }

theorem fetchChunk_blind (h : SameEnv pair env env') (fallback : Bool) {r r' : CashRequest}
    (hr : SameCashRequest pair r r') (hw : SameWire pair w w') :
    Agree pair (fetchChunk env fallback r w) (fetchChunk env' fallback r' w') := by
  obtain ⟨ht, hsame⟩ := hr
  have hfetch := fun (fromDate toDate : Option String) {w w' : Wire} (hw : SameWire pair w w') =>
    fetchReport_blind h.service h.parseCash ht r.queryId fromDate toDate none hw
  obtain ⟨hres, hwire⟩ := hfetch r.chunk.1 r.chunk.2 hw
  unfold fetchChunk
  rw [hsame]
  simp only
  rcases hf : fetchReport env.flex env.parseCashTransactionsXml r.token r.queryId r.chunk.1
    r.chunk.2 none w with ⟨res, w₁⟩
  rcases hf' : fetchReport env'.flex env'.parseCashTransactionsXml r'.token r.queryId r.chunk.1
    r.chunk.2 none w' with ⟨res', w₁'⟩
  rw [hf, hf'] at hres hwire
  subst hres
  cases res with
  | ok rows => exact ⟨rfl, hwire⟩
  | error e =>
    cases e with
    | other cls msg => exact ⟨rfl, hwire⟩
    | valueError e =>
      simp only
      split
      · obtain ⟨hres, hwire⟩ := hfetch none none hwire
        rcases hd : fetchReport env.flex env.parseCashTransactionsXml r.token r.queryId none none
          none w₁ with ⟨res, w₂⟩
        rcases hd' : fetchReport env'.flex env'.parseCashTransactionsXml r'.token r.queryId none
          none none w₁' with ⟨res', w₂'⟩
        rw [hd, hd'] at hres hwire
        subst hres
        cases res with
        | ok rows => exact ⟨rfl, hwire⟩
        | error e => cases e <;> exact ⟨rfl, hwire⟩
      · exact ⟨rfl, hwire⟩

end

/-! ## The queries of a run -/

/-- Two tokens that an observer of the mask cannot tell apart. -/
def Corresponds (token token' : String) : Prop :=
  (strip token = "" ↔ strip token' = "") ∧ lastFour (strip token) = lastFour (strip token')

/-- The token a run sends in one deployment, and the one in its place in the other. -/
def TokenPair (tokens tokens' : FlexTokens) (t t' : String) : Prop :=
  (t = strip tokens.host ∧ t' = strip tokens'.host) ∨
    (t = strip tokens.secondary ∧ t' = strip tokens'.secondary)

section Queries
variable {tokens tokens' : FlexTokens} {t t' : String}

theorem TokenPair.trimmed (h : TokenPair tokens tokens' t t') : strip t = t ∧ strip t' = t' := by
  rcases h with ⟨rfl, rfl⟩ | ⟨rfl, rfl⟩ <;> exact ⟨strip_strip _, strip_strip _⟩

theorem TokenPair.blank (hhost : Corresponds tokens.host tokens'.host)
    (hsecondary : Corresponds tokens.secondary tokens'.secondary)
    (h : TokenPair tokens tokens' t t') : t = "" ↔ t' = "" := by
  rcases h with ⟨rfl, rfl⟩ | ⟨rfl, rfl⟩
  · exact hhost.1
  · exact hsecondary.1

/-- Configured queries that are the same but for their tokens. -/
def SameQuery (tokens tokens' : FlexTokens) (e e' : QueryEntry) : Prop :=
  TokenPair tokens tokens' e.token e'.token ∧ e' = { e with token := e'.token }

/-- The queries of one side of a row. -/
theorem side_blind (role : String) (raw label purpose : Option String)
    (hpair : TokenPair tokens tokens' t t') (hblank : t = "" ↔ t' = "") :
    List.Forall₂ (SameQuery tokens tokens')
      (if t = "" then [] else (queryIds raw).map fun q => ⟨t, q, role, label, purpose⟩)
      (if t' = "" then [] else (queryIds raw).map fun q => ⟨t', q, role, label, purpose⟩) := by
  by_cases ht : t = ""
  · rw [if_pos ht, if_pos (hblank.mp ht)]
    exact .nil
  · rw [if_neg ht, if_neg (fun h => ht (hblank.mpr h)), List.forall₂_map_left_iff,
      List.forall₂_map_right_iff, List.forall₂_same]
    intro q _
    exact ⟨hpair, rfl⟩

theorem getFlexConfig_blind (hhost : Corresponds tokens.host tokens'.host)
    (hsecondary : Corresponds tokens.secondary tokens'.secondary) (purpose : String)
    (gs : GoldenSource) :
    List.Forall₂ (SameQuery tokens tokens') (getFlexConfig tokens purpose gs)
      (getFlexConfig tokens' purpose gs) := by
  unfold getFlexConfig queryEntries
  refine List.rel_flatMap (R := Eq) (by rw [List.forall₂_eq_eq_eq]) ?_
  rintro r _ rfl
  simp only [List.flatMap_cons, List.flatMap_nil, List.append_nil]
  exact List.rel_append (side_blind _ _ _ _ (Or.inl ⟨rfl, rfl⟩) hhost.1)
    (side_blind _ _ _ _ (Or.inr ⟨rfl, rfl⟩) hsecondary.1)

/-- Entries of the two runs. -/
def SameTradesEntry (tokens tokens' : FlexTokens) (e e' : TradesEntry) : Prop :=
  TokenPair tokens tokens' e.token e'.token ∧ e' = { e with token := e'.token }

theorem tradesEntries_blind {env env' : Env} (hhost : Corresponds env.tokens.host env'.tokens.host)
    (hsecondary : Corresponds env.tokens.secondary env'.tokens.secondary) (gs : GoldenSource) :
    List.Forall₂ (SameTradesEntry env.tokens env'.tokens) (tradesEntries env gs)
      (tradesEntries env' gs) := by
  unfold tradesEntries
  refine List.rel_filter ?_ (List.rel_map ?_ (getFlexConfig_blind hhost hsecondary "trades" gs))
  · rintro e e' ⟨hpair, hsame⟩
    rw [hsame]
    simp only [decide_eq_true_eq, ne_eq, hpair.blank hhost hsecondary]
  · rintro e e' ⟨hpair, hsame⟩
    obtain ⟨htrim, htrim'⟩ := hpair.trimmed
    rw [hsame]
    simp only [htrim, htrim']
    exact ⟨hpair, rfl⟩

theorem cashEntries_blind {env env' : Env} (hhost : Corresponds env.tokens.host env'.tokens.host)
    (hsecondary : Corresponds env.tokens.secondary env'.tokens.secondary) (gs : GoldenSource) :
    List.Forall₂ (fun e e' => TokenPair env.tokens env'.tokens e.1 e'.1 ∧ e.2 = e'.2)
      (cashEntries env gs) (cashEntries env' gs) := by
  unfold cashEntries
  refine List.rel_filter ?_
    (List.rel_map ?_ (getFlexConfig_blind hhost hsecondary "cash_transactions" gs))
  · rintro ⟨t, q⟩ ⟨t', q'⟩ ⟨hpair, rfl⟩
    simp only [decide_eq_true_eq, ne_eq, hpair.blank hhost hsecondary]
  · rintro e e' ⟨hpair, hsame⟩
    obtain ⟨htrim, htrim'⟩ := hpair.trimmed
    rw [hsame]
    simp only [htrim, htrim']
    exact ⟨hpair, trivial⟩

theorem tradesRequests_blind {entries entries' : List TradesEntry}
    (h : List.Forall₂ (SameTradesEntry tokens tokens') entries entries') (req : Requested) :
    List.Forall₂ (SameTradesRequest (TokenPair tokens tokens')) (tradesRequests entries req)
      (tradesRequests entries' req) := by
  unfold tradesRequests
  generalize 0 = n
  induction h generalizing n with
  | nil => exact .nil
  | cons hsame _ ih =>
    obtain ⟨hpair, hsame⟩ := hsame
    refine .cons ⟨hpair, ?_⟩ (ih (n + 1))
    rw [hsame]

theorem cashRequests_blind {entries entries' : List (String × String)}
    (h : List.Forall₂ (fun e e' => TokenPair tokens tokens' e.1 e'.1 ∧ e.2 = e'.2) entries entries')
    (chunks : List Chunk) :
    List.Forall₂ (SameCashRequest (TokenPair tokens tokens')) (cashRequests entries chunks)
      (cashRequests entries' chunks) := by
  unfold cashRequests
  refine List.rel_flatMap h ?_
  rintro ⟨t, q⟩ ⟨t', q'⟩ ⟨hpair, rfl⟩
  rw [List.forall₂_map_left_iff, List.forall₂_map_right_iff, List.forall₂_same]
  intro c _
  exact ⟨hpair, rfl⟩

end Queries

/-! ## What is published -/

/-- The event that is published, but for its id and its time. -/
structure SystemMessage where
  ok : Bool
  title : String
  message : String
  reason : Option String
  level : String
  deriving DecidableEq, Repr

/-- The event that goes with a result: it has the same text. -/
def TradesResult.published (result : TradesResult) (title : String) (reason : Option String)
    (level : String) : SystemMessage :=
  ⟨result.ok, title, (result.message.or result.error).getD "", reason, level⟩

/-- A run that failed with this text. -/
def TradesResult.publishedFailure (result : TradesResult) : SystemMessage :=
  result.published "Flex executions fetch failed" (slice (result.error.getD "") 500) "error"

/-- What follows the query loop, for the message center. -/
def finishTradesMessage (env : Env) (entries : List TradesEntry) (req : Requested)
    (turns : List TradesTurn) (gs : GoldenSource) : SystemMessage :=
  let result := (finishTrades env entries req turns gs).1
  match escapedOf turns with
  | some _ => result.publishedFailure
  | none =>
    if tradeRows turns = [] then
      if tradesErrors entries.length turns ≠ [] then result.publishedFailure
      else result.published "Flex executions import: no rows" none "warning"
    else
      match env.writeAccountExecutionsToDb (tradeRows turns) gs with
      | (.error _, _) => result.publishedFailure
      | (.ok false, _) =>
        result.published "Flex executions write failed" "write_account_executions_to_db" "error"
      | (.ok true, _) => result.published "Flex executions imported" none "success"

/-- What `fetch_flex_trades_and_upsert_executions` publishes. -/
def tradesPublished (env : Env) (payload : Dict) (today : Date) (gs : GoldenSource) (w : Wire) :
    SystemMessage :=
  let run := fetchFlexTradesAndUpsertExecutions env payload today gs w
  if env.postgresReady = false then
    run.result.published "Flex executions fetch failed" "no control_via_db" "error"
  else
    let entries := tradesEntries env gs
    if entries = [] then
      run.result.published "Flex executions fetch failed" "no flex trades credentials" "error"
    else
      match tradesWindow payload gs today with
      | .error _ => run.result.publishedFailure
      | .ok req => finishTradesMessage env entries req run.turns gs

section Finish
variable {tokens tokens' : FlexTokens} {env env' : Env}

section Turns
variable {turns turns' : List TradesTurn}

theorem sameRequest_entry {pair : String → String → Prop} {r r' : TradesRequest}
    (h : SameTradesRequest pair r r') :
    r.index = r'.index ∧ r.entry.role = r'.entry.role ∧ r.entry.queryId = r'.entry.queryId ∧
      r.entry.queryLabel = r'.entry.queryLabel := by
  obtain ⟨_, hsame⟩ := h
  rw [hsame]
  exact ⟨rfl, rfl, rfl, rfl⟩

variable (h : List.Forall₂ (Same (SameTradesRequest (TokenPair tokens tokens'))) turns turns')
include h

theorem tradeRows_blind : tradeRows turns = tradeRows turns' := by
  unfold tradeRows
  rw [List.flatMap_def, List.flatMap_def]
  congr 1
  exact map_related (fun t t' hsame => by rw [hsame.2]) h

theorem tradesErrors_blind (n : ℕ) : tradesErrors n turns = tradesErrors n turns' := by
  unfold tradesErrors failures
  rw [List.map_filterMap, List.map_filterMap]
  refine filterMap_related ?_ h
  rintro t t' ⟨hkey, ho⟩
  obtain ⟨hindex, hrole, hquery, _⟩ := sameRequest_entry hkey
  rw [ho]
  simp only [Option.map_map, Function.comp_def, hindex, hrole, hquery]

theorem rowsPerFetch_blind : rowsPerFetch turns = rowsPerFetch turns' := by
  unfold rowsPerFetch
  exact map_related (fun t t' hsame => by rw [hsame.2]) h

theorem perQuery_blind : perQuery turns = perQuery turns' := by
  unfold perQuery
  refine filterMap_related ?_ h
  rintro t t' ⟨hkey, ho⟩
  obtain ⟨_, hrole, hquery, hlabel⟩ := sameRequest_entry hkey
  simp only [ho, hrole, hquery, hlabel]

end Turns

theorem hostHint_blind {entries entries' : List TradesEntry}
    (h : List.Forall₂ (SameTradesEntry tokens tokens') entries entries') (counts : List ℤ) :
    hostHint entries counts = hostHint entries' counts := by
  cases h with
  | nil => rfl
  | cons hsame _ =>
    obtain ⟨_, hsame⟩ := hsame
    rw [hsame]
    cases counts <;> rfl

theorem tradesMessage_blind {entries entries' : List TradesEntry}
    (h : List.Forall₂ (SameTradesEntry tokens tokens') entries entries') :
    tradesMessage entries = tradesMessage entries' := by
  funext rows counts lastAfter dataFrom dataTo errors
  unfold tradesMessage
  rw [hostHint_blind h, h.length_eq]

theorem finishTrades_blind {turns turns' : List TradesTurn} {entries entries' : List TradesEntry}
    (hwrite : env.writeAccountExecutionsToDb = env'.writeAccountExecutionsToDb)
    (hentries : List.Forall₂ (SameTradesEntry tokens tokens') entries entries')
    (hturns : List.Forall₂ (Same (SameTradesRequest (TokenPair tokens tokens'))) turns turns')
    (req : Requested) (gs : GoldenSource) :
    finishTrades env entries req turns gs = finishTrades env' entries' req turns' gs := by
  unfold finishTrades
  rw [escapedOf_related hturns, tradeRows_blind hturns, hentries.length_eq,
    tradesErrors_blind hturns, rowsPerFetch_blind hturns, perQuery_blind hturns,
    tradesMessage_blind hentries, hwrite]

theorem finishTradesMessage_blind {turns turns' : List TradesTurn}
    {entries entries' : List TradesEntry}
    (hwrite : env.writeAccountExecutionsToDb = env'.writeAccountExecutionsToDb)
    (hentries : List.Forall₂ (SameTradesEntry tokens tokens') entries entries')
    (hturns : List.Forall₂ (Same (SameTradesRequest (TokenPair tokens tokens'))) turns turns')
    (req : Requested) (gs : GoldenSource) :
    finishTradesMessage env entries req turns gs =
      finishTradesMessage env' entries' req turns' gs := by
  unfold finishTradesMessage
  rw [finishTrades_blind hwrite hentries hturns, escapedOf_related hturns, tradeRows_blind hturns,
    hentries.length_eq, tradesErrors_blind hturns, hwrite]

theorem finishCash_blind {turns turns' : List CashTurn}
    (hupsert : env.upsertAccountTransactions = env'.upsertAccountTransactions)
    (hturns : List.Forall₂ (Same (SameCashRequest (TokenPair tokens tokens'))) turns turns')
    (n k : ℕ) (req : Requested) (gs : GoldenSource) :
    finishCash env n req k turns gs = finishCash env' n req k turns' gs := by
  have hrows : cashRows turns = cashRows turns' := by
    unfold cashRows
    rw [List.flatMap_def, List.flatMap_def]
    congr 1
    exact map_related (fun t t' hsame => by rw [hsame.2]) hturns
  have herrors : cashErrors k turns = cashErrors k turns' := by
    unfold cashErrors failures
    rw [List.filter_filterMap, List.filter_filterMap, List.map_filterMap, List.map_filterMap]
    refine filterMap_related ?_ hturns
    rintro t t' ⟨⟨_, hkey⟩, ho⟩
    rw [ho, hkey]
    cases t'.outcome.failed? with
    | none => rfl
    | some text => by_cases htext : text = "" <;> simp [Option.filter_some, htext]
  unfold finishCash
  rw [escapedOf_related hturns, hrows, herrors, hupsert]

end Finish

/-! ## Two runs -/

/-- Two deployments that differ in the values of the tokens alone: IB does not tell their requests
apart, and everything else is the same. -/
structure SameButTokens (d d' : Deployment) : Prop where
  host : Corresponds d.tokens.host d'.tokens.host
  secondary : Corresponds d.tokens.secondary d'.tokens.secondary
  service : SameService (TokenPair d.tokens d'.tokens) d.flex d'.flex
  zone : d.zone = d'.zone
  postgresReady : d.postgresReady = d'.postgresReady
  upsert : d.upsertAccountTransactions = d'.upsertAccountTransactions
  write : d.writeAccountExecutionsToDb = d'.writeAccountExecutionsToDb

theorem SameButTokens.env {d d' : Deployment} (h : SameButTokens d d') :
    SameEnv (TokenPair d.tokens d'.tokens) d.env d'.env where
  service := h.service
  postgresReady := h.postgresReady
  parseCash := by
    funext body
    show Except.ok _ = Except.ok _
    unfold parseCashTransactionsXml
    rw [h.service.fromstring]
  parseTrades := by
    funext body
    show Except.map _ _ = Except.map _ _
    unfold parseTradesXml
    rw [h.service.fromstring, h.zone]
  upsert := h.upsert
  write := h.write

section Runs
variable {d d' : Deployment} {w w' : Wire}

/-- What two runs of a kind have in common. -/
def SameRun (pair : String → String → Prop) {ρ : Type} (result result' : ρ) (w w' : Wire)
    (gs gs' : GoldenSource) : Prop :=
  result = result' ∧ SameWire pair w w' ∧ gs = gs'

theorem trades_blind (h : SameButTokens d d') (hw : SameWire (TokenPair d.tokens d'.tokens) w w')
    (payload : Dict) (today : Date) (gs : GoldenSource) :
    let run := fetchFlexTradesAndUpsertExecutions d.env payload today gs w
    let run' := fetchFlexTradesAndUpsertExecutions d'.env payload today gs w'
    SameRun (TokenPair d.tokens d'.tokens) run.result run'.result run.wire run'.wire run.store
        run'.store ∧
      tradesPublished d.env payload today gs w = tradesPublished d'.env payload today gs w' := by
  have henv := h.env
  have hentries := @tradesEntries_blind d.env d'.env h.host h.secondary gs
  unfold tradesPublished fetchFlexTradesAndUpsertExecutions
  rw [← henv.postgresReady]
  by_cases hready : d.env.postgresReady = false
  · simp only [if_pos hready]
    exact ⟨⟨rfl, hw, rfl⟩, trivial⟩
  · simp only [if_neg hready]
    by_cases hnone : tradesEntries d.env gs = []
    · rw [hnone, List.forall₂_nil_left_iff] at hentries
      simp only [if_pos hnone, if_pos hentries]
      exact ⟨⟨rfl, hw, rfl⟩, trivial⟩
    · have hsome : tradesEntries d'.env gs ≠ [] := by
        intro hnil
        rw [hnil, List.forall₂_nil_right_iff] at hentries
        exact hnone hentries
      simp only [if_neg hnone, if_neg hsome]
      cases tradesWindow payload gs today with
      | error e => exact ⟨⟨rfl, hw, rfl⟩, rfl⟩
      | ok req =>
        have hbody : ∀ r r' l l', SameTradesRequest (TokenPair d.tokens d'.tokens) r r' →
            SameWire (TokenPair d.tokens d'.tokens) l l' →
            Agree (TokenPair d.tokens d'.tokens) (fetchQuery d.env (allowFallback payload) r l)
              (fetchQuery d'.env (allowFallback payload) r' l') :=
          fun _ _ _ _ hr hl => fetchQuery_blind henv (allowFallback payload) hr hl
        obtain ⟨hturns, hwire⟩ := visit_related hbody (tradesRequests_blind hentries req) hw
        have hfinish := finishTrades_blind henv.write hentries hturns req gs
        refine ⟨⟨congrArg Prod.fst hfinish, hwire, congrArg Prod.snd hfinish⟩, ?_⟩
        exact finishTradesMessage_blind henv.write hentries hturns req gs

theorem cash_blind (h : SameButTokens d d') (hw : SameWire (TokenPair d.tokens d'.tokens) w w')
    (payload : Dict) (today : Date) (gs : GoldenSource) :
    let run := fetchCashTransactionsFromFlex d.env payload today gs w
    let run' := fetchCashTransactionsFromFlex d'.env payload today gs w'
    SameRun (TokenPair d.tokens d'.tokens) run.result run'.result run.wire run'.wire run.store
      run'.store := by
  have henv := h.env
  have hentries := @cashEntries_blind d.env d'.env h.host h.secondary gs
  unfold fetchCashTransactionsFromFlex
  rw [← henv.postgresReady]
  by_cases hready : d.env.postgresReady = false
  · simp only [if_pos hready]
    exact ⟨rfl, hw, rfl⟩
  · simp only [if_neg hready]
    by_cases hnone : cashEntries d.env gs = []
    · rw [hnone, List.forall₂_nil_left_iff] at hentries
      simp only [if_pos hnone, if_pos hentries]
      exact ⟨rfl, hw, rfl⟩
    · have hsome : cashEntries d'.env gs ≠ [] := by
        intro hnil
        rw [hnil, List.forall₂_nil_right_iff] at hentries
        exact hnone hentries
      simp only [if_neg hnone, if_neg hsome]
      cases cashWindow payload gs today with
      | error e => exact ⟨rfl, hw, rfl⟩
      | ok req =>
        simp only
        cases requestChunks req.fromDate req.toDate with
        | error e => exact ⟨rfl, hw, rfl⟩
        | ok chunks =>
          have hbody : ∀ r r' l l', SameCashRequest (TokenPair d.tokens d'.tokens) r r' →
              SameWire (TokenPair d.tokens d'.tokens) l l' →
              Agree (TokenPair d.tokens d'.tokens)
                (fetchChunk d.env (allowFallback payload && chunks.length = 1) r l)
                (fetchChunk d'.env (allowFallback payload && chunks.length = 1) r' l') :=
            fun _ _ _ _ hr hl => fetchChunk_blind henv _ hr hl
          obtain ⟨hturns, hwire⟩ := visit_related hbody (cashRequests_blind hentries chunks) hw
          have hfinish := finishCash_blind henv.upsert hturns (cashEntries d.env gs).length
            chunks.length req gs
          simp only [runCash, ← hentries.length_eq]
          exact ⟨congrArg Prod.fst hfinish, hwire, congrArg Prod.snd hfinish⟩

/-- A job comes to the same: what `dispatch` returns, or the exception it raises. -/
theorem dispatch_blind (h : SameButTokens d d')
    (hw : SameWire (TokenPair d.tokens d'.tokens) w w') (fresh : FreshnessDb) (kind : String)
    (payload : Dict) (today : Date) (gs : GoldenSource) :
    (dispatch d fresh kind payload today gs w).1 =
      (dispatch d' fresh kind payload today gs w').1 := by
  have hhandler : ∀ handler, handlerOf (strip kind) = some handler →
      (handler d payload today gs w).1 = (handler d' payload today gs w').1 := by
    intro handler hkind
    unfold handlerOf at hkind
    split at hkind
    · cases hkind
      obtain ⟨⟨hresult, _, _⟩, _⟩ := trades_blind h hw payload today gs
      simp only [handleFlexTrades, hresult]
    · split at hkind
      · cases hkind
        obtain ⟨hresult, _, _⟩ := cash_blind h hw payload today gs
        simp only [handleFlexTransactions, hresult]
      · cases hkind
  unfold dispatch
  cases hkind : handlerOf (strip kind) with
  | none => rfl
  | some handler =>
    have hsame := hhandler handler hkind
    simp only
    cases fresh.connect with
    | error e => rfl
    | ok u =>
      rcases hrun : handler d payload today gs w with ⟨res, w₁, gs₁⟩
      rcases hrun' : handler d' payload today gs w' with ⟨res', w₁', gs₁'⟩
      rw [hrun, hrun'] at hsame
      cases hsame
      cases res with
      | error e => rfl
      | ok inserted =>
        simp only
        split <;> rfl

theorem configSummary_blind (h : SameButTokens d d') (issuedAt : String) (now : ℤ)
    (days : Except PyExc (ℤ × ℤ)) (rows : Except PyExc (List QueryRow)) :
    configSummary d.tokens issuedAt now days rows =
      configSummary d'.tokens issuedAt now days rows := by
  have hmask : ∀ {token token' : String}, Corresponds token token' →
      maskTokenLast4 (strip token) = maskTokenLast4 (strip token') := by
    rintro token token' ⟨hblank, hlast⟩
    unfold maskTokenLast4 orNone
    rw [strip_strip, strip_strip]
    by_cases hnone : strip token = ""
    · rw [if_pos hnone, if_pos (hblank.mp hnone)]
    · rw [if_neg hnone, if_neg fun hnone' => hnone (hblank.mpr hnone')]
      exact congrArg some hlast
  unfold configSummary resolveFlexTokens
  simp only [hmask h.host, hmask h.secondary, ne_eq, h.host.1, h.secondary.1]

/-- What is stored of a job that failed: the text and its category. -/
def errorColumn (dispatched : Except PyExc Dispatched) : Option (String × ErrorCategory) :=
  match dispatched with
  | .ok _ => none
  | .error exc => some (exc.str, classifyFlexError exc.str)

/-- **The tokens are not observed.**  Between deployments that differ in their values alone, with
the same last four characters, the summary, both runs' results, the error of a job and the
published message are the same. -/
theorem tokens_unobserved (h : SameButTokens d d')
    (hw : SameWire (TokenPair d.tokens d'.tokens) w w') (issuedAt : String) (now : ℤ)
    (days : Except PyExc (ℤ × ℤ)) (rows : Except PyExc (List QueryRow)) (fresh : FreshnessDb)
    (kind : String) (payload : Dict) (today : Date) (gs : GoldenSource) :
    configSummary d.tokens issuedAt now days rows =
        configSummary d'.tokens issuedAt now days rows ∧
      (fetchFlexTradesAndUpsertExecutions d.env payload today gs w).result =
        (fetchFlexTradesAndUpsertExecutions d'.env payload today gs w').result ∧
      (fetchCashTransactionsFromFlex d.env payload today gs w).result =
        (fetchCashTransactionsFromFlex d'.env payload today gs w').result ∧
      errorColumn (dispatch d fresh kind payload today gs w).1 =
        errorColumn (dispatch d' fresh kind payload today gs w').1 ∧
      tradesPublished d.env payload today gs w = tradesPublished d'.env payload today gs w' := by
  obtain ⟨⟨htrades, _, _⟩, hpublished⟩ := trades_blind h hw payload today gs
  obtain ⟨hcash, _, _⟩ := cash_blind h hw payload today gs
  refine ⟨configSummary_blind h issuedAt now days rows, htrades, hcash, ?_, hpublished⟩
  rw [dispatch_blind h hw]

end Runs

/-- IB answers every query with one fill, whatever the token. -/
def withTokens (host secondary : String) : Deployment :=
  { hostOnly with tokens := ⟨host, secondary⟩ }

theorem withTokens_same {host secondary host' secondary' : String} (hhost : Corresponds host host')
    (hsecondary : Corresponds secondary secondary') :
    SameButTokens (withTokens host secondary) (withTokens host' secondary') where
  host := hhost
  secondary := hsecondary
  service := by
    refine ⟨?_, rfl⟩
    intro w w' req req' _ hreq
    cases hreq <;> rfl
  zone := rfl
  postgresReady := rfl
  upsert := rfl
  write := rfl

/-- A rotated token with the same ending: both runs report the fill, and the summary is the same. -/
theorem rotated_token_unobserved :
    let d := withTokens "old-token-7731" ""
    let d' := withTokens " rotated-7731 " " "
    (fetchFlexTradesAndUpsertExecutions d.env queuedPayload tradesToday hostQueries []).result =
        (fetchFlexTradesAndUpsertExecutions d'.env queuedPayload tradesToday hostQueries
          []).result ∧
      configSummary d.tokens "" 0 (.ok (30, 360)) (.ok hostQueries.settingsFlex) =
        configSummary d'.tokens "" 0 (.ok (30, 360)) (.ok hostQueries.settingsFlex) := by
  have hhost : Corresponds "old-token-7731" " rotated-7731 " := by
    refine ⟨iff_of_false ?_ ?_, ?_⟩ <;> decide +kernel
  have hsecondary : Corresponds "" " " := ⟨iff_of_true (by decide) (by decide), by decide⟩
  obtain ⟨hsummary, htrades, _⟩ := tokens_unobserved (withTokens_same hhost hsecondary) .nil "" 0
    (.ok (30, 360)) (.ok hostQueries.settingsFlex) freshnessUp "flex-trades" queuedPayload
    tradesToday hostQueries
  exact ⟨htrades, hsummary⟩

end FlexQuery
