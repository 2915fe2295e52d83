import FlexQuery.Orchestration.Trades
import FlexQuery.Orchestration.Transactions

/-!
# What one turn of a run sends

* `Widened` — the query-default request and, for trades, the `period=5` one.
* `Sent` — the exchange of a turn's own request, and what follows it.
* `fetchChunk_sent`, `fetchTrades_sent` — a turn whose request is made sends no more than that.
* `fetchChunk_refused`, `fetchTrades_refused` — one that is refused locally sends nothing, or
  widens.
* `cash_run_sends`, `trades_run_sends` — a run sends what its turns send.
-/

set_option autoImplicit false

namespace FlexQuery

open Visit

/-- A widening: the query default, and perhaps the last 365 days after it. -/
def Widened (flex : FlexService) (t q : String) (rest : Wire) : Prop :=
  ∃ p₁ p₂, rest = p₁ ++ p₂ ∧ Exchange flex (.sendRequest t q none none) p₁ ∧
    (p₂ = [] ∨ Exchange flex (.sendRequest t q (some "5") none) p₂)

/-- What a turn sends once its request is made: the exchange, and a widening if that is allowed.
When IB refused the request, only an unavailable statement leads to one. -/
def Sent (flex : FlexService) (t q : String) (dates : Option (String × String)) (widen : Bool)
    (part : Wire) : Prop :=
  ∃ p₁ rest, part = p₁ ++ rest ∧ Exchange flex (.sendRequest t q none dates) p₁ ∧
    (rest = [] ∨ (widen = true ∧ Widened flex t q rest)) ∧
    ∀ ans tail e, p₁ = (.sendRequest t q none dates, ans) :: tail →
      readReference flex ans = .error (.valueError e) → rest ≠ [] → statementUnavailable e = true

theorem Exchange.ne_nil {flex : FlexService} {req : HttpRequest} {part : Wire}
    (h : Exchange flex req part) : part ≠ [] := by
  obtain ⟨ans, polls, rfl, _⟩ := h
  exact List.cons_ne_nil _ _

/-- No request of an exchange has dates but its first. -/
theorem Exchange.dates {flex : FlexService} {req : HttpRequest} {part : Wire}
    (h : Exchange flex req part) : ∀ x ∈ part, x.1.dates = req.dates ∨ x.1.dates = none := by
  obtain ⟨ans, polls, rfl, _, hpolls, _⟩ := h
  intro x hx
  rcases List.mem_cons.mp hx with rfl | hx
  · exact Or.inl rfl
  · have hpoll := (hpolls x hx).1
    apply Or.inr
    cases hreq : x.1 with
    | sendRequest t q p dates =>
      rw [hreq] at hpoll
      cases hpoll
    | getStatement t q => rfl

theorem Widened.dates {flex : FlexService} {t q : String} {rest : Wire}
    (h : Widened flex t q rest) : ∀ x ∈ rest, x.1.dates = none := by
  obtain ⟨p₁, p₂, rfl, h₁, h₂⟩ := h
  intro x hx
  rcases List.mem_append.mp hx with hx | hx
  · rcases h₁.dates x hx with h | h <;> exact h
  · rcases h₂ with rfl | h₂
    · cases hx
    · rcases h₂.dates x hx with h | h <;> exact h

/-! ## Trades -/

theorem fetchPeriod5_wire (env : Env) (t q : String) (primary : Option String) (w : Wire) :
    ∃ part, (fetchPeriod5 env t q primary w).2 = w ++ part ∧
      Exchange env.flex (.sendRequest t q (some "5") none) part := by
  obtain ⟨part, hwire, hex, _⟩ := fetchReport_exchange env.flex env.parseTradesXml
    (reportRequest_undated t q (some 5)) w
  refine ⟨part, ?_, hex⟩
  unfold fetchPeriod5 fetchTrades
  cases hf : fetchReport env.flex env.parseTradesXml t q none none (some 5) w with
  | mk res w' =>
    rw [hf] at hwire
    cases res with
    | error e =>
      cases e with
      | valueError e => cases primary <;> exact hwire
      | other cls msg => exact hwire
    | ok rows =>
      simp only
      split
      · exact hwire
      · cases primary <;> exact hwire

theorem fetchQueryDefault_wire (env : Env) (t q : String) (primary : Option String) (w : Wire) :
    ∃ part, (fetchQueryDefault env t q primary w).2 = w ++ part ∧ Widened env.flex t q part := by
  obtain ⟨part, hwire, hex, _⟩ := fetchReport_exchange env.flex env.parseTradesXml
    (reportRequest_undated t q none) w
  have hstop : ∃ part', w ++ part = w ++ part' ∧ Widened env.flex t q part' :=
    ⟨part, rfl, part, [], (List.append_nil part).symm, hex, Or.inl rfl⟩
  have hmore : ∀ primary', ∃ part',
      (fetchPeriod5 env t q primary' (w ++ part)).2 = w ++ part' ∧
        Widened env.flex t q part' := by
    intro primary'
    obtain ⟨next, hnext, hex'⟩ := fetchPeriod5_wire env t q primary' (w ++ part)
    exact ⟨part ++ next, by rw [hnext, List.append_assoc], part, next, rfl, hex, Or.inr hex'⟩
  unfold fetchQueryDefault fetchTrades
  cases hf : fetchReport env.flex env.parseTradesXml t q none none none w with
  | mk res w' =>
    rw [hf] at hwire
    have hw : w' = w ++ part := hwire
    rw [hw]
    cases res with
    | error e =>
      cases e with
      | valueError e => exact hmore _
      | other cls msg => exact hstop
    | ok rows =>
      simp only
      split
      · exact hstop
      · exact hmore _

theorem fetchTrades_sent (env : Env) {t q : String} {fromDate toDate : Option String}
    {dates : Option (String × String)} (fallback : Bool)
    (h : reportRequest t q fromDate toDate none = .ok (.sendRequest t q none dates)) (w : Wire) :
    ∃ part, (fetchTradesWithDateFallback env t q fromDate toDate fallback w).2 = w ++ part ∧
      Sent env.flex t q dates fallback part := by
  obtain ⟨part, hwire, hex, hres⟩ := fetchReport_exchange env.flex env.parseTradesXml h w
  have hstop : ∃ part', w ++ part = w ++ part' ∧ Sent env.flex t q dates fallback part' :=
    ⟨part, rfl, part, [], (List.append_nil part).symm, hex, Or.inl rfl,
      fun _ _ _ _ _ hne => absurd rfl hne⟩
  unfold fetchTradesWithDateFallback fetchTrades
  cases hf : fetchReport env.flex env.parseTradesXml t q fromDate toDate none w with
  | mk res w' =>
    rw [hf] at hwire hres
    have hw : w' = w ++ part := hwire
    rw [hw]
    cases res with
    | error e =>
      cases e with
      | valueError e =>
        simp only
        split
        · rename_i hwiden
          simp only [Bool.and_eq_true] at hwiden
          obtain ⟨next, hnext, hwidened⟩ := fetchQueryDefault_wire env t q (some e) (w ++ part)
          refine ⟨part ++ next, by rw [hnext, List.append_assoc], part, next, rfl, hex,
            Or.inr ⟨hwiden.2, hwidened⟩, ?_⟩
          intro ans tail e' hpart he' _
          rw [← PyExc.valueError.inj (Except.error.inj (hres ans tail _ hpart he'))]
          exact hwiden.1.2
        · exact hstop
      | other cls msg => exact hstop
    | ok rows =>
      simp only
      split
      · exact hstop
      · rename_i hmore
        obtain ⟨next, hnext, hwidened⟩ := fetchQueryDefault_wire env t q none (w ++ part)
        have hfallback : fallback = true := by
          cases fallback
          · exact absurd (Or.inr rfl) hmore
          · rfl
        refine ⟨part ++ next, by rw [hnext, List.append_assoc], part, next, rfl, hex,
          Or.inr ⟨hfallback, hwidened⟩, ?_⟩
        intro ans tail e' hpart he' _
        cases hres ans tail _ hpart he'

theorem fetchTrades_refused (env : Env) {t q : String} {fromDate toDate : Option String} {e : PyExc}
    (fallback : Bool) (h : reportRequest t q fromDate toDate none = .error e) (w : Wire) :
    ∃ part, (fetchTradesWithDateFallback env t q fromDate toDate fallback w).2 = w ++ part ∧
      (part = [] ∨ (fallback = true ∧ Widened env.flex t q part)) := by
  unfold fetchTradesWithDateFallback fetchTrades
  rw [fetchReport_refused env.flex env.parseTradesXml h]
  cases e with
  | valueError e =>
    simp only
    split
    · rename_i hwiden
      simp only [Bool.and_eq_true] at hwiden
      obtain ⟨next, hnext, hwidened⟩ := fetchQueryDefault_wire env t q (some e) w
      exact ⟨next, hnext, Or.inr ⟨hwiden.2, hwidened⟩⟩
    · exact ⟨[], (List.append_nil w).symm, Or.inl rfl⟩
  | other cls msg => exact ⟨[], (List.append_nil w).symm, Or.inl rfl⟩

/-! ## Cash transactions -/

/-- The widening of a chunk: the query default. -/
theorem fetchChunk_default_wire (env : Env) (t q : String) (w : Wire) :
    ∃ part, (fetchReport env.flex env.parseCashTransactionsXml t q none none none w).2 =
        w ++ part ∧ Widened env.flex t q part := by
  obtain ⟨part, hwire, hex, _⟩ := fetchReport_exchange env.flex env.parseCashTransactionsXml
    (reportRequest_undated t q none) w
  exact ⟨part, hwire, part, [], (List.append_nil part).symm, hex, Or.inl rfl⟩

theorem fetchChunk_sent (env : Env) {req : CashRequest} {dates : Option (String × String)}
    (fallback : Bool)
    (h : reportRequest req.token req.queryId req.chunk.1 req.chunk.2 none =
      .ok (.sendRequest req.token req.queryId none dates)) (w : Wire) :
    ∃ part, (fetchChunk env fallback req w).2 = w ++ part ∧
      Sent env.flex req.token req.queryId dates fallback part := by
  obtain ⟨part, hwire, hex, hres⟩ :=
    fetchReport_exchange env.flex env.parseCashTransactionsXml h w
  have hstop : ∃ part', w ++ part = w ++ part' ∧
      Sent env.flex req.token req.queryId dates fallback part' :=
    ⟨part, rfl, part, [], (List.append_nil part).symm, hex, Or.inl rfl,
      fun _ _ _ _ _ hne => absurd rfl hne⟩
  unfold fetchChunk
  cases hf : fetchReport env.flex env.parseCashTransactionsXml req.token req.queryId req.chunk.1
      req.chunk.2 none w with
  | mk res w' =>
    rw [hf] at hwire hres
    have hw : w' = w ++ part := hwire
    rw [hw]
    cases res with
    | ok rows => exact hstop
    | error e =>
      cases e with
      | other cls msg => exact hstop
      | valueError e =>
        simp only
        split
        · rename_i hwiden
          simp only [Bool.and_eq_true] at hwiden
          obtain ⟨next, hnext, hwidened⟩ :=
            fetchChunk_default_wire env req.token req.queryId (w ++ part)
          have hsent : Sent env.flex req.token req.queryId dates fallback (part ++ next) := by
            refine ⟨part, next, rfl, hex, Or.inr ⟨hwiden.1.1.1, hwidened⟩, ?_⟩
            intro ans tail e' hpart he' _
            rw [← PyExc.valueError.inj (Except.error.inj (hres ans tail _ hpart he'))]
            exact hwiden.2
          refine ⟨part ++ next, ?_, hsent⟩
          rw [← List.append_assoc, ← hnext]
          split <;> simp_all
        · exact hstop

theorem fetchChunk_refused (env : Env) {req : CashRequest} {e : PyExc} (fallback : Bool)
    (h : reportRequest req.token req.queryId req.chunk.1 req.chunk.2 none = .error e) (w : Wire) :
    ∃ part, (fetchChunk env fallback req w).2 = w ++ part ∧
      (part = [] ∨ (fallback = true ∧ Widened env.flex req.token req.queryId part)) := by
  unfold fetchChunk
  rw [fetchReport_refused env.flex env.parseCashTransactionsXml h]
  cases e with
  | other cls msg => exact ⟨[], (List.append_nil w).symm, Or.inl rfl⟩
  | valueError e =>
    simp only
    split
    · rename_i hwiden
      simp only [Bool.and_eq_true] at hwiden
      obtain ⟨next, hnext, hwidened⟩ := fetchChunk_default_wire env req.token req.queryId w
      refine ⟨next, ?_, Or.inr ⟨hwiden.1.1.1, hwidened⟩⟩
      rw [← hnext]
      split <;> simp_all
    · exact ⟨[], (List.append_nil w).symm, Or.inl rfl⟩

/-! ## Turns -/

/-- What a turn sends: nothing or a widening, if its own request is refused locally, and otherwise
what `Sent` says. -/
def TurnSends (flex : FlexService) (t q : String) (widen : Bool) (part : Wire) : Prop :=
  part = [] ∨ (widen = true ∧ Widened flex t q part) ∨ ∃ dates, Sent flex t q dates widen part

theorem reportRequest_cases (t q : String) (fromDate toDate : Option String) :
    (∃ e, reportRequest t q fromDate toDate none = .error e) ∨
      ∃ dates, reportRequest t q fromDate toDate none = .ok (.sendRequest t q none dates) := by
  unfold reportRequest
  simp only
  split
  · split
    · rename_i e _
      exact Or.inl ⟨e, rfl⟩
    · exact Or.inr ⟨_, rfl⟩
  · split
    · exact Or.inl ⟨_, rfl⟩
    · exact Or.inr ⟨_, rfl⟩

theorem fetchChunk_sends (env : Env) (fallback : Bool) (req : CashRequest) (w : Wire) :
    ∃ part, (fetchChunk env fallback req w).2 = w ++ part ∧
      TurnSends env.flex req.token req.queryId fallback part := by
  rcases reportRequest_cases req.token req.queryId req.chunk.1 req.chunk.2 with
    ⟨e, h⟩ | ⟨dates, h⟩
  · obtain ⟨part, hwire, hpart⟩ := fetchChunk_refused env fallback h w
    exact ⟨part, hwire, hpart.imp_right Or.inl⟩
  · obtain ⟨part, hwire, hsent⟩ := fetchChunk_sent env fallback h w
    exact ⟨part, hwire, Or.inr (Or.inr ⟨dates, hsent⟩)⟩

theorem fetchQuery_wire (env : Env) (fallback : Bool) (req : TradesRequest) (w : Wire) :
    (fetchQuery env fallback req w).2 = (fetchTradesWithDateFallback env req.entry.token
      req.entry.queryId req.fromDate req.toDate fallback w).2 := by
  unfold fetchQuery
  split
  · rename_i h
    rw [h]
  · rename_i h
    rw [h]
  · rename_i h
    rw [h]

theorem fetchQuery_sends (env : Env) (fallback : Bool) (req : TradesRequest) (w : Wire) :
    ∃ part, (fetchQuery env fallback req w).2 = w ++ part ∧
      TurnSends env.flex req.entry.token req.entry.queryId fallback part := by
  rw [fetchQuery_wire]
  rcases reportRequest_cases req.entry.token req.entry.queryId req.fromDate req.toDate with
    ⟨e, h⟩ | ⟨dates, h⟩
  · obtain ⟨part, hwire, hpart⟩ := fetchTrades_refused env fallback h w
    exact ⟨part, hwire, hpart.imp_right Or.inl⟩
  · obtain ⟨part, hwire, hsent⟩ := fetchTrades_sent env fallback h w
    exact ⟨part, hwire, Or.inr (Or.inr ⟨dates, hsent⟩)⟩

/-! ## Runs -/

/-- A loop over such turns sends what they send. -/
theorem visit_sends {κ α : Type} {body : κ → Wire → Outcome α PyExc × Wire} {flex : FlexService}
    {widen : Bool} {token queryId : κ → String}
    (hbody : ∀ k w, ∃ part, (body k w).2 = w ++ part ∧
      TurnSends flex (token k) (queryId k) widen part) (ks : List κ) (w : Wire) :
    (visit body ks w).2 = w ++ (visit body ks w).1.flatMap Turn.part ∧
      ∀ t ∈ (visit body ks w).1,
        TurnSends flex (token t.key) (queryId t.key) widen t.part := by
  constructor
  · apply visit_log
    intro k log
    obtain ⟨part, hpart, _⟩ := hbody k log
    exact ⟨part, hpart.symm⟩
  · intro t ht
    obtain ⟨part, hpart, hsends⟩ := hbody t.key t.before
    rw [part_eq (visit_turns t ht).2 hpart]
    exact hsends

/-- A cash run sends what its turns send; only with one chunk does it widen. -/
theorem cash_run_sends (env : Env) (payload : Dict) (today : Date) (gs : GoldenSource) (w : Wire) :
    ∃ widen, (widen = true → allowFallback payload = true) ∧
      let run := fetchCashTransactionsFromFlex env payload today gs w
      (widen = true → ∀ t ∈ run.turns, ∀ t' ∈ run.turns, t.key.chunk = t'.key.chunk) ∧
      run.wire = w ++ run.turns.flatMap Turn.part ∧
      ∀ t ∈ run.turns, TurnSends env.flex t.key.token t.key.queryId widen t.part := by
  rcases cash_run_cases env payload today gs w with ⟨why, hrun⟩ | ⟨req, chunks, _, _, hrun⟩
  · rw [hrun]
    exact ⟨false, nofun, nofun, (List.append_nil w).symm, nofun⟩
  · rw [hrun]
    obtain ⟨hwire, hsends⟩ := visit_sends
      (fun k w => fetchChunk_sends env (allowFallback payload && chunks.length = 1) k w)
      (cashRequests (cashEntries env gs) chunks) w
    refine ⟨allowFallback payload && chunks.length = 1, ?_, ?_, hwire, hsends⟩
    · intro h
      exact (Bool.and_eq_true_iff.mp h).1
    · intro h t ht t' ht'
      obtain ⟨c, hc⟩ := List.length_eq_one_iff.mp
        (of_decide_eq_true (Bool.and_eq_true_iff.mp h).2)
      have hkey := (mem_cashRequests.mp (visit_turns t ht).1).2
      have hkey' := (mem_cashRequests.mp (visit_turns t' ht').1).2
      rw [hc, List.mem_singleton] at hkey hkey'
      rw [hkey, hkey']

/-- A trades run sends what its turns send. -/
theorem trades_run_sends (env : Env) (payload : Dict) (today : Date) (gs : GoldenSource)
    (w : Wire) :
    let run := fetchFlexTradesAndUpsertExecutions env payload today gs w
    run.wire = w ++ run.turns.flatMap Turn.part ∧
      ∀ t ∈ run.turns, TurnSends env.flex t.key.entry.token t.key.entry.queryId
        (allowFallback payload) t.part := by
  rcases trades_run_cases env payload today gs w with ⟨why, hrun⟩ | ⟨req, _, hrun⟩
  · rw [hrun]
    exact ⟨(List.append_nil w).symm, nofun⟩
  · rw [hrun]
    exact visit_sends (fun k w => fetchQuery_sends env (allowFallback payload) k w) _ w

end FlexQuery
