import FlexQuery.Orchestration.Throttle

/-!
# Everything a run asks IB

The wire of a run, read from one end to the other: SendRequest after SendRequest, and between two
of them only polls for the reference that the first was answered with.

* `Asked` — exchanges for these requests, in order; `Asked.length_le` counts the polls.
* `tradesPlan`, `cashPlan` — what one turn may ask: its own dates, then what it widens to.
* `fetchQuery_asked`, `fetchChunk_asked` — a turn asks for a beginning of its plan.
* `runs_ask_planned` — a run asks for nothing else, and in this order.
* `asked_once` — without `fallback` it asks once for every query, and for every chunk.
-/

set_option autoImplicit false

namespace FlexQuery

open Visit

/-- The SendRequests among some exchanges. -/
def sendRequests (part : Wire) : List HttpRequest :=
  (part.map Prod.fst).filter fun req => !req.isPoll

/-- Exchanges for these requests, one after the other. -/
inductive Asked (flex : FlexService) : List HttpRequest → Wire → Prop
  | nil : Asked flex [] []
  | exchange {req : HttpRequest} {reqs : List HttpRequest} {part rest : Wire} :
    Exchange flex req part → Asked flex reqs rest → Asked flex (req :: reqs) (part ++ rest)

theorem sendRequests_append (p₁ p₂ : Wire) :
    sendRequests (p₁ ++ p₂) = sendRequests p₁ ++ sendRequests p₂ := by
  simp [sendRequests]

theorem sendRequests_flatMap {α : Type} (f : α → Wire) (l : List α) :
    sendRequests (l.flatMap f) = l.flatMap fun a => sendRequests (f a) := by
  induction l with
  | nil => rfl
  | cons a l ih => rw [List.flatMap_cons, List.flatMap_cons, sendRequests_append, ih]

theorem Exchange.sendRequests {flex : FlexService} {req : HttpRequest} {part : Wire}
    (h : Exchange flex req part) (hreq : req.isPoll = false) :
    FlexQuery.sendRequests part = [req] := by
  obtain ⟨ans, polls, rfl, _, hpolls, _⟩ := h
  have hnone : (polls.map Prod.fst).filter (fun r => !r.isPoll) = [] := by
    rw [List.filter_eq_nil_iff]
    intro r hr
    obtain ⟨x, hx, rfl⟩ := List.mem_map.mp hr
    simp [(hpolls x hx).1]
  simp [FlexQuery.sendRequests, hreq, hnone]

section Sentences
variable {flex : FlexService} {req : HttpRequest} {reqs reqs' : List HttpRequest}
  {part part' : Wire}

theorem Exchange.asked (h : Exchange flex req part) : Asked flex [req] part := by
  have hone := Asked.exchange h Asked.nil
  rwa [List.append_nil] at hone

theorem Asked.append (h : Asked flex reqs part) (h' : Asked flex reqs' part') :
    Asked flex (reqs ++ reqs') (part ++ part') := by
  induction h with
  | nil => exact h'
  | exchange hex _ ih =>
    rw [List.cons_append, List.append_assoc]
    exact Asked.exchange hex ih

/-- A request and its polls. -/
theorem Asked.length_le (h : Asked flex reqs part) :
    part.length ≤ (MAX_GET_STATEMENT_POLLS + 1) * reqs.length := by
  induction h with
  | nil => exact Nat.zero_le _
  | exchange hex _ ih =>
    obtain ⟨ans, polls, rfl, hpolls, _⟩ := hex
    simp only [List.length_append, List.length_cons, Nat.mul_add]
    omega

end Sentences

/-! ## What a turn asks -/

/-- The request with the turn's own dates, unless it is refused locally. -/
def ownRequest (t q : String) (fromDate toDate : Option String) : List HttpRequest :=
  match reportRequest t q fromDate toDate none with
  | .ok req => [req]
  | .error _ => []

/-- What one query of a trades run may ask. -/
def tradesPlan (fallback : Bool) (req : TradesRequest) : List HttpRequest :=
  ownRequest req.entry.token req.entry.queryId req.fromDate req.toDate ++
    if fallback then
      [.sendRequest req.entry.token req.entry.queryId none none,
        .sendRequest req.entry.token req.entry.queryId (some "5") none]
    else []

/-- What one chunk of a cash run may ask. -/
def cashPlan (fallback : Bool) (req : CashRequest) : List HttpRequest :=
  ownRequest req.token req.queryId req.chunk.1 req.chunk.2 ++
    if fallback then [.sendRequest req.token req.queryId none none] else []

/-- What is sent follows the plan up to some point, and to its end if nothing may be widened. -/
structure KeepsPlan (flex : FlexService) (fallback : Bool) (plan : List HttpRequest) (part : Wire) :
    Prop where
  asked : Asked flex (sendRequests part) part
  planned : sendRequests part <+: plan
  whole : fallback = false → sendRequests part = plan

section Turns
variable {flex : FlexService} {t q : String} {dates : Option (String × String)} {widen : Bool}
  {part : Wire}

theorem Widened.asked (h : Widened flex t q part) :
    Asked flex (sendRequests part) part ∧
      sendRequests part <+: [.sendRequest t q none none, .sendRequest t q (some "5") none] := by
  obtain ⟨p₁, p₂, rfl, h₁, h₂⟩ := h
  rw [sendRequests_append, h₁.sendRequests rfl]
  rcases h₂ with rfl | h₂
  · exact ⟨h₁.asked.append Asked.nil, ⟨[.sendRequest t q (some "5") none], rfl⟩⟩
  · rw [h₂.sendRequests rfl]
    exact ⟨h₁.asked.append h₂.asked, List.prefix_rfl⟩

theorem Sent.asked (h : Sent flex t q dates widen part) :
    KeepsPlan flex widen (.sendRequest t q none dates :: if widen then
      [.sendRequest t q none none, .sendRequest t q (some "5") none] else []) part := by
  obtain ⟨p₁, rest, rfl, h₁, hrest, _⟩ := h
  have hsends : sendRequests (p₁ ++ rest) =
      .sendRequest t q none dates :: sendRequests rest := by
    rw [sendRequests_append, h₁.sendRequests rfl, List.singleton_append]
  rcases hrest with rfl | ⟨rfl, hwidened⟩
  · refine ⟨?_, ?_, ?_⟩
    · rw [hsends]
      exact h₁.asked.append Asked.nil
    · rw [hsends, List.prefix_cons_inj]
      exact List.nil_prefix
    · rintro rfl
      exact hsends
  · obtain ⟨hasked, hplanned⟩ := hwidened.asked
    refine ⟨?_, ?_, fun h => absurd h (by simp)⟩
    · rw [hsends]
      exact h₁.asked.append hasked
    · rw [hsends, List.prefix_cons_inj]
      exact hplanned

end Turns

theorem KeepsPlan.nothing (flex : FlexService) {fallback : Bool} {plan : List HttpRequest}
    (h : fallback = false → plan = []) : KeepsPlan flex fallback plan [] :=
  ⟨Asked.nil, List.nil_prefix, fun hfallback => (h hfallback).symm⟩

/-- One query of a trades run. -/
theorem fetchQuery_asked (env : Env) (fallback : Bool) (req : TradesRequest) (w : Wire) :
    ∃ part, (fetchQuery env fallback req w).2 = w ++ part ∧
      KeepsPlan env.flex fallback (tradesPlan fallback req) part := by
  rw [fetchQuery_wire]
  unfold tradesPlan ownRequest
  rcases reportRequest_cases req.entry.token req.entry.queryId req.fromDate req.toDate with
    ⟨e, h⟩ | ⟨dates, h⟩
  · obtain ⟨part, hwire, hpart⟩ := fetchTrades_refused env fallback h w
    refine ⟨part, hwire, ?_⟩
    rw [h]
    rcases hpart with rfl | ⟨rfl, hwidened⟩
    · exact KeepsPlan.nothing env.flex fun hfallback => by rw [hfallback]; rfl
    · obtain ⟨hasked, hplanned⟩ := hwidened.asked
      exact ⟨hasked, hplanned, fun h => absurd h (by simp)⟩
  · obtain ⟨part, hwire, hsent⟩ := fetchTrades_sent env fallback h w
    refine ⟨part, hwire, ?_⟩
    rw [h]
    exact hsent.asked

/-- What a fetch of cash transactions adds to the wire. -/
theorem fetchCash_asked (env : Env) (t q : String) (fromDate toDate : Option String) (w : Wire) :
    ∃ part, (fetchReport env.flex env.parseCashTransactionsXml t q fromDate toDate none w).2 =
        w ++ part ∧ Asked env.flex (sendRequests part) part ∧
      sendRequests part = ownRequest t q fromDate toDate := by
  unfold ownRequest
  rcases reportRequest_cases t q fromDate toDate with ⟨e, h⟩ | ⟨dates, h⟩
  · rw [h, fetchReport_refused env.flex env.parseCashTransactionsXml h]
    exact ⟨[], (List.append_nil w).symm, Asked.nil, rfl⟩
  · obtain ⟨part, hwire, hex, _⟩ :=
      fetchReport_exchange env.flex env.parseCashTransactionsXml h w
    have hone := hex.sendRequests rfl
    rw [h]
    exact ⟨part, hwire, hone ▸ hex.asked, hone⟩

/-- One chunk of a cash run. -/
theorem fetchChunk_asked (env : Env) (fallback : Bool) (req : CashRequest) (w : Wire) :
    ∃ part, (fetchChunk env fallback req w).2 = w ++ part ∧
      KeepsPlan env.flex fallback (cashPlan fallback req) part := by
  obtain ⟨part, hwire, hasked, hown⟩ :=
    fetchCash_asked env req.token req.queryId req.chunk.1 req.chunk.2 w
  have hstop : ∃ part', w ++ part = w ++ part' ∧
      KeepsPlan env.flex fallback (cashPlan fallback req) part' := by
    refine ⟨part, rfl, hasked, ?_, ?_⟩
    · rw [hown]
      exact List.prefix_append _ _
    · rintro rfl
      rw [hown]
      exact (List.append_nil _).symm
  unfold fetchChunk
  cases hf : fetchReport env.flex env.parseCashTransactionsXml req.token req.queryId req.chunk.1
      req.chunk.2 none w with
  | mk res w' =>
    rw [hf] at hwire
    have hw : w' = w ++ part := hwire
    rw [hw]
    cases res with
    | ok rows => exact hstop
    | error e =>
      cases e with
      | other cls msg => exact hstop
      | valueError e =>
        simp only
        split
        · rename_i hwiden
          have hfallback : fallback = true := by
            simp only [Bool.and_eq_true] at hwiden
            exact hwiden.1.1.1
          obtain ⟨next, hnext, hasked', hdefault⟩ :=
            fetchCash_asked env req.token req.queryId none none (w ++ part)
          have hsends : sendRequests (part ++ next) = cashPlan fallback req := by
            rw [sendRequests_append, hown, hdefault, cashPlan, hfallback]
            rfl
          refine ⟨part ++ next, ?_, ?_, ?_, fun _ => hsends⟩
          · rw [← List.append_assoc, ← hnext]
            split <;> simp_all
          · rw [sendRequests_append]
            exact hasked.append hasked'
          · rw [hsends]
        · exact hstop

/-! ## Runs -/

theorem asked_flatMap {α : Type} {flex : FlexService} {f : α → Wire} {l : List α}
    (h : ∀ a ∈ l, Asked flex (sendRequests (f a)) (f a)) :
    Asked flex (sendRequests (l.flatMap f)) (l.flatMap f) := by
  induction l with
  | nil => exact Asked.nil
  | cons a l ih =>
    rw [List.flatMap_cons, sendRequests_append]
    exact (h a List.mem_cons_self).append (ih fun b hb => h b (List.mem_cons_of_mem _ hb))

/-- What a loop asks if each turn follows its plan. -/
theorem visit_asked {κ α : Type} {body : κ → Wire → Outcome α PyExc × Wire} {flex : FlexService}
    {fallback : Bool} {plan : κ → List HttpRequest}
    (hbody : ∀ k w, ∃ part, (body k w).2 = w ++ part ∧ KeepsPlan flex fallback (plan k) part)
    (ks : List κ) (w : Wire) :
    ∃ part, (visit body ks w).2 = w ++ part ∧ Asked flex (sendRequests part) part ∧
      (sendRequests part).Sublist (ks.flatMap plan) ∧
      (fallback = false → escapedOf (visit body ks w).1 = none →
        sendRequests part = ks.flatMap plan) := by
  have hlog : (visit body ks w).2 = w ++ (visit body ks w).1.flatMap Turn.part := by
    apply visit_log
    intro k log
    obtain ⟨part, hpart, _⟩ := hbody k log
    exact ⟨part, hpart.symm⟩
  have hturns : ∀ t ∈ (visit body ks w).1, KeepsPlan flex fallback (plan t.key) t.part := by
    intro t ht
    obtain ⟨part, hpart, hfollows⟩ := hbody t.key t.before
    rwa [part_eq (visit_turns t ht).2 hpart]
  have hkeys : (visit body ks w).1.map Turn.key <+: ks ∧
      (escapedOf (visit body ks w).1 = none → (visit body ks w).1.map Turn.key = ks) :=
    visit_keys ks w
  have hplan : ((visit body ks w).1.flatMap fun t => plan t.key) =
      ((visit body ks w).1.map Turn.key).flatMap plan := by
    rw [List.flatMap_map]
  refine ⟨_, hlog, asked_flatMap fun t ht => (hturns t ht).asked, ?_, ?_⟩
  · rw [sendRequests_flatMap]
    refine List.Sublist.trans ?_ (hkeys.1.sublist.flatMap plan)
    rw [← hplan]
    exact List.Sublist.flatMap_right _ fun t ht => (hturns t ht).planned.sublist
  · intro hfallback hnone
    have hwhole := List.flatMap_congr fun t ht => (hturns t ht).whole hfallback
    rw [sendRequests_flatMap, hwhole, hplan, hkeys.2 hnone]

/-- What the queries of a trades run may ask, in order. -/
def tradesPlanned (env : Env) (payload : Dict) (today : Date) (gs : GoldenSource) :
    List HttpRequest :=
  match tradesWindow payload gs today with
  | .error _ => []
  | .ok req =>
    (tradesRequests (tradesEntries env gs) req).flatMap (tradesPlan (allowFallback payload))

/-- What the chunks of a cash run may ask, query after query. -/
def cashPlanned (env : Env) (payload : Dict) (today : Date) (gs : GoldenSource) :
    List HttpRequest :=
  match cashWindow payload gs today with
  | .error _ => []
  | .ok req =>
    match requestChunks req.fromDate req.toDate with
    | .error _ => []
    | .ok chunks => (cashRequests (cashEntries env gs) chunks).flatMap
        (cashPlan (allowFallback payload && chunks.length = 1))

section Lengths
variable {α : Type} {f : α → List HttpRequest} {l : List α} {n : ℕ}

theorem length_flatMap_le (h : ∀ a ∈ l, (f a).length ≤ n) : (l.flatMap f).length ≤ n * l.length := by
  induction l with
  | nil => exact Nat.zero_le _
  | cons a l ih =>
    have ha := h a List.mem_cons_self
    have hl := ih fun b hb => h b (List.mem_cons_of_mem _ hb)
    simp only [List.flatMap_cons, List.length_append, List.length_cons, Nat.mul_add]
    omega

end Lengths

theorem ownRequest_length (t q : String) (fromDate toDate : Option String) :
    (ownRequest t q fromDate toDate).length ≤ 1 := by
  unfold ownRequest
  split
  · exact le_refl 1
  · exact Nat.zero_le 1

theorem tradesPlan_length (fallback : Bool) (req : TradesRequest) :
    (tradesPlan fallback req).length ≤ if fallback then 3 else 1 := by
  have hown := ownRequest_length req.entry.token req.entry.queryId req.fromDate req.toDate
  unfold tradesPlan
  cases fallback with
  | false => simpa using hown
  | true =>
    simp only [if_true, List.length_append, List.length_cons, List.length_nil]
    omega

theorem tradesPlanned_length (env : Env) (payload : Dict) (today : Date) (gs : GoldenSource) :
    (tradesPlanned env payload today gs).length ≤
      (if allowFallback payload then 3 else 1) * (tradesEntries env gs).length := by
  unfold tradesPlanned
  cases tradesWindow payload gs today with
  | error e => exact Nat.zero_le _
  | ok req =>
    have hle := length_flatMap_le (l := tradesRequests (tradesEntries env gs) req)
      fun r _ => tradesPlan_length (allowFallback payload) r
    have hlen : (tradesRequests (tradesEntries env gs) req).length =
        (tradesEntries env gs).length := by
      simp [tradesRequests]
    rwa [hlen] at hle

/-- **What a run asks.**  However IB answers, a run of either kind sends exchange after exchange,
each a SendRequest with at most 24 polls, and its SendRequests are planned ones in the order of the
plan.  A trades run sends at most one for each query, three with `fallback`. -/
theorem runs_ask_planned (env : Env) (payload : Dict) (today : Date) (gs : GoldenSource)
    (w : Wire) :
    (∃ part, (fetchFlexTradesAndUpsertExecutions env payload today gs w).wire = w ++ part ∧
      Asked env.flex (sendRequests part) part ∧
      (sendRequests part).Sublist (tradesPlanned env payload today gs) ∧
      (sendRequests part).length ≤
        (if allowFallback payload then 3 else 1) * (tradesEntries env gs).length ∧
      part.length ≤ (MAX_GET_STATEMENT_POLLS + 1) *
        ((if allowFallback payload then 3 else 1) * (tradesEntries env gs).length)) ∧
    ∃ part, (fetchCashTransactionsFromFlex env payload today gs w).wire = w ++ part ∧
      Asked env.flex (sendRequests part) part ∧
      (sendRequests part).Sublist (cashPlanned env payload today gs) ∧
      part.length ≤ (MAX_GET_STATEMENT_POLLS + 1) * (cashPlanned env payload today gs).length := by
  constructor
  · have hplanned : ∃ part, (fetchFlexTradesAndUpsertExecutions env payload today gs w).wire =
        w ++ part ∧ Asked env.flex (sendRequests part) part ∧
          (sendRequests part).Sublist (tradesPlanned env payload today gs) := by
      rcases trades_run_cases env payload today gs w with ⟨why, hrun⟩ | ⟨req, hwin, hrun⟩
      · rw [hrun]
        exact ⟨[], (List.append_nil w).symm, Asked.nil, List.nil_sublist _⟩
      · obtain ⟨part, hwire, hasked, hsub, _⟩ := visit_asked
          (fun k w => fetchQuery_asked env (allowFallback payload) k w)
          (tradesRequests (tradesEntries env gs) req) w
        refine ⟨part, ?_, hasked, ?_⟩
        · rw [hrun]
          exact hwire
        · rw [tradesPlanned, hwin]
          exact hsub
    obtain ⟨part, hwire, hasked, hsub⟩ := hplanned
    have hlen := hsub.length_le.trans (tradesPlanned_length env payload today gs)
    exact ⟨part, hwire, hasked, hsub, hlen, hasked.length_le.trans (Nat.mul_le_mul_left _ hlen)⟩
  · rcases cash_run_cases env payload today gs w with
      ⟨why, hrun⟩ | ⟨req, chunks, hwin, hchunks, hrun⟩
    · rw [hrun]
      exact ⟨[], (List.append_nil w).symm, Asked.nil, List.nil_sublist _, Nat.zero_le _⟩
    · obtain ⟨part, hwire, hasked, hsub, _⟩ := visit_asked
        (fun k w => fetchChunk_asked env (allowFallback payload && chunks.length = 1) k w)
        (cashRequests (cashEntries env gs) chunks) w
      have hplanned : cashPlanned env payload today gs =
          (cashRequests (cashEntries env gs) chunks).flatMap
            (cashPlan (allowFallback payload && chunks.length = 1)) := by
        simp only [cashPlanned, hwin, hchunks]
      refine ⟨part, ?_, hasked, ?_, ?_⟩
      · rw [hrun]
        exact hwire
      · rw [hplanned]
        exact hsub
      · rw [hplanned]
        exact hasked.length_le.trans (Nat.mul_le_mul_left _ hsub.length_le)

section Ready
variable {env : Env} (payload : Dict) (today : Date) (gs : GoldenSource) (w : Wire)

/-- With a database, a run that is turned away has nothing planned. -/
theorem trades_ready_cases (hready : env.postgresReady = true) :
    ((∃ why, fetchFlexTradesAndUpsertExecutions env payload today gs w =
      ⟨.refused why, [], w, gs⟩) ∧ tradesPlanned env payload today gs = []) ∨
    ∃ req, tradesWindow payload gs today = .ok req ∧
      fetchFlexTradesAndUpsertExecutions env payload today gs w =
        runTrades env (allowFallback payload) (tradesEntries env gs) req gs w := by
  unfold fetchFlexTradesAndUpsertExecutions tradesPlanned
  rw [if_neg (by simp [hready])]
  simp only
  split
  · rename_i hnone
    refine Or.inl ⟨⟨_, rfl⟩, ?_⟩
    rw [hnone]
    cases tradesWindow payload gs today <;> rfl
  · cases tradesWindow payload gs today with
    | error e => exact Or.inl ⟨⟨_, rfl⟩, rfl⟩
    | ok req => exact Or.inr ⟨req, rfl, rfl⟩

theorem cash_ready_cases (hready : env.postgresReady = true) :
    ((∃ why, fetchCashTransactionsFromFlex env payload today gs w = ⟨.refused why, [], w, gs⟩) ∧
      cashPlanned env payload today gs = []) ∨
    ∃ req chunks, cashWindow payload gs today = .ok req ∧
      requestChunks req.fromDate req.toDate = .ok chunks ∧
      fetchCashTransactionsFromFlex env payload today gs w =
        runCash env (allowFallback payload) (cashEntries env gs) req chunks gs w := by
  unfold fetchCashTransactionsFromFlex cashPlanned
  rw [if_neg (by simp [hready])]
  simp only
  split
  · rename_i hnone
    refine Or.inl ⟨⟨_, rfl⟩, ?_⟩
    rw [hnone]
    cases cashWindow payload gs today with
    | error e => rfl
    | ok req =>
      simp only
      cases requestChunks req.fromDate req.toDate <;> rfl
  · cases cashWindow payload gs today with
    | error e => exact Or.inl ⟨⟨_, rfl⟩, rfl⟩
    | ok req =>
      simp only
      cases hchunks : requestChunks req.fromDate req.toDate with
      | error e => exact Or.inl ⟨⟨_, rfl⟩, rfl⟩
      | ok chunks => exact Or.inr ⟨req, chunks, rfl, hchunks, rfl⟩

end Ready

/-- **Once.**  Without `fallback` a run that no exception ends asks exactly what is planned: one
SendRequest for each query of a trades run, and for each query and chunk of a cash run, in order,
but for those it refuses locally. -/
theorem asked_once (env : Env) {payload : Dict} (today : Date) (gs : GoldenSource) (w : Wire)
    (hready : env.postgresReady = true) (hfallback : allowFallback payload = false) :
    (let run := fetchFlexTradesAndUpsertExecutions env payload today gs w
     escapedOf run.turns = none →
       ∃ part, run.wire = w ++ part ∧ sendRequests part = tradesPlanned env payload today gs) ∧
    (let run := fetchCashTransactionsFromFlex env payload today gs w
     escapedOf run.turns = none →
       ∃ part, run.wire = w ++ part ∧ sendRequests part = cashPlanned env payload today gs) := by
  constructor
  · rcases trades_ready_cases payload today gs w hready with
      ⟨⟨why, hrun⟩, hnone⟩ | ⟨req, hwin, hrun⟩
    · rw [hrun, hnone]
      exact fun _ => ⟨[], (List.append_nil w).symm, rfl⟩
    · rw [hrun, tradesPlanned, hwin]
      intro run hesc
      obtain ⟨part, hwire, _, _, hwhole⟩ := visit_asked
        (fun k w => fetchQuery_asked env (allowFallback payload) k w)
        (tradesRequests (tradesEntries env gs) req) w
      exact ⟨part, hwire, hwhole hfallback hesc⟩
  · rcases cash_ready_cases payload today gs w hready with
      ⟨⟨why, hrun⟩, hnone⟩ | ⟨req, chunks, hwin, hchunks, hrun⟩
    · rw [hrun, hnone]
      exact fun _ => ⟨[], (List.append_nil w).symm, rfl⟩
    · rw [hrun, cashPlanned, hwin]
      simp only [hchunks]
      intro hesc
      obtain ⟨part, hwire, _, _, hwhole⟩ := visit_asked
        (fun k w => fetchChunk_asked env (allowFallback payload && chunks.length = 1) k w)
        (cashRequests (cashEntries env gs) chunks) w
      exact ⟨part, hwire, hwhole (by rw [hfallback]; rfl) hesc⟩

/-- IB refuses both queries of one token, and each was asked once. -/
theorem asked_once_twoQueries :
    ∃ part, (fetchFlexTradesAndUpsertExecutions allThrottled [("fallback", .bool false)]
        ⟨739863, by decide, by decide⟩ twoQueries []).wire = [] ++ part ∧
      sendRequests part = tradesPlanned allThrottled [("fallback", .bool false)]
        ⟨739863, by decide, by decide⟩ twoQueries :=
  (asked_once allThrottled ⟨739863, by decide, by decide⟩ twoQueries [] rfl rfl).1
    (by decide +kernel)

end FlexQuery
