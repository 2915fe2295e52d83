import FlexQuery.Orchestration.Requests

/-!
# Where the rows of a turn come from

* `Answered` — the rows are those of the turn's own fetch, or of a wider one where that is allowed.
* `fetchChunk_answered`, `fetchQuery_answered` — so are the rows of a turn that ends well.
* `Answered.requested` — and then the query was requested.
* `fetchReport_says` — a `ValueError` of the client is never a blank text.
-/

set_option autoImplicit false

namespace FlexQuery

open Visit

section
variable {ρ : Type} {flex : FlexService} {parse : String → Except PyExc (List ρ)} {t q : String}

/-- The rows are what the request of the window returned, or, where widening is allowed, what a
later request without dates returned. -/
def Answered (flex : FlexService) (parse : String → Except PyExc (List ρ)) (t q : String)
    (fromDate toDate : Option String) (widen : Bool) (before after : Wire) (rows : List ρ) : Prop :=
  fetchReport flex parse t q fromDate toDate none before = (.ok rows, after) ∨
    (widen = true ∧ ∃ w period, before <+: w ∧
      fetchReport flex parse t q none none period w = (.ok rows, after))

theorem fetchReport_prefix (flex : FlexService) (parse : String → Except PyExc (List ρ))
    (t q : String) (fromDate toDate : Option String) (period : Option ℤ) (w : Wire) :
    w <+: (fetchReport flex parse t q fromDate toDate period w).2 := by
  unfold fetchReport requestReport
  cases reportRequest t q fromDate toDate period with
  | error e => exact List.prefix_rfl
  | ok req =>
    simp only [FlexService.send]
    cases readReference flex (flex.answer w req) with
    | error e => exact List.prefix_append _ _
    | ok ref =>
      obtain ⟨polls, hpolls, _⟩ := pollStatement_wire flex t ref MAX_GET_STATEMENT_POLLS none
        (w ++ [(req, flex.answer w req)])
      have hwire : (getStatement flex t ref (w ++ [(req, flex.answer w req)])).2 =
          w ++ ([(req, flex.answer w req)] ++ polls) := by
        rw [← List.append_assoc]
        exact hpolls
      simp only
      cases hst : getStatement flex t ref (w ++ [(req, flex.answer w req)]) with
      | mk res w' =>
        rw [hst] at hwire
        cases res <;> exact ⟨_, hwire.symm⟩

theorem reportRequest_ok {fromDate toDate : Option String} {period : Option ℤ} {req : HttpRequest}
    (h : reportRequest t q fromDate toDate period = .ok req) :
    ∃ p dates, req = .sendRequest t q p dates := by
  cases period with
  | some p =>
    cases h
    exact ⟨_, _, rfl⟩
  | none =>
    rcases reportRequest_cases t q fromDate toDate with ⟨e, he⟩ | ⟨dates, hdates⟩
    · rw [he] at h
      cases h
    · rw [hdates] at h
      cases h
      exact ⟨none, dates, rfl⟩

/-- A fetch that returns rows has sent its request. -/
theorem fetchReport_requested {fromDate toDate : Option String} {period : Option ℤ} {w w' : Wire}
    {rows : List ρ} (h : fetchReport flex parse t q fromDate toDate period w = (.ok rows, w')) :
    ∃ p dates ans part, w' = w ++ (.sendRequest t q p dates, ans) :: part := by
  cases hreq : reportRequest t q fromDate toDate period with
  | error e =>
    rw [fetchReport_refused flex parse hreq] at h
    cases h
  | ok req =>
    obtain ⟨p, dates, rfl⟩ := reportRequest_ok hreq
    obtain ⟨part, hwire, ⟨ans, polls, rfl, _⟩, _⟩ := fetchReport_exchange flex parse hreq w
    rw [h] at hwire
    exact ⟨p, dates, ans, polls, hwire⟩

/-- The query whose rows a turn brings was requested in that turn. -/
theorem Answered.requested {fromDate toDate : Option String} {widen : Bool} {before after : Wire}
    {rows : List ρ} (h : Answered flex parse t q fromDate toDate widen before after rows) :
    ∃ p dates ans, (.sendRequest t q p dates, ans) ∈ after.drop before.length := by
  rcases h with h | ⟨_, w, period, ⟨mid, rfl⟩, h⟩
  · obtain ⟨p, dates, ans, part, rfl⟩ := fetchReport_requested h
    rw [List.drop_left]
    exact ⟨p, dates, ans, List.mem_cons_self⟩
  · obtain ⟨p, dates, ans, part, rfl⟩ := fetchReport_requested h
    rw [List.append_assoc, List.drop_left]
    exact ⟨p, dates, ans, List.mem_append_right _ List.mem_cons_self⟩

/-! ## The texts of the client -/

theorem reportRequest_says {fromDate toDate : Option String} {period : Option ℤ} {e : String}
    (h : reportRequest t q fromDate toDate period = .error (.valueError e)) : strip e ≠ "" := by
  have hreword : ∀ exc e, checkSpan.reword exc = .valueError e → strip e ≠ "" := by
    intro exc e h
    cases exc with
    | other cls msg => cases h
    | valueError msg =>
      simp only [checkSpan.reword] at h
      split at h
      · rename_i hmsg
        cases h
        intro hblank
        have hsub := of_decide_eq_true hmsg
        exact absurd (strip_eq_empty.mp hblank 'c' (hsub.subset (by decide))) (by decide)
      · cases h
        exact strip_append_ne (by decide) _
  have hspan : ∀ f s e, checkSpan f s = .error (.valueError e) → strip e ≠ "" := by
    intro f s e h
    unfold checkSpan at h
    split at h
    · split at h
      · cases h
        decide +kernel
      · cases h
    · exact hreword _ _ (Except.error.inj h)
    · exact hreword _ _ (Except.error.inj h)
  unfold reportRequest at h
  split at h
  · cases h
  · split at h
    · split at h
      · rename_i hcheck
        cases h
        exact hspan _ _ _ hcheck
      · cases h
    · split at h
      · cases h
        decide
      · cases h

theorem readReference_says {ans : HttpAnswer} {e : String}
    (h : readReference flex ans = .error (.valueError e)) : strip e ≠ "" := by
  cases ans with
  | httpError text =>
    cases h
    exact strip_append_ne (by decide) _
  | raised cls msg => cases h
  | body body =>
    simp only [readReference] at h
    split at h
    · cases h
    · split at h
      · cases h
        exact strip_append_ne (strip_append_ne (strip_append_ne (by decide) _) _) _
      · split at h
        · cases h
          decide
        · cases h

theorem pollStatement_says {req : HttpRequest} {n : ℕ} {last : Option String} {w w' : Wire}
    {e : String} (h : pollStatement flex req n last w = (.error (.valueError e), w')) :
    strip e ≠ "" := by
  induction n generalizing last w with
  | zero =>
    cases h
    exact strip_append_ne (by decide) _
  | succ n ih =>
    simp only [pollStatement] at h
    split at h
    · exact ih h
    · cases h
    · split at h
      · cases h
      · exact ih h

/-- A `ValueError` of a fetch says something, if the parser's do. -/
theorem fetchReport_says (hparse : ∀ body e, parse body = .error (.valueError e) → strip e ≠ "")
    {fromDate toDate : Option String} {period : Option ℤ} {w w' : Wire} {e : String}
    (h : fetchReport flex parse t q fromDate toDate period w = (.error (.valueError e), w')) :
    strip e ≠ "" := by
  unfold fetchReport requestReport at h
  cases hreq : reportRequest t q fromDate toDate period with
  | error exc =>
    rw [hreq] at h
    cases h
    exact reportRequest_says hreq
  | ok req =>
    rw [hreq] at h
    simp only [FlexService.send] at h
    cases href : readReference flex (flex.answer w req) with
    | error exc =>
      rw [href] at h
      cases h
      exact readReference_says href
    | ok ref =>
      rw [href] at h
      simp only at h
      cases hst : getStatement flex t ref (w ++ [(req, flex.answer w req)]) with
      | mk res w'' =>
        rw [hst] at h
        cases res with
        | error exc =>
          cases h
          exact pollStatement_says hst
        | ok body =>
          simp only at h
          exact hparse body e (Prod.mk.inj h).1

end

/-! ## Turns that end well -/

theorem fetchChunk_answered {env : Env} {widen : Bool} {req : CashRequest} {w w' : Wire}
    {rows : List CashRow} (h : fetchChunk env widen req w = (.ok rows, w')) :
    Answered env.flex env.parseCashTransactionsXml req.token req.queryId req.chunk.1 req.chunk.2
      widen w w' rows := by
  have hpre := fetchReport_prefix env.flex env.parseCashTransactionsXml req.token req.queryId
    req.chunk.1 req.chunk.2 none w
  unfold fetchChunk at h
  cases hf : fetchReport env.flex env.parseCashTransactionsXml req.token req.queryId req.chunk.1
      req.chunk.2 none w with
  | mk res w₁ =>
    rw [hf] at h hpre
    cases res with
    | ok rows₁ =>
      cases h
      exact Or.inl hf
    | error e =>
      cases e with
      | other cls msg => cases h
      | valueError e =>
        simp only at h
        split at h
        · rename_i hwiden
          simp only [Bool.and_eq_true] at hwiden
          cases hd : fetchReport env.flex env.parseCashTransactionsXml req.token req.queryId none
              none none w₁ with
          | mk res₂ w₂ =>
            rw [hd] at h
            cases res₂ with
            | ok rows₂ =>
              cases h
              exact Or.inr ⟨hwiden.1.1.1, w₁, none, hpre, hd⟩
            | error e₂ => cases e₂ <;> cases h
        · cases h

theorem fetchPeriod5_ok {env : Env} {t q : String} {primary : Option String} {w w' : Wire}
    {f : Fetched} (h : fetchPeriod5 env t q primary w = (.ok f, w')) :
    fetchTrades env t q none none (some 5) w = (.ok f.1, w') := by
  unfold fetchPeriod5 at h
  cases hf : fetchTrades env t q none none (some 5) w with
  | mk res w₁ =>
    rw [hf] at h
    cases res with
    | ok rows =>
      simp only at h
      split at h
      · cases h
        rfl
      · cases primary <;> cases h
        rfl
    | error e =>
      cases e with
      | other cls msg => cases h
      | valueError e => cases primary <;> cases h

theorem fetchQueryDefault_ok {env : Env} {t q : String} {primary : Option String} {w w' : Wire}
    {f : Fetched} (h : fetchQueryDefault env t q primary w = (.ok f, w')) :
    ∃ w₁ period, w <+: w₁ ∧ fetchTrades env t q none none period w₁ = (.ok f.1, w') := by
  have hpre := fetchReport_prefix env.flex env.parseTradesXml t q none none none w
  unfold fetchQueryDefault at h
  cases hf : fetchTrades env t q none none none w with
  | mk res w₁ =>
    rw [hf] at h
    rw [← fetchTrades, hf] at hpre
    cases res with
    | ok rows =>
      simp only at h
      split at h
      · cases h
        exact ⟨w, none, List.prefix_rfl, hf⟩
      · exact ⟨w₁, some 5, hpre, fetchPeriod5_ok h⟩
    | error e =>
      cases e with
      | other cls msg => cases h
      | valueError e => exact ⟨w₁, some 5, hpre, fetchPeriod5_ok h⟩

theorem fetchTrades_answered {env : Env} {t q : String} {fromDate toDate : Option String}
    {fallback : Bool} {w w' : Wire} {f : Fetched}
    (h : fetchTradesWithDateFallback env t q fromDate toDate fallback w = (.ok f, w')) :
    Answered env.flex env.parseTradesXml t q fromDate toDate fallback w w' f.1 := by
  have hpre := fetchReport_prefix env.flex env.parseTradesXml t q fromDate toDate none w
  unfold fetchTradesWithDateFallback at h
  cases hf : fetchTrades env t q fromDate toDate none w with
  | mk res w₁ =>
    rw [hf] at h
    rw [← fetchTrades, hf] at hpre
    have hwiden : ∀ primary, fallback = true →
        fetchQueryDefault env t q primary w₁ = (.ok f, w') →
        Answered env.flex env.parseTradesXml t q fromDate toDate fallback w w' f.1 := by
      intro primary hfallback hdefault
      obtain ⟨w₂, period, hpre₂, hrows⟩ := fetchQueryDefault_ok hdefault
      exact Or.inr ⟨hfallback, w₂, period, hpre.trans hpre₂, hrows⟩
    cases res with
    | ok rows =>
      simp only at h
      split at h
      · cases h
        exact Or.inl hf
      · rename_i hmore
        push Not at hmore
        exact hwiden none (eq_true_of_ne_false hmore.2) h
    | error e =>
      cases e with
      | other cls msg => cases h
      | valueError e =>
        simp only at h
        split at h
        · rename_i hallowed
          exact hwiden (some e) (Bool.and_eq_true_iff.mp hallowed).2 h
        · cases h

theorem fetchQuery_answered {env : Env} {fallback : Bool} {req : TradesRequest} {w w' : Wire}
    {f : Fetched} (h : fetchQuery env fallback req w = (.ok f, w')) :
    Answered env.flex env.parseTradesXml req.entry.token req.entry.queryId req.fromDate req.toDate
      fallback w w' f.1 := by
  unfold fetchQuery at h
  split at h
  · rename_i hf
    cases h
    exact fetchTrades_answered hf
  · cases h
  · cases h

end FlexQuery
