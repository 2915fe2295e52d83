import FlexQuery.Orchestration.Requests

/-!
# What a run still sends after a 1018

* `Throttled` — the answer to a SendRequest that carries code 1018 and no reference.
* `StopsAfterThrottle` — after it the turn polls nothing and asks for no dates; it goes on only
  with a widening.
* `runs_stop_after_throttle` — so does every turn of either run, and a run sends nothing else.
* `throttled_token_used_again` — the next query id of the same token is still requested.
-/

set_option autoImplicit false

namespace FlexQuery

open Visit

/-- IB's answer has the error code 1018 and gives no reference to poll; `request_report` raises
`e`. -/
def Throttled (flex : FlexService) (ans : HttpAnswer) (e : String) : Prop :=
  (∃ body root, ans = .body body ∧ flex.fromstring body = .ok root ∧
    root.childText "ErrorCode" "" = "1018") ∧
  readReference flex ans = .error (.valueError e)

/-- After a throttled SendRequest the turn sends nothing more, or its query-default or `period=5`
request comes next: these only where widening is allowed, and only if the error names an
unavailable statement or the throttled request was itself the query default. -/
def StopsAfterThrottle (flex : FlexService) (t q : String) (widen : Bool) (part : Wire) : Prop :=
  ∀ pre req ans post e, part = pre ++ (req, ans) :: post → req.isPoll = false →
    Throttled flex ans e → post = [] ∨
      (widen = true ∧ (statementUnavailable e = true ∨ req = .sendRequest t q none none) ∧
        (∀ x ∈ post, x.1.dates = none) ∧
        ∃ p ans' rest, post = (.sendRequest t q p none, ans') :: rest)

/-- Where a request stands in two parts of a wire. -/
theorem append_eq_split {p₁ p₂ pre post : Wire} {x : HttpRequest × HttpAnswer}
    (h : p₁ ++ p₂ = pre ++ x :: post) :
    (∃ mid, p₁ = pre ++ x :: mid ∧ post = mid ++ p₂) ∨
      ∃ pre', pre = p₁ ++ pre' ∧ p₂ = pre' ++ x :: post := by
  rcases List.append_eq_append_iff.mp h with ⟨pre', hpre, hp₂⟩ | ⟨mid, hp₁, hpost⟩
  · exact Or.inr ⟨pre', hpre, hp₂⟩
  · cases mid with
    | nil => exact Or.inr ⟨[], by simpa using hp₁.symm, hpost.symm⟩
    | cons y mid =>
      obtain ⟨rfl, rfl⟩ := List.cons.inj hpost
      exact Or.inl ⟨mid, hp₁, rfl⟩

/-- An exchange ends with a throttled SendRequest, and that is its only one. -/
theorem Exchange.throttled {flex : FlexService} {own req : HttpRequest} {part pre post : Wire}
    {ans : HttpAnswer} {e : String} (h : Exchange flex own part)
    (hpart : part = pre ++ (req, ans) :: post) (hreq : req.isPoll = false)
    (hans : Throttled flex ans e) : req = own ∧ pre = [] ∧ post = [] := by
  obtain ⟨ans', polls, rfl, _, hpolls, hdenied⟩ := h
  cases pre with
  | nil =>
    obtain ⟨hhead, rfl⟩ := List.cons.inj hpart
    obtain ⟨rfl, rfl⟩ := Prod.mk.inj hhead
    exact ⟨rfl, rfl, hdenied _ hans.2⟩
  | cons y pre =>
    obtain ⟨_, hpolls'⟩ := List.cons.inj hpart
    have hpoll := (hpolls (req, ans) (hpolls' ▸ List.mem_append_right _ List.mem_cons_self)).1
    exact absurd (hreq.symm.trans hpoll) Bool.false_ne_true

theorem Widened.stopsAfterThrottle {flex : FlexService} {t q : String} {widen : Bool} {part : Wire}
    (h : Widened flex t q part) (hwiden : widen = true) :
    StopsAfterThrottle flex t q widen part := by
  obtain ⟨p₁, p₂, rfl, h₁, h₂⟩ := h
  intro pre req ans post e hpart hreq hans
  rcases append_eq_split hpart with ⟨mid, hp₁, rfl⟩ | ⟨pre', rfl, hp₂⟩
  · obtain ⟨rfl, _, rfl⟩ := h₁.throttled hp₁ hreq hans
    rcases h₂ with rfl | h₂
    · exact Or.inl rfl
    · refine Or.inr ⟨hwiden, Or.inr rfl, ?_, ?_⟩
      · intro x hx
        rcases h₂.dates x hx with h | h <;> exact h
      · obtain ⟨ans', polls, rfl, _⟩ := h₂
        exact ⟨_, ans', polls, rfl⟩
  · rcases h₂ with rfl | h₂
    · exact absurd hp₂ (by simp)
    · exact Or.inl (h₂.throttled hp₂ hreq hans).2.2

theorem Sent.stopsAfterThrottle {flex : FlexService} {t q : String}
    {dates : Option (String × String)} {widen : Bool} {part : Wire}
    (h : Sent flex t q dates widen part) : StopsAfterThrottle flex t q widen part := by
  obtain ⟨p₁, rest, rfl, h₁, hrest, hrefused⟩ := h
  intro pre req ans post e hpart hreq hans
  rcases append_eq_split hpart with ⟨mid, hp₁, rfl⟩ | ⟨pre', rfl, hrest'⟩
  · obtain ⟨rfl, rfl, rfl⟩ := h₁.throttled hp₁ hreq hans
    rcases hrest with rfl | ⟨hwiden, hwidened⟩
    · exact Or.inl rfl
    · have hdates := hwidened.dates
      obtain ⟨w₁, w₂, rfl, ⟨ans', polls, rfl, _⟩, _⟩ := hwidened
      have hunavailable := hrefused ans [] e hp₁ hans.2 (List.cons_ne_nil _ _)
      exact Or.inr ⟨hwiden, Or.inl hunavailable, hdates, _, ans', polls ++ w₂, rfl⟩
  · rcases hrest with rfl | ⟨hwiden, hwidened⟩
    · exact absurd hrest' (by simp)
    · exact hwidened.stopsAfterThrottle hwiden pre' req ans post e hrest' hreq hans

theorem TurnSends.stopsAfterThrottle {flex : FlexService} {t q : String} {widen : Bool}
    {part : Wire} (h : TurnSends flex t q widen part) : StopsAfterThrottle flex t q widen part := by
  rcases h with rfl | ⟨hwiden, hwidened⟩ | ⟨dates, hsent⟩
  · intro pre req ans post e hpart
    exact absurd hpart (by simp)
  · exact hwidened.stopsAfterThrottle hwiden
  · exact hsent.stopsAfterThrottle

/-- **After a 1018.**  A run of either kind sends what its turns send, one after the other, and in
each turn a throttled SendRequest is the last request, a widening excepted; a cash run of several
chunks, and a run without `fallback`, has no widening. -/
theorem runs_stop_after_throttle (env : Env) (payload : Dict) (today : Date) (gs : GoldenSource)
    (w : Wire) :
    (let run := fetchFlexTradesAndUpsertExecutions env payload today gs w
     run.wire = w ++ run.turns.flatMap Turn.part ∧ ∀ t ∈ run.turns,
       StopsAfterThrottle env.flex t.key.entry.token t.key.entry.queryId (allowFallback payload)
         t.part) ∧
    ∃ widen, (widen = true → allowFallback payload = true) ∧
      let run := fetchCashTransactionsFromFlex env payload today gs w
      (widen = true → ∀ t ∈ run.turns, ∀ t' ∈ run.turns, t.key.chunk = t'.key.chunk) ∧
      run.wire = w ++ run.turns.flatMap Turn.part ∧ ∀ t ∈ run.turns,
        StopsAfterThrottle env.flex t.key.token t.key.queryId widen t.part := by
  obtain ⟨hwire, hsends⟩ := trades_run_sends env payload today gs w
  obtain ⟨widen, hfallback, hone, hwire', hsends'⟩ := cash_run_sends env payload today gs w
  exact ⟨⟨hwire, fun t ht => (hsends t ht).stopsAfterThrottle⟩, widen, hfallback, hone, hwire',
    fun t ht => (hsends' t ht).stopsAfterThrottle⟩

/-! ## Two queries of one token -/

def tooManyRequests : String × Element :=
  refusedDoc "1018" "Too many requests have been made from this token."

/-- IB refuses every request. -/
def allThrottled : Env where
  flex := scripted (fun _ => tooManyRequests.1) [tooManyRequests]
  tokens := ⟨"host-token", ""⟩
  postgresReady := true
  parseCashTransactionsXml := fun _ => .ok []
  parseTradesXml := fun _ => .ok []
  upsertAccountTransactions := fun rows gs => (.ok (rows.length, 0), gs)
  writeAccountExecutionsToDb := fun _ gs => (.ok true, gs)

/-- Two query ids on the host side. -/
def twoQueries : GoldenSource where
  executions := []
  transactions := []
  settingsFlex := [⟨"101,102", none, none, "trades"⟩]
  flexSettings := none

/-- The second query id is requested with the token IB has just refused. -/
theorem throttled_token_used_again :
    let run := fetchFlexTradesAndUpsertExecutions allThrottled [("fallback", .bool false)]
      ⟨739863, by decide, by decide⟩ twoQueries []
    ∃ pre req ans post e, run.wire = pre ++ (req, ans) :: post ∧ req.token = "host-token" ∧
      Throttled allThrottled.flex ans e ∧ ∃ x ∈ post, x.1.token = "host-token" := by
  have hwire : (fetchFlexTradesAndUpsertExecutions allThrottled [("fallback", .bool false)]
      ⟨739863, by decide, by decide⟩ twoQueries []).wire =
        [(.sendRequest "host-token" "101" none (some ("20250908", "20260903")),
            .body tooManyRequests.1),
          (.sendRequest "host-token" "102" none (some ("20250908", "20260903")),
            .body tooManyRequests.1)] := by
    decide +kernel
  have hthrottled : Throttled allThrottled.flex (.body tooManyRequests.1)
      "Flex request failed: [1018] Too many requests have been made from this token." :=
    ⟨⟨_, tooManyRequests.2, rfl, by simp [allThrottled, scripted], by decide +kernel⟩,
      by decide +kernel⟩
  exact ⟨[], _, _, _, _, hwire, rfl, hthrottled, _, List.mem_cons_self, rfl⟩

end FlexQuery
