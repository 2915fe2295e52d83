import FlexQuery.Client.TradesParser

/-!
# An unready report is never an empty one

* `Generated` — the body is a report with a statement; `statementNotReady_none` says the client
  takes exactly these.
* `answers` — what IB answers to so many polls in a row.
* `pollStatement_answers` — the loop, answer by answer.
* `unready_never_empty` — `get_statement` and `fetch_trades`.
-/

set_option autoImplicit false

namespace FlexQuery

/-- A generated report: a `FlexQueryResponse` that contains a `FlexStatement`. -/
def Generated (flex : FlexService) (body : String) : Prop :=
  ∃ root, flex.fromstring body = .ok root ∧ localName root.tag = "FlexQueryResponse" ∧
    ∃ node ∈ root.iter, localName node.tag = "FlexStatement"

theorem statementNotReady_none {flex : FlexService} {body : String} :
    statementNotReady flex body = none ↔ Generated flex body := by
  unfold statementNotReady Generated
  cases hroot : flex.fromstring body with
  | error e => exact iff_of_false nofun (by rintro ⟨root, hroot, _⟩; cases hroot)
  | ok root =>
    simp only
    split
    · rename_i htag
      refine iff_of_false nofun ?_
      rintro ⟨root', hroot', htag', _⟩
      cases hroot'
      rw [htag] at htag'
      exact absurd htag' (by decide)
    · split
      · rename_i htag
        refine iff_of_false nofun ?_
        rintro ⟨root', hroot', htag', _⟩
        cases hroot'
        exact htag htag'
      · rename_i htag
        split
        · rename_i hall
          refine iff_of_false nofun ?_
          rintro ⟨root', hroot', _, node, hnode, hst⟩
          cases hroot'
          have := List.all_eq_true.mp hall node hnode
          simp [hst] at this
        · rename_i hall
          refine iff_of_true rfl ⟨root, rfl, not_not.mp htag, ?_⟩
          simpa using hall

/-- Why an answer is not a report; none for a report, and for an exception that is not caught. -/
def unreadyReason (flex : FlexService) : HttpAnswer → Option String
  | .httpError text => some text
  | .raised _ _ => none
  | .body body => statementNotReady flex body

/-- IB's code is in the reason. -/
theorem unreadyReason_code {flex : FlexService} {body : String} {root : Element}
    (hroot : flex.fromstring body = .ok root) (htag : localName root.tag = "FlexStatementResponse")
    (hcode : root.childText "ErrorCode" "" ≠ "") :
    ∃ status msg, unreadyReason flex (.body body) =
      some (status ++ " [" ++ root.childText "ErrorCode" "" ++ "] " ++ msg) := by
  simp only [unreadyReason, statementNotReady, hroot, htag, if_true, if_pos hcode]
  exact ⟨_, _, rfl⟩

/-! ## Polling -/

/-- What IB answers to `n` polls in a row. -/
def answers (flex : FlexService) (req : HttpRequest) : ℕ → Wire → List HttpAnswer
  | 0, _ => []
  | n + 1, w => flex.answer w req :: answers flex req n (flex.send w req).2

theorem answers_length (flex : FlexService) (req : HttpRequest) (n : ℕ) (w : Wire) :
    (answers flex req n w).length = n := by
  induction n generalizing w with
  | zero => rfl
  | succ n ih => simp [answers, ih]

/-- The same request, once for each answer. -/
def exchanges (req : HttpRequest) (outs : List HttpAnswer) : Wire := outs.map (req, ·)

/-- The reason of the last answer, or an earlier one when there is none. -/
def lastReason (flex : FlexService) (last : Option String) (outs : List HttpAnswer) :
    Option String :=
  match outs.getLast? with
  | none => last
  | some a => unreadyReason flex a

theorem lastReason_cons {flex : FlexService} {a : HttpAnswer} {why : String}
    (h : unreadyReason flex a = some why) (last : Option String) (outs : List HttpAnswer) :
    lastReason flex last (a :: outs) = lastReason flex (some why) outs := by
  unfold lastReason
  cases outs with
  | nil => exact h
  | cons b outs =>
    rw [List.getLast?_cons_cons, List.getLast?_eq_some_getLast (List.cons_ne_nil b outs)]

def exhaustedMsg (why : Option String) : String :=
  "Flex GetStatement did not return report after 24 attempts. Last: " ++ why.getD "None"

/-- How the loop ends: at the first answer that is a report, at one that is not caught, or without
either. -/
def PollEnds (flex : FlexService) (req : HttpRequest) (outs : List HttpAnswer)
    (last : Option String) (w : Wire) (result : Except PyExc String × Wire) : Prop :=
  (∃ pre body post, outs = pre ++ .body body :: post ∧ Generated flex body ∧
    (∀ a ∈ pre, (unreadyReason flex a).isSome = true) ∧
    result = (.ok body, w ++ exchanges req (pre ++ [.body body]))) ∨
  (∃ pre cls msg post, outs = pre ++ .raised cls msg :: post ∧
    (∀ a ∈ pre, (unreadyReason flex a).isSome = true) ∧
    result = (.error (.other cls msg), w ++ exchanges req (pre ++ [.raised cls msg]))) ∨
  ((∀ a ∈ outs, (unreadyReason flex a).isSome = true) ∧
    result = (.error (.valueError (exhaustedMsg (lastReason flex last outs))),
      w ++ exchanges req outs))

/-- One more unready answer before the others. -/
theorem PollEnds.cons {flex : FlexService} {req : HttpRequest} {outs : List HttpAnswer}
    {a : HttpAnswer} {why : String} {w : Wire} {result : Except PyExc String × Wire}
    (hwhy : unreadyReason flex a = some why) (last : Option String)
    (h : PollEnds flex req outs (some why) (w ++ [(req, a)]) result) :
    PollEnds flex req (a :: outs) last w result := by
  have hwire : ∀ outs' : List HttpAnswer, w ++ [(req, a)] ++ exchanges req outs' =
      w ++ exchanges req (a :: outs') := by
    intro outs'
    rw [List.append_assoc]
    rfl
  have hpre : ∀ pre : List HttpAnswer, (∀ b ∈ pre, (unreadyReason flex b).isSome = true) →
      ∀ b ∈ a :: pre, (unreadyReason flex b).isSome = true := by
    intro pre hall b hb
    rcases List.mem_cons.mp hb with rfl | hb
    · rw [hwhy]
      rfl
    · exact hall b hb
  rcases h with ⟨pre, body, post, rfl, hgen, hall, rfl⟩ | ⟨pre, cls, msg, post, rfl, hall, rfl⟩ |
    ⟨hall, rfl⟩
  · exact Or.inl ⟨a :: pre, body, post, rfl, hgen, hpre pre hall, by rw [hwire]; rfl⟩
  · exact Or.inr (Or.inl ⟨a :: pre, cls, msg, post, rfl, hpre pre hall, by rw [hwire]; rfl⟩)
  · exact Or.inr (Or.inr ⟨hpre outs hall, by rw [hwire, lastReason_cons hwhy]⟩)

theorem pollStatement_answers (flex : FlexService) (req : HttpRequest) (n : ℕ)
    (last : Option String) (w : Wire) :
    PollEnds flex req (answers flex req n w) last w (pollStatement flex req n last w) := by
  induction n generalizing last w with
  | zero =>
    refine Or.inr (Or.inr ⟨by simp [answers], ?_⟩)
    rw [show exchanges req (answers flex req 0 w) = [] from rfl, List.append_nil]
    rfl
  | succ n ih =>
    simp only [answers, pollStatement, FlexService.send]
    cases hans : flex.answer w req with
    | httpError text => exact PollEnds.cons rfl last (ih (some text) _)
    | raised cls msg => exact Or.inr (Or.inl ⟨[], cls, msg, _, rfl, by simp, rfl⟩)
    | body body =>
      simp only
      cases hready : statementNotReady flex body with
      | none => exact Or.inl ⟨[], body, _, rfl, statementNotReady_none.mp hready, by simp, rfl⟩
      | some why =>
        have hwhy : unreadyReason flex (.body body) = some why := hready
        exact PollEnds.cons hwhy last (ih (some why) _)

/-! ## `fetch_trades` -/

/-- A fetch that returns has read a generated report, the last answer it was given. -/
theorem fetchReport_generated {ρ : Type} {flex : FlexService}
    {parse : String → Except PyExc (List ρ)} {t q : String} {fromDate toDate : Option String}
    {period : Option ℤ} {w w' : Wire} {rows : List ρ}
    (h : fetchReport flex parse t q fromDate toDate period w = (.ok rows, w')) :
    ∃ body ref, Generated flex body ∧ parse body = .ok rows ∧
      w'.getLast? = some (.getStatement t ref, .body body) := by
  unfold fetchReport at h
  cases hreq : requestReport flex t q fromDate toDate period w with
  | mk res w₁ =>
    rw [hreq] at h
    cases res with
    | error e => cases h
    | ok ref =>
      simp only at h
      have hpoll := pollStatement_answers flex (.getStatement t ref) MAX_GET_STATEMENT_POLLS none w₁
      rw [← getStatement] at hpoll
      rcases hpoll with ⟨pre, body, _, _, hgen, _, hres⟩ | ⟨_, _, _, _, _, _, hres⟩ | ⟨_, hres⟩
      · rw [hres] at h
        obtain ⟨hparse, rfl⟩ := Prod.mk.inj h
        refine ⟨body, ref, hgen, hparse, ?_⟩
        simp [exchanges]
      · rw [hres] at h
        cases h
      · rw [hres] at h
        cases h

/-- An empty list of trades: no `Trade` of the report has a time or an account. -/
theorem parseTradesXml_nil {flex : FlexService} {zone : Zone} {body : String} {root : Element}
    (hroot : flex.fromstring body = .ok root) (h : parseTradesXml flex zone body = .ok []) :
    ∀ elem ∈ root.iter, isTrade elem = true → tradeTime zone (tradeAttrs elem) = .ok none ∧
      tradeAccount (reportAccountId root) elem = "" := by
  intro elem helem htrade
  unfold parseTradesXml at h
  rw [hroot] at h
  simp only at h
  split at h
  · cases h
  · rename_i os hos
    split at h
    · cases h
    · have hnil : os.reduceOption = [] := Except.ok.inj h
      cases hrow : tradeRow zone (reportAccountId root) elem with
      | error e =>
        obtain ⟨o, ho⟩ := mapM_ok hos elem (List.mem_filter.mpr ⟨helem, htrade⟩)
        rw [hrow] at ho
        cases ho
      | ok o =>
        cases o with
        | some row =>
          have hmem := (mem_reduceOption_of_mapM hos).mpr
            ⟨elem, List.mem_filter.mpr ⟨helem, htrade⟩, hrow⟩
          rw [hnil] at hmem
          cases hmem
        | none =>
          unfold tradeRow at hrow
          simp only at hrow
          cases htime : tradeTime zone (tradeAttrs elem) with
          | error e =>
            rw [htime] at hrow
            cases hrow
          | ok time =>
            rw [htime] at hrow
            simp only at hrow
            split at hrow
            · rename_i hdropped
              rw [hdropped.1]
              exact ⟨rfl, hdropped.2⟩
            · split at hrow <;> cases hrow

/-- **An unready report is never an empty one.**  `get_statement` ends at the first generated report
among its answers, or gives up after `MAX_GET_STATEMENT_POLLS` of them with the reason of the last;
`fetch_trades` returns rows from a generated report only, and no rows only if no `Trade` in it has a
time or an account. -/
theorem unready_never_empty (flex : FlexService) (zone : Zone) (token : String) :
    (∀ ref w, let req := HttpRequest.getStatement token ref
      (answers flex req MAX_GET_STATEMENT_POLLS w).length = MAX_GET_STATEMENT_POLLS ∧
      PollEnds flex req (answers flex req MAX_GET_STATEMENT_POLLS w) none w
        (getStatement flex token ref w)) ∧
    (∀ body root, flex.fromstring body = .ok root →
      localName root.tag = "FlexStatementResponse" → root.childText "ErrorCode" "" ≠ "" →
      ∃ status msg, unreadyReason flex (.body body) =
        some (status ++ " [" ++ root.childText "ErrorCode" "" ++ "] " ++ msg)) ∧
    ∀ queryId fromDate toDate period w w' rows,
      fetchReport flex (parseTradesXml flex zone) token queryId fromDate toDate period w =
        (.ok rows, w') →
      ∃ body ref root, Generated flex body ∧ flex.fromstring body = .ok root ∧
        parseTradesXml flex zone body = .ok rows ∧
        w'.getLast? = some (.getStatement token ref, .body body) ∧
        (rows = [] → ∀ elem ∈ root.iter, isTrade elem = true →
          tradeTime zone (tradeAttrs elem) = .ok none ∧
            tradeAccount (reportAccountId root) elem = "") := by
  refine ⟨?_, ?_, ?_⟩
  · intro ref w req
    exact ⟨answers_length flex req _ w, pollStatement_answers flex req _ none w⟩
  · intro body root hroot htag hcode
    exact unreadyReason_code hroot htag hcode
  · intro queryId fromDate toDate period w w' rows h
    obtain ⟨body, ref, hgen, hparse, hlast⟩ := fetchReport_generated h
    obtain ⟨root, hroot, hrest⟩ := hgen
    refine ⟨body, ref, root, ⟨root, hroot, hrest⟩, hroot, hparse, hlast, ?_⟩
    rintro rfl
    exact parseTradesXml_nil hroot hparse

end FlexQuery
