import FlexQuery.Client.Readiness
import FlexQuery.Client.TradesTotal

/-!
# An empty `Trades` section

`parse_trades_xml` takes a report without rows for a cash report when its text mentions
`CashTransaction`.

* `HasSection` — a statement has a section of that name.
* `reportRows` — the rows of a report; `parseTradesXml_readable` says what becomes of them.
* `empty_window_iff` — the reports whose sections agree with the answer.
-/

set_option autoImplicit false

namespace FlexQuery

/-- One of the statements has a section with that name. -/
def HasSection (root : Element) (name : String) : Prop :=
  ∃ st ∈ root.iter, isStatement st = true ∧ ∃ c ∈ st.children, localName c.tag = name

/-- The rows of the `Trade` elements, in document order. -/
def reportRows (zone : Zone) (root : Element) : List FlexTrade :=
  (root.iter.filter isTrade).filterMap fun elem =>
    (tradeRow zone (reportAccountId root) elem).toOption.join

section Report
variable {flex : FlexService} {zone : Zone} {body : String} {root : Element}

theorem parseTradesXml_readable (hroot : flex.fromstring body = .ok root)
    (h : AllReadable zone root) :
    parseTradesXml flex zone body =
      if (reportRows zone root).isEmpty && contains body "CashTransaction" then
        .error (.valueError cashReportMsg)
      else .ok (reportRows zone root) := by
  obtain ⟨os, hos⟩ := allReadable_iff.mpr h
  unfold parseTradesXml
  simp only [hroot, hos, reduceOption_of_mapM hos]
  rfl

/-- A `Trade` that cannot be read stops the parser, and not as a cash report. -/
theorem parseTradesXml_unreadable (hroot : flex.fromstring body = .ok root)
    (h : ¬ AllReadable zone root) : (∀ rows, parseTradesXml flex zone body ≠ .ok rows) ∧
      parseTradesXml flex zone body ≠ .error (.valueError cashReportMsg) := by
  have hnot : ¬ ((∃ rows, parseTradesXml flex zone body = .ok rows) ∨
      parseTradesXml flex zone body = .error (.valueError cashReportMsg)) := by
    rw [parseTradesXml_answers_iff hroot]
    exact h
  rw [not_or, not_exists] at hnot
  exact hnot

theorem reportRows_nil (h : AllReadable zone root) : reportRows zone root = [] ↔
    ¬ ∃ elem ∈ root.iter, isTrade elem = true ∧ Kept (reportAccountId root) elem := by
  unfold reportRows
  rw [List.filterMap_eq_nil_iff, not_exists]
  simp only [List.mem_filter, and_imp, not_and]
  refine forall_congr' fun elem => forall_congr' fun helem => forall_congr' fun htrade => ?_
  rw [← tradeRow_some_iff (h elem helem htrade)]
  cases tradeRow zone (reportAccountId root) elem with
  | error e => simp [Except.toOption]
  | ok o => cases o <;> simp [Except.toOption]

/-- **An empty window.**  The answer is about the report's sections if and only if: with a `Trades`
section, every `Trade` can be read; and where the refusal would be wrong, a readable report has a
`Trade` that leaves a row, or does not mention `CashTransaction`. -/
theorem empty_window_iff (hroot : flex.fromstring body = .ok root) :
    ((HasSection root "Trades" → parseTradesXml flex zone body = .ok (reportRows zone root)) ∧
      (parseTradesXml flex zone body = .error (.valueError cashReportMsg) →
        ¬ HasSection root "Trades" ∧ HasSection root "CashTransactions")) ↔
    (HasSection root "Trades" → AllReadable zone root) ∧
      (HasSection root "Trades" ∨ ¬ HasSection root "CashTransactions" → AllReadable zone root →
        (∃ elem ∈ root.iter, isTrade elem = true ∧ Kept (reportAccountId root) elem) ∨
          contains body "CashTransaction" = false) := by
  by_cases hall : AllReadable zone root
  · rw [parseTradesXml_readable hroot hall]
    by_cases hcash : (reportRows zone root).isEmpty && contains body "CashTransaction"
    · rw [if_pos hcash]
      rw [Bool.and_eq_true, List.isEmpty_iff, reportRows_nil hall] at hcash
      have hrefused : ¬ ((∃ elem ∈ root.iter, isTrade elem = true ∧
          Kept (reportAccountId root) elem) ∨ contains body "CashTransaction" = false) := by
        rw [not_or, Bool.not_eq_false]
        exact hcash
      constructor
      · rintro ⟨_, herror⟩
        obtain ⟨htrades, hcashSection⟩ := herror rfl
        refine ⟨fun h => absurd h htrades, ?_⟩
        rintro (h | h) _
        · exact absurd h htrades
        · exact absurd hcashSection h
      · rintro ⟨_, hagree⟩
        have hsections : ¬ (HasSection root "Trades" ∨ ¬ HasSection root "CashTransactions") :=
          fun h => hrefused (hagree h hall)
        rw [not_or, not_not] at hsections
        exact ⟨fun h => absurd h hsections.1, fun _ => hsections⟩
    · rw [if_neg hcash]
      rw [Bool.and_eq_true, List.isEmpty_iff, reportRows_nil hall, not_and_or, not_not,
        Bool.not_eq_true] at hcash
      exact iff_of_true ⟨fun _ => rfl, nofun⟩ ⟨fun _ => hall, fun _ _ => hcash⟩
  · obtain ⟨hrows, herror⟩ := @parseTradesXml_unreadable flex zone body root hroot hall
    constructor
    · rintro ⟨htrades, _⟩
      exact ⟨fun h => absurd (htrades h) (hrows _), fun _ h => absurd h hall⟩
    · rintro ⟨htrades, _⟩
      exact ⟨fun h => absurd (htrades h) hall, fun h => absurd h herror⟩

end Report

/-! ## A quiet day -/

/-- A statement of a query that has both sections, on a day without trades. -/
def quietReport : Element :=
  .mk "FlexQueryResponse" [] none
    [.mk "FlexStatements" [] none
      [.mk "FlexStatement" [("accountId", "U111")] none
        [.mk "Trades" [] none [], .mk "CashTransactions" [] none []]]]

def quietBody : String :=
  "<FlexQueryResponse><FlexStatements><FlexStatement accountId='U111'><Trades/>" ++
    "<CashTransactions/></FlexStatement></FlexStatements></FlexQueryResponse>"

def quietFlex : FlexService := ⟨fun _ _ => .body quietBody, fun _ => .ok quietReport⟩

theorem quietReport_window :
    ((HasSection quietReport "Trades" →
        parseTradesXml quietFlex newYork2026 quietBody = .ok (reportRows newYork2026 quietReport)) ∧
      (parseTradesXml quietFlex newYork2026 quietBody = .error (.valueError cashReportMsg) →
        ¬ HasSection quietReport "Trades" ∧ HasSection quietReport "CashTransactions")) ↔
    (HasSection quietReport "Trades" → AllReadable newYork2026 quietReport) ∧
      (HasSection quietReport "Trades" ∨ ¬ HasSection quietReport "CashTransactions" →
        AllReadable newYork2026 quietReport →
        (∃ elem ∈ quietReport.iter, isTrade elem = true ∧
          Kept (reportAccountId quietReport) elem) ∨
          contains quietBody "CashTransaction" = false) :=
  @empty_window_iff quietFlex newYork2026 quietBody quietReport rfl

/-- It is a generated report with a `Trades` section, and it is refused. -/
theorem quiet_day_refused : Generated quietFlex quietBody ∧ HasSection quietReport "Trades" ∧
    parseTradesXml quietFlex newYork2026 quietBody = .error (.valueError cashReportMsg) := by
  have hnone : quietReport.iter.filter isTrade = [] := by rfl
  have hreadable : AllReadable newYork2026 quietReport := by
    intro elem helem htrade
    have hmem := List.mem_filter.mpr ⟨helem, htrade⟩
    rw [hnone] at hmem
    cases hmem
  have hrows : reportRows newYork2026 quietReport = [] := by
    unfold reportRows
    rw [hnone]
    rfl
  have hmention : contains quietBody "CashTransaction" = true := by decide +kernel
  have hstatement : ∃ st ∈ quietReport.iter, isStatement st = true ∧
      ∃ c ∈ st.children, localName c.tag = "Trades" :=
    ⟨_, List.mem_cons_of_mem _ (List.mem_cons_of_mem _ List.mem_cons_self), by decide,
      _, List.mem_cons_self, by decide⟩
  refine ⟨⟨quietReport, rfl, by decide, ?_⟩, hstatement, ?_⟩
  · obtain ⟨st, hst, his, _⟩ := hstatement
    exact ⟨st, hst, of_decide_eq_true his⟩
  · rw [parseTradesXml_readable rfl hreadable, hrows, hmention]
    rfl

end FlexQuery
