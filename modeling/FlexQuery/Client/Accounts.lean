import FlexQuery.Client.CashParser
import FlexQuery.Client.TradesParser

/-!
# Whose row it is

Both parsers give a row that names no account the account of the report, which is that of the
first statement that has one.

* `AccountRule` — what a row's account is, by what the row names and where it stands.
* `row_account` — both parsers follow it; inside one account's report the account of the report
  is the enclosing statement's.
* `row_of_other_statement` — a report on two accounts, and a row booked to the wrong one.
-/

set_option autoImplicit false

namespace FlexQuery

theorem strip_reportAccountId (root : Element) :
    strip (reportAccountId root) = reportAccountId root := by
  unfold reportAccountId
  cases hfind : ((root.iter.filter isStatement).map statementAccount).find? (· ≠ "") with
  | none => exact strip_strip _
  | some a =>
    obtain ⟨s, _, rfl⟩ := List.mem_map.mp (List.mem_of_find?_eq_some hfind)
    exact strip_strip _

/-- Every statement of the report that has an account has this one's. -/
def SameAccount (root s : Element) : Prop :=
  statementAccount s ≠ "" ∧ ∀ s' ∈ root.iter, isStatement s' = true → statementAccount s' ≠ "" →
    statementAccount s' = statementAccount s

/-- The account of a row: its own, or that of the report; the latter is the account of the
statement around it when the statements agree. -/
def AccountRule (root : Element) (around : Option Element) (own : Option String)
    (account : String) : Prop :=
  (∀ a, own = some a → account = a) ∧
    (own = none → account = reportAccountId root ∧
      ∀ s, around = some s → SameAccount root s → account = statementAccount s)

theorem accountRule_getD {root elem : Element} {around : Option Element}
    (hin : (elem, around) ∈ root.enclosed none) (own : Option String) :
    AccountRule root around own (own.getD (reportAccountId root)) := by
  constructor
  · rintro a rfl
    rfl
  · rintro rfl
    refine ⟨rfl, ?_⟩
    rintro s rfl ⟨hne, hall⟩
    rcases Element.enclosed_statement hin with hs | ⟨hst, hs⟩
    · cases hs
    · exact reportAccountId_eq ⟨s, hs, hst, hne⟩ hall

/-- The account a `Trade` element names. -/
def tradeOwnAccount (elem : Element) : Option String := orNone (attr (tradeAttrs elem) "accountId")

/-- **The account of a row.**  A row that names an account keeps it, trimmed; any other takes the
account of the report, which is the enclosing statement's wherever the statements agree. -/
theorem row_account {flex : FlexService} {zone : Zone} {body : String} {root elem : Element}
    {around : Option Element} (hroot : flex.fromstring body = .ok root)
    (hin : (elem, around) ∈ root.enclosed none) :
    (∀ rows row, parseTradesXml flex zone body = .ok rows → isTrade elem = true →
      tradeRow zone (reportAccountId root) elem = .ok (some row) →
        row ∈ rows ∧ AccountRule root around (tradeOwnAccount elem) row.accountId) ∧
      ∀ row, isCashTransaction elem = true → cashRow (reportAccountId root) elem = some row →
        row ∈ parseCashTransactionsXml flex body ∧
          AccountRule root around ((orNone (cashOwnAccount elem)).map strip) row.accountId := by
  have hmem : elem ∈ root.iter := by
    rw [← Element.enclosed_elements none root]
    exact List.mem_map_of_mem hin
  constructor
  · intro rows row hrows htrade hrow
    refine ⟨(parseTradesXml_rows hroot hrows).mpr ⟨elem, hmem, htrade, hrow⟩, ?_⟩
    obtain ⟨_, _, _, _, _, rfl⟩ := tradeRow_some hrow
    exact accountRule_getD hin (tradeOwnAccount elem)
  · intro row hcash hrow
    refine ⟨(mem_parseCashTransactionsXml hroot).mpr ⟨elem, hmem, hcash, hrow⟩, ?_⟩
    obtain ⟨_, _, rfl⟩ := cashRow_some hrow
    have haccount : strip (cashAccount (reportAccountId root) elem) =
        ((orNone (cashOwnAccount elem)).map strip).getD (reportAccountId root) := by
      unfold cashAccount
      cases orNone (cashOwnAccount elem) with
      | none => exact strip_reportAccountId root
      | some a => rfl
    show AccountRule root around _ (strip (cashAccount (reportAccountId root) elem))
    rw [haccount]
    exact accountRule_getD hin _

/-! ## A report on two accounts -/

/-- A `FlexStatement` of one account. -/
def statementOf (acct : String) (items : List Element) : Element :=
  .mk "FlexStatement" [("accountId", acct)] none items

/-- A row without an account. -/
def bareItem (tag : String) : Element :=
  .mk tag [("dateTime", "20260904"), ("amount", "25")] none []

/-- The statement of U2: a fill and a deposit. -/
def statementU2 : Element := statementOf "U2" [bareItem "Trade", bareItem "CashTransaction"]

/-- U1 has no rows. -/
def twoAccounts : Element :=
  .mk "FlexQueryResponse" [] none
    [.mk "FlexStatements" [] none [statementOf "U1" [], statementU2] ]

/-- An XML library that reads every text as that report. -/
def twoAccountsFlex : FlexService := ⟨fun _ _ => .body "", fun _ => .ok twoAccounts⟩

/-- Four hours behind UTC. -/
def easternZone : Zone := ⟨fun _ => -14400, fun _ => -14400⟩

/-- A report on U2 alone. -/
def oneAccount : Element := .mk "FlexQueryResponse" [] none [statementU2]

theorem isStatement_statementOf (acct : String) (items : List Element) :
    isStatement (statementOf acct items) = true := by
  show decide (localName "FlexStatement" = "FlexStatement") = true
  decide

/-- The items of U2's statement stand in it, wherever it stands. -/
theorem enclosed_item {around : Option Element} {item : Element}
    (h : item ∈ statementU2.children) : (item, some statementU2) ∈ statementU2.enclosed around := by
  apply Element.enclosed_child h
  have hst : isStatement statementU2 = true := isStatement_statementOf _ _
  rw [if_pos hst]
  exact Element.enclosed_self _ _

theorem enclosed_twoAccounts {item : Element} (h : item ∈ statementU2.children) :
    (item, some statementU2) ∈ twoAccounts.enclosed none := by
  apply Element.enclosed_child (List.mem_singleton_self _)
  apply Element.enclosed_child (List.mem_cons_of_mem _ (List.mem_singleton_self _))
  exact enclosed_item h

/-- In a report on one account the rows are that account's. -/
theorem row_account_single :
    ∃ row ∈ parseCashTransactionsXml ⟨fun _ _ => .body "", fun _ => .ok oneAccount⟩ "",
      row.accountId = "U2" := by
  have hin : (bareItem "CashTransaction", some statementU2) ∈ oneAccount.enclosed none :=
    Element.enclosed_child (List.mem_singleton_self _)
      (enclosed_item (List.mem_cons_of_mem _ (List.mem_singleton_self _)))
  have hrow : (cashRow (reportAccountId oneAccount) (bareItem "CashTransaction")).isSome = true := by
    decide +kernel
  obtain ⟨row, hrow⟩ := Option.isSome_iff_exists.mp hrow
  obtain ⟨hmem, _, hnone⟩ := (@row_account ⟨fun _ _ => .body "", fun _ => .ok oneAccount⟩
    easternZone "" oneAccount _ _ rfl hin).2 row (by decide) hrow
  refine ⟨row, hmem, (hnone (by decide)).1.trans ?_⟩
  decide +kernel

/-- The rows of U2 are returned with the account U1. -/
theorem row_of_other_statement :
    (bareItem "Trade", some statementU2) ∈ twoAccounts.enclosed none ∧
    (bareItem "CashTransaction", some statementU2) ∈ twoAccounts.enclosed none ∧
    statementAccount statementU2 = "U2" ∧
    tradeOwnAccount (bareItem "Trade") = none ∧ cashOwnAccount (bareItem "CashTransaction") = "" ∧
    (parseTradesXml twoAccountsFlex easternZone "").toOption.map (List.map FlexTrade.accountId) =
      some ["U1"] ∧
    (parseCashTransactionsXml twoAccountsFlex "").map FlexCash.accountId = ["U1"] :=
  ⟨enclosed_twoAccounts List.mem_cons_self,
    enclosed_twoAccounts (List.mem_cons_of_mem _ (List.mem_singleton_self _)),
    by decide, by decide, by decide, by decide +kernel, by decide +kernel⟩

end FlexQuery
