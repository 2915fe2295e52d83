import FlexQuery.Client.CashStyles
import FlexQuery.Client.TradesTotal
import FlexQuery.Python.ZoneInfo

/-!
# Default namespaces

* `Document` — a document whose element names are well formed; `NamespaceUri` — a namespace name.
* `Element.qualify` — every name of the document put in the namespace, as a default `xmlns` does.
* `childText_qualify` — a child is looked for by its plain name, so that it is found no more, while
  `localName_qualify` keeps the elements the readers walk through.
* `cash_unchanged_iff`, `trades_unchanged_iff`, `answer_unchanged_iff` — each reader sees no
  difference exactly when the child elements it reads make none.
* `namespace_unchanged_iff` — the three together.
-/

set_option autoImplicit false

namespace FlexQuery

/-! ## Names -/

/-- A namespace name; a URI has no brace. -/
structure NamespaceUri where
  name : String
  noBrace : '}' ∉ name.toList

/-- The name starts with the namespace it is in. -/
def isQualified (tag : String) : Bool := tag.toList.head? = some '{'

/-- An element name: a local name has no brace. -/
def WellNamed (tag : String) : Prop := '}' ∈ tag.toList → isQualified tag = true

/-- The name under a default namespace; one with a prefix has its namespace already. -/
def qualifyName (ns : NamespaceUri) (tag : String) : String :=
  if isQualified tag then tag else "\x7b" ++ ns.name ++ "\x7d" ++ tag

theorem isQualified_qualifyName (ns : NamespaceUri) (tag : String) :
    isQualified (qualifyName ns tag) = true := by
  unfold qualifyName
  split
  · assumption
  · simp [isQualified]

/-- What is walked through by its local name stays what it is. -/
theorem localName_qualify (ns : NamespaceUri) {tag : String} (h : WellNamed tag) :
    localName (qualifyName ns tag) = localName tag := by
  unfold qualifyName
  split
  · rfl
  · rename_i hplain
    have hlocal : '}' ∉ tag.toList := fun hmem => hplain (h hmem)
    have hns : ns.name.toList.dropWhile (fun c => decide (c ≠ '}')) = [] := by
      rw [List.dropWhile_eq_nil_iff]
      intro c hc
      exact decide_eq_true fun hbrace => ns.noBrace (hbrace ▸ hc)
    have hchars : ("\x7b" ++ ns.name ++ "\x7d" ++ tag).toList =
        '{' :: (ns.name.toList ++ '}' :: tag.toList) := by simp
    unfold localName
    rw [hchars, if_neg hlocal, if_pos (by simp), List.dropWhile_cons_of_pos (by decide),
      List.dropWhile_append, hns]
    simp

namespace Element

mutual
/-- The element with every name in the namespace. -/
def qualify (ns : NamespaceUri) : Element → Element
  | mk t a x cs => mk (qualifyName ns t) a x (qualifyAll ns cs)
/-- `qualify` of each element, in order. -/
def qualifyAll (ns : NamespaceUri) : List Element → List Element
  | [] => []
  | c :: cs => c.qualify ns :: qualifyAll ns cs
end

mutual
theorem iter_qualify (ns : NamespaceUri) (elem : Element) :
    (elem.qualify ns).iter = elem.iter.map (qualify ns) := by
  cases elem with
  | mk t a x cs =>
    simp only [qualify, iter, List.map_cons]
    rw [iterAll_qualify ns cs]
theorem iterAll_qualify (ns : NamespaceUri) (cs : List Element) :
    iterAll (qualifyAll ns cs) = (iterAll cs).map (qualify ns) := by
  cases cs with
  | nil => rfl
  | cons c cs =>
    simp only [qualifyAll, iterAll, List.map_append]
    rw [iter_qualify ns c, iterAll_qualify ns cs]
end

variable (ns : NamespaceUri) (elem : Element)

@[simp] theorem tag_qualify : (elem.qualify ns).tag = qualifyName ns elem.tag := by
  cases elem
  rfl

@[simp] theorem attrib_qualify : (elem.qualify ns).attrib = elem.attrib := by
  cases elem
  rfl

@[simp] theorem get_qualify (k : String) : (elem.qualify ns).get k = elem.get k := by
  cases elem
  rfl

/-- Every child is in some namespace. -/
theorem children_qualify : ∀ c ∈ (elem.qualify ns).children, isQualified c.tag = true := by
  have hall : ∀ cs : List Element, ∀ c ∈ qualifyAll ns cs, isQualified c.tag = true := by
    intro cs
    induction cs with
    | nil =>
      intro c hc
      cases hc
    | cons d ds ih =>
      intro c hc
      rcases List.mem_cons.mp hc with rfl | hc
      · rw [tag_qualify]
        exact isQualified_qualifyName ns d.tag
      · exact ih c hc
  cases elem with
  | mk t a x cs => exact hall cs

/-- A lookup by a plain name finds no child any more. -/
theorem childText_qualify {n : String} (hn : isQualified n = false) (default : String) :
    (elem.qualify ns).childText n default = default := by
  have hnone : ((elem.qualify ns).children.find? fun c => c.tag = n) = none := by
    rw [List.find?_eq_none]
    intro c hc htag
    have hqualified := children_qualify ns elem c hc
    rw [of_decide_eq_true htag, hn] at hqualified
    cases hqualified
  unfold childText
  rw [hnone]

/-- The element without what it contains. -/
def bare : Element → Element
  | mk t a _ _ => mk t a none []

@[simp] theorem attrib_bare : elem.bare.attrib = elem.attrib := by
  cases elem
  rfl

@[simp] theorem get_bare (k : String) : elem.bare.get k = elem.get k := by
  cases elem
  rfl

@[simp] theorem childText_bare (n default : String) : elem.bare.childText n default = default := by
  cases elem
  rfl

end Element

/-- A document: every element name is well formed. -/
structure Document where
  root : Element
  wellNamed : ∀ node ∈ root.iter, WellNamed node.tag

/-- The elements with a local name are found in the qualified document, in order. -/
theorem filter_qualify (doc : Document) (ns : NamespaceUri) (name : String) :
    ((doc.root.qualify ns).iter.filter fun node => localName node.tag = name) =
      (doc.root.iter.filter fun node => localName node.tag = name).map (Element.qualify ns) := by
  rw [Element.iter_qualify, List.filter_map]
  congr 1
  refine List.filter_congr fun node hnode => ?_
  rw [Function.comp_apply, Element.tag_qualify, localName_qualify ns (doc.wellNamed node hnode)]

/-! ## One field -/

theorem cashField_bare (elem : Element) (children attrs : List String) :
    cashField elem.bare children attrs = firstGiven (attrs.map elem.get) := by
  unfold cashField
  rw [show elem.bare.get = elem.get from funext elem.get_bare]
  simp only [Element.childText_bare]
  induction children with
  | nil => rfl
  | cons k ks ih => exact ih

/-- A field of a qualified element is that of its attributes. -/
theorem cashField_qualify (ns : NamespaceUri) (elem : Element) {children : List String}
    (hchildren : ∀ k ∈ children, isQualified k = false) (attrs : List String) :
    cashField (elem.qualify ns) children attrs = cashField elem.bare children attrs := by
  have htexts : children.map (fun k => some ((elem.qualify ns).childText k "")) =
      children.map fun k => some (elem.bare.childText k "") := by
    apply List.map_congr_left
    intro k hk
    rw [elem.childText_qualify ns (hchildren k hk), elem.childText_bare]
  unfold cashField
  rw [htexts, show (elem.qualify ns).get = elem.bare.get from
    funext fun k => (elem.get_qualify ns k).trans (elem.get_bare k).symm]

theorem statementAccount_qualify (ns : NamespaceUri) (elem : Element) :
    statementAccount (elem.qualify ns) = statementAccount elem.bare := by
  unfold statementAccount
  rw [elem.childText_qualify ns (by decide), elem.childText_qualify ns (by decide)]
  simp

theorem cashRow_qualify (ns : NamespaceUri) (acct : String) (elem : Element) :
    cashRow acct (elem.qualify ns) = cashRow acct elem.bare := by
  unfold cashRow cashAccount cashOwnAccount cashAmount cashDateTime cashOf
  simp (disch := decide) only [cashField_qualify, Element.attrib_qualify, Element.attrib_bare]

/-! ## Two readings of a list -/

section

variable {α β κ : Type} [DecidableEq κ]

/-- Every result carries the key of its element, and `g` is a function of the key: the two readings
of a list are equal only when they agree on every element of it. -/
theorem filterMap_eq_iff_of_key {f g : α → Option β} {key : α → κ} {keyOf : β → κ}
    (hf : ∀ x y, f x = some y → keyOf y = key x) (hg : ∀ x y, g x = some y → keyOf y = key x)
    (hconst : ∀ x x', key x = key x' → g x = g x') (xs : List α) :
    xs.filterMap f = xs.filterMap g ↔ ∀ x ∈ xs, f x = g x := by
  refine ⟨fun h x hx => ?_, List.filterMap_congr⟩
  have hpart : ∀ r : α → Option β, (∀ x y, r x = some y → keyOf y = key x) →
      (xs.filterMap r).filter (fun y => decide (keyOf y = key x)) =
        (xs.filter fun z => decide (key z = key x)).filterMap r := by
    intro r hr
    rw [List.filter_filterMap, List.filterMap_filter]
    apply List.filterMap_congr
    intro z _
    cases hz : r z with
    | none => simp
    | some y => simp [hr z y hz, Option.filter]
  have hsame := congrArg (List.filter fun y => decide (keyOf y = key x)) h
  rw [hpart f hf, hpart g hg] at hsame
  have hmem : x ∈ xs.filter fun z => decide (key z = key x) := by simp [hx]
  have hkey : ∀ z ∈ xs.filter (fun z => decide (key z = key x)), g z = g x := by
    intro z hz
    exact hconst z x (of_decide_eq_true (List.mem_filter.mp hz).2)
  cases hgx : g x with
  | none =>
    have hnil := List.filterMap_eq_nil_iff.mpr fun z hz => (hkey z hz).trans hgx
    exact List.filterMap_eq_nil_iff.mp (hsame.trans hnil) x hmem
  | some y =>
    -- Every element with this key has a result, and so `f` has one for each of them too.
    have hlen := List.filterMap_length_eq_length.mpr fun z hz =>
      show (g z).isSome = true by rw [hkey z hz, hgx]; rfl
    rw [← hsame] at hlen
    obtain ⟨y', hy'⟩ := Option.isSome_iff_exists.mp
      (List.filterMap_length_eq_length.mp hlen x hmem)
    have hin := List.mem_filterMap.mpr ⟨x, hmem, hy'⟩
    rw [hsame] at hin
    obtain ⟨z, hz, hgz⟩ := List.mem_filterMap.mp hin
    rw [hkey z hz, hgx] at hgz
    rw [hy', hgz]

/-- Of two properties, one narrower, that hold equally often, the narrower holds as well. -/
theorem of_countP_eq {p q : α → Bool} {xs : List α}
    (hle : ∀ x ∈ xs, q x = true → p x = true) (h : xs.countP p = xs.countP q) :
    ∀ x ∈ xs, p x = true → q x = true := by
  have hboth : xs.countP (fun x => q x && p x) = xs.countP q := by
    refine List.countP_congr fun x hx => ?_
    rw [Bool.and_eq_true]
    exact ⟨And.left, fun hq => ⟨hq, hle x hx hq⟩⟩
  have hfull : (xs.filter p).countP q = (xs.filter p).length := by
    rw [List.countP_filter, hboth, ← h, List.countP_eq_length_filter]
  intro x hx hp
  exact List.countP_eq_length.mp hfull x (List.mem_filter.mpr ⟨hx, hp⟩)

end

/-! ## Cash transactions -/

theorem orNone_inj {s t : String} : orNone s = orNone t ↔ s = t := by
  unfold orNone
  by_cases hs : s = "" <;> by_cases ht : t = "" <;> simp [hs, ht, eq_comm]

/-- The fields a row keeps as they are written. -/
def KEPT_LOOKUPS : List (List String × List String) :=
  (Written.CASH_LOOKUPS.filter fun l => l.1 ∉ [.accountId, .amount, .transactionID, .conid,
    .fxRateToBase]).map (·.2)

/-- Both elements say the same in the fields that are read of the element alone. -/
@[mk_iff]
structure SameFields (elem elem' : Element) : Prop where
  kept : ∀ l ∈ KEPT_LOOKUPS, cashField elem l.1 l.2 = cashField elem' l.1 l.2
  transactionId : strip (cashField elem ["transactionID", "TransactionID"]
    ["transactionID", "TransactionID"]) = strip (cashField elem'
      ["transactionID", "TransactionID"] ["transactionID", "TransactionID"])
  conid : (pyInt (cashField elem ["conid", "Conid"] ["conid"])).toOption =
    (pyInt (cashField elem' ["conid", "Conid"] ["conid"])).toOption
  fxRateToBase : (pyFloat (cashField elem ["fxRateToBase", "FxRateToBase"]
    ["fxRateToBase"])).toOption = (pyFloat (cashField elem' ["fxRateToBase", "FxRateToBase"]
      ["fxRateToBase"])).toOption

/-- Both elements say the same, each in a report of its own account. -/
structure SameTransaction (acct acct' : String) (elem elem' : Element) : Prop
    extends SameFields elem elem' where
  account : strip (cashAccount acct elem) = strip (cashAccount acct' elem')
  stamp : cashTs (cashDateTime elem) = cashTs (cashDateTime elem')
  amount : cashAmount elem = cashAmount elem'

/-- The element leaves no row: it has neither account nor amount, or no day that can be read. -/
def PassedOver (acct : String) (elem : Element) : Prop :=
  (cashAccount acct elem = "" ∧ (cashAmount elem).isZero = true) ∨
    cashTs (cashDateTime elem) = none

theorem cashRow_none {acct : String} {elem : Element} :
    cashRow acct elem = none ↔ PassedOver acct elem := by
  unfold cashRow PassedOver
  by_cases hblank : cashAccount acct elem = "" <;> cases hzero : (cashAmount elem).isZero <;>
    simp [hblank, hzero]

theorem cashRow_kept {acct : String} {elem : Element} (h : ¬ PassedOver acct elem) :
    ∃ ts, cashTs (cashDateTime elem) = some ts ∧ cashRow acct elem =
      some (cashOf (cashAccount acct elem) ts (cashAmount elem) elem) := by
  obtain ⟨row, hrow⟩ := Option.ne_none_iff_exists'.mp (mt cashRow_none.mp h)
  obtain ⟨ts, hts, rfl⟩ := cashRow_some hrow
  exact ⟨ts, hts, hrow⟩

theorem cashOf_eq_iff {account account' : String} {ts ts' : DateTime} {amount amount' : PyFloat}
    {elem elem' : Element} (hattrib : elem.attrib = elem'.attrib) :
    cashOf account ts amount elem = cashOf account' ts' amount' elem' ↔
      strip account = strip account' ∧ ts = ts' ∧ amount = amount' ∧ SameFields elem elem' := by
  have hkept : KEPT_LOOKUPS = [(["type", "Type"], ["type"]), (["code", "Code"], ["code"]),
      (["currency", "Currency"], ["currency"]),
      (["description", "Description"], ["description"]),
      (["assetCategory", "AssetCategory"], ["assetCategory"]),
      (["subCategory", "SubCategory"], ["subCategory"]), (["symbol", "Symbol"], ["symbol"]),
      (["securityID", "SecurityID"], ["securityID"]),
      (["securityIDType", "SecurityIDType"], ["securityIDType"]),
      (["listingExchange", "ListingExchange"], ["listingExchange"]),
      (["reportDate", "ReportDate"], ["reportDate"]),
      (["availableForTradingDate", "AvailableForTradingDate"],
        ["availableForTradingDate"])] := by decide
  rw [sameFields_iff, hkept]
  simp only [List.forall_mem_cons, List.not_mem_nil, false_imp_iff, implies_true, and_true]
  unfold cashOf
  simp only [FlexCash.mk.injEq, orNone_inj, hattrib]
  grind

/-- The children make no difference to the row: it is passed over with and without them, or it is
kept and says the same. -/
def ChildrenIdle (acct acct' : String) (elem : Element) : Prop :=
  (PassedOver acct elem ∧ PassedOver acct' elem.bare) ∨
    (¬ PassedOver acct elem ∧ ¬ PassedOver acct' elem.bare ∧
      SameTransaction acct acct' elem elem.bare)

theorem cashRow_bare_iff {acct acct' : String} {elem : Element} :
    cashRow acct' elem.bare = cashRow acct elem ↔ ChildrenIdle acct acct' elem := by
  unfold ChildrenIdle
  by_cases hpass : PassedOver acct elem <;> by_cases hpass' : PassedOver acct' elem.bare
  · rw [cashRow_none.mpr hpass, cashRow_none.mpr hpass']
    exact iff_of_true rfl (Or.inl ⟨hpass, hpass'⟩)
  · rw [cashRow_none.mpr hpass, cashRow_none]
    refine iff_of_false hpass' ?_
    rintro (⟨_, h⟩ | ⟨h, _⟩)
    · exact hpass' h
    · exact h hpass
  · rw [cashRow_none.mpr hpass', eq_comm, cashRow_none]
    refine iff_of_false hpass ?_
    rintro (⟨h, _⟩ | ⟨_, h, _⟩)
    · exact hpass h
    · exact h hpass'
  · obtain ⟨ts, hts, hrow⟩ := cashRow_kept hpass
    obtain ⟨ts', hts', hrow'⟩ := cashRow_kept hpass'
    rw [hrow, hrow', Option.some.injEq, eq_comm, cashOf_eq_iff elem.attrib_bare.symm]
    constructor
    · rintro ⟨haccount, hstamp, hamount, hfields⟩
      refine Or.inr ⟨hpass, hpass', ⟨hfields, haccount, ?_, hamount⟩⟩
      rw [hts, hts', hstamp]
    · rintro (⟨h, _⟩ | ⟨_, _, hsame⟩)
      · exact absurd h hpass
      · refine ⟨hsame.account, ?_, hsame.amount, hsame.toSameFields⟩
        have hstamp := hsame.stamp
        rw [hts, hts'] at hstamp
        exact Option.some.inj hstamp

/-! ## The account of the report -/

/-- The account of the report as the attributes alone give it. -/
def attrAccountId (root : Element) : String :=
  (((root.iter.filter isStatement).map fun s => statementAccount s.bare).find? (· ≠ "")).getD
    (strip (firstGiven [root.get "accountId", root.get "accountID"]))

theorem reportAccountId_qualify (doc : Document) (ns : NamespaceUri) :
    reportAccountId (doc.root.qualify ns) = attrAccountId doc.root := by
  have hstatements : ((doc.root.qualify ns).iter.filter isStatement).map statementAccount =
      (doc.root.iter.filter isStatement).map fun s => statementAccount s.bare := by
    unfold isStatement
    rw [filter_qualify, List.map_map]
    exact List.map_congr_left fun s _ => statementAccount_qualify ns s
  unfold reportAccountId attrAccountId
  rw [hstatements, Element.get_qualify, Element.get_qualify]

/-- An account that no child gives is given by no attribute. -/
theorem statementAccount_bare {s : Element} (h : statementAccount s = "") :
    statementAccount s.bare = "" := by
  unfold statementAccount at h ⊢
  simp only [Element.get_bare, Element.childText_bare]
  unfold firstGiven at h ⊢
  simp only [List.findSome?_cons, List.findSome?_nil] at h ⊢
  cases hfirst : (s.get "accountId").bind orNone with
  | some v => simpa [hfirst] using h
  | none =>
    cases hsecond : (s.get "accountID").bind orNone with
    | some v => simpa [hfirst, hsecond] using h
    | none => decide

theorem attrAccountId_blank {root : Element} (h : reportAccountId root = "") :
    attrAccountId root = "" := by
  unfold reportAccountId at h
  cases hfind : ((root.iter.filter isStatement).map statementAccount).find? (· ≠ "") with
  | some a =>
    have hne := List.find?_some hfind
    rw [hfind, Option.getD_some] at h
    rw [h] at hne
    exact absurd rfl (of_decide_eq_true hne)
  | none =>
    rw [hfind, Option.getD_none] at h
    have hnone : ((root.iter.filter isStatement).map fun s => statementAccount s.bare).find?
        (· ≠ "") = none := by
      rw [List.find?_eq_none]
      intro a ha
      obtain ⟨s, hs, rfl⟩ := List.mem_map.mp ha
      have hblank := List.find?_eq_none.mp hfind _ (List.mem_map_of_mem hs)
      have hs : statementAccount s = "" := by simpa using hblank
      simp [statementAccount_bare hs]
    unfold attrAccountId
    rw [hnone, Option.getD_none, h]

/-- **Cash transactions.**  The rows are unchanged exactly when no row is changed by leaving its
child elements, and those of the statements, out. -/
theorem cash_unchanged_iff {flex : FlexService} {body body' : String} {doc : Document}
    {ns : NamespaceUri} (hroot : flex.fromstring body = .ok doc.root)
    (hroot' : flex.fromstring body' = .ok (doc.root.qualify ns)) :
    parseCashTransactionsXml flex body' = parseCashTransactionsXml flex body ↔
      ∀ elem ∈ doc.root.iter, isCashTransaction elem = true →
        ChildrenIdle (reportAccountId doc.root) (attrAccountId doc.root) elem := by
  have hextra : ∀ acct elem row, cashRow acct elem = some row → row.rawExtra = elem.attrib := by
    intro acct elem row hrow
    obtain ⟨ts, _, rfl⟩ := cashRow_some hrow
    rfl
  have hbare : ∀ acct (elem elem' : Element), elem.attrib = elem'.attrib →
      cashRow acct elem.bare = cashRow acct elem'.bare := by
    intro acct elem elem' hattrib
    have hget : elem.get = elem'.get := by
      unfold Element.get
      rw [hattrib]
    unfold cashRow cashAccount cashOwnAccount cashAmount cashDateTime cashOf
    simp only [cashField_bare, hget, Element.attrib_bare, hattrib]
  unfold parseCashTransactionsXml
  rw [hroot, hroot']
  simp only [reportAccountId_qualify]
  unfold isCashTransaction
  rw [filter_qualify, List.filterMap_map,
    show cashRow (attrAccountId doc.root) ∘ Element.qualify ns =
      fun elem => cashRow (attrAccountId doc.root) elem.bare from
      funext fun elem => cashRow_qualify ns _ elem,
    eq_comm, filterMap_eq_iff_of_key (hextra _)
      (fun elem row hrow => (hextra _ _ row hrow).trans elem.attrib_bare) (hbare _)]
  simp only [List.mem_filter, and_imp]
  refine forall_congr' fun elem => imp_congr_right fun _ => imp_congr_right fun _ => ?_
  rw [← cashRow_bare_iff, eq_comm]

/-! ## Trades -/

/-- The exception of an element's own fields; no account changes it. -/
def tradeError (zone : Zone) (elem : Element) : Option PyExc :=
  let attrs := tradeAttrs elem
  match tradeTime zone attrs, digitsInt ((orNone (attr attrs "ibOrderID")).getD
    (attr attrs "orderID")), digitsInt (attr attrs "conid"),
    digitsInt (attr attrs "underlyingConid") with
  | .error e, _, _, _ => some e
  | .ok _, .error e, _, _ => some e
  | .ok _, .ok _, .error e, _ => some e
  | .ok _, .ok _, .ok _, .error e => some e
  | .ok _, .ok _, .ok _, .ok _ => none

/-- The trade has neither a time nor an account. -/
def tradePassedOver (zone : Zone) (acct : String) (elem : Element) : Bool :=
  tradeTime zone (tradeAttrs elem) = .ok none && tradeAccount acct elem = ""

/-- A trade that is passed over raises nothing; any other raises what its fields raise, or leaves a
row with its account. -/
theorem tradeRow_spec (zone : Zone) (acct : String) (elem : Element) :
    (tradePassedOver zone acct elem = true ∧ tradeRow zone acct elem = .ok none) ∨
      (tradePassedOver zone acct elem = false ∧
        ((∃ e, tradeError zone elem = some e ∧ tradeRow zone acct elem = .error e) ∨
          (tradeError zone elem = none ∧ ∃ row, tradeRow zone acct elem = .ok (some row) ∧
            row.accountId = tradeAccount acct elem))) := by
  unfold tradePassedOver tradeError tradeRow
  simp only
  cases htime : tradeTime zone (tradeAttrs elem) with
  | error e => exact Or.inr ⟨by simp, Or.inl ⟨e, rfl, rfl⟩⟩
  | ok time =>
    simp only
    by_cases hpass : time = none ∧ tradeAccount acct elem = ""
    · rw [if_pos hpass]
      exact Or.inl ⟨by simp [hpass], rfl⟩
    · rw [if_neg hpass]
      refine Or.inr ⟨by simpa using hpass, ?_⟩
      cases digitsInt ((orNone (attr (tradeAttrs elem) "ibOrderID")).getD
          (attr (tradeAttrs elem) "orderID")) with
      | error e => exact Or.inl ⟨e, rfl, rfl⟩
      | ok orderId =>
        cases digitsInt (attr (tradeAttrs elem) "conid") with
        | error e => exact Or.inl ⟨e, rfl, rfl⟩
        | ok conid =>
          cases digitsInt (attr (tradeAttrs elem) "underlyingConid") with
          | error e => exact Or.inl ⟨e, rfl, rfl⟩
          | ok underlyingConid => exact Or.inr ⟨rfl, _, rfl, rfl⟩

/-- The first exception among the trades that are not passed over. -/
def firstTradeError (zone : Zone) (acct : String) (trades : List Element) : Option PyExc :=
  (trades.filter fun elem => !tradePassedOver zone acct elem).findSome? (tradeError zone)

/-- All trades of a report are read up to the first exception. -/
theorem mapM_tradeRow (zone : Zone) (acct : String) (trades : List Element) :
    (∃ e, firstTradeError zone acct trades = some e ∧
      trades.mapM (tradeRow zone acct) = .error e) ∨
      (firstTradeError zone acct trades = none ∧
        ∃ rows, trades.mapM (tradeRow zone acct) = .ok rows) := by
  unfold firstTradeError
  induction trades with
  | nil => exact Or.inr ⟨rfl, [], rfl⟩
  | cons elem trades ih =>
    rw [List.mapM_cons, List.filter_cons]
    rcases tradeRow_spec zone acct elem with ⟨hpass, hrow⟩ | ⟨hpass, ⟨e, herror, hrow⟩ |
      ⟨herror, row, hrow, _⟩⟩
    · rw [hpass, hrow]
      rcases ih with ⟨e, hfirst, hmap⟩ | ⟨hfirst, rows, hmap⟩
      · exact Or.inl ⟨e, hfirst, by rw [hmap]; rfl⟩
      · exact Or.inr ⟨hfirst, _, by rw [hmap]; rfl⟩
    · rw [hpass, hrow]
      exact Or.inl ⟨e, by simp [herror], rfl⟩
    · rw [hpass, hrow]
      simp only [Bool.not_false, if_true, List.findSome?_cons, herror]
      rcases ih with ⟨e, hfirst, hmap⟩ | ⟨hfirst, rows, hmap⟩
      · exact Or.inl ⟨e, hfirst, by rw [hmap]; rfl⟩
      · exact Or.inr ⟨hfirst, _, by rw [hmap]; rfl⟩

theorem mapM_of_firstTradeError {zone : Zone} {acct : String} {trades : List Element} {e : PyExc}
    (h : firstTradeError zone acct trades = some e) :
    trades.mapM (tradeRow zone acct) = .error e := by
  rcases mapM_tradeRow zone acct trades with ⟨e', hfirst, hmap⟩ | ⟨hfirst, _⟩
  · rw [h] at hfirst
    cases hfirst
    exact hmap
  · rw [h] at hfirst
    cases hfirst

/-- The trades of a report; `cash` says that its text names cash transactions. -/
def readTrades (zone : Zone) (acct : String) (cash : Bool) (trades : List Element) :
    Except PyExc (List FlexTrade) :=
  match trades.mapM (tradeRow zone acct) with
  | .error e => .error e
  | .ok rows =>
    if rows.reduceOption.isEmpty && cash then .error (.valueError cashReportMsg)
    else .ok rows.reduceOption

theorem parseTradesXml_root {flex : FlexService} {body : String} {root : Element} (zone : Zone)
    (hroot : flex.fromstring body = .ok root) : parseTradesXml flex zone body =
      readTrades zone (reportAccountId root) (contains body "CashTransaction")
        (root.iter.filter isTrade) := by
  unfold parseTradesXml
  rw [hroot]
  rfl

theorem readTrades_error {zone : Zone} {acct : String} {cash : Bool} {trades : List Element}
    {e : PyExc} (h : trades.mapM (tradeRow zone acct) = .error e) :
    readTrades zone acct cash trades = .error e ∧ e ≠ .valueError cashReportMsg := by
  unfold readTrades
  rw [h]
  obtain ⟨elem, _, herror⟩ := mapM_error h
  exact ⟨rfl, tradeRow_error herror⟩

theorem readTrades_ok {zone : Zone} {acct : String} {cash : Bool} {trades : List Element}
    {rows : List (Option FlexTrade)} (h : trades.mapM (tradeRow zone acct) = .ok rows) :
    readTrades zone acct cash trades =
      if rows.reduceOption.isEmpty && cash then .error (.valueError cashReportMsg)
      else .ok rows.reduceOption := by
  unfold readTrades
  rw [h]

/-- The account a trade names itself. -/
def ownAccount (elem : Element) : String := attr (tradeAttrs elem) "accountId"

theorem tradeAccount_own {elem : Element} (h : ownAccount elem ≠ "") (acct : String) :
    tradeAccount acct elem = ownAccount elem := by
  unfold tradeAccount
  rw [← ownAccount, orNone, if_neg h, Option.getD_some]

theorem tradeAccount_report {elem : Element} (h : ownAccount elem = "") (acct : String) :
    tradeAccount acct elem = acct := by
  unfold tradeAccount
  rw [← ownAccount, orNone, if_pos h, Option.getD_none]

/-- With an account for the report no trade is passed over. -/
theorem not_tradePassedOver {zone : Zone} {acct : String} (h : acct ≠ "") (elem : Element) :
    tradePassedOver zone acct elem = false := by
  have hne : tradeAccount acct elem ≠ "" := by
    by_cases hown : ownAccount elem = ""
    · rwa [tradeAccount_report hown]
    · rwa [tradeAccount_own hown]
  unfold tradePassedOver
  simp [hne]

theorem tradePassedOver_blank {zone : Zone} {acct acct' : String} (hblank : acct = "" → acct' = "")
    {elem : Element} (h : tradePassedOver zone acct elem = true) :
    tradePassedOver zone acct' elem = true := by
  have hacct : acct = "" := by
    by_contra hne
    rw [not_tradePassedOver hne] at h
    cases h
  rwa [hblank hacct, ← hacct]

/-- When every trade is passed over, only the text of the report counts. -/
theorem readTrades_passedOver {zone : Zone} {acct : String} {trades : List Element}
    (h : ∀ elem ∈ trades, tradePassedOver zone acct elem = true) (cash : Bool) :
    readTrades zone acct cash trades =
      if cash then .error (.valueError cashReportMsg) else .ok [] := by
  have hrow : ∀ elem ∈ trades, tradeRow zone acct elem = .ok none := by
    intro elem helem
    rcases tradeRow_spec zone acct elem with ⟨_, hrow⟩ | ⟨hpass, _⟩
    · exact hrow
    · rw [h elem helem] at hpass
      cases hpass
  obtain ⟨rows, hrows⟩ := mapM_ok_iff.mpr fun elem helem => ⟨none, hrow elem helem⟩
  have hnil : rows.reduceOption = [] := by
    rw [reduceOption_of_mapM hrows, List.filterMap_eq_nil_iff]
    intro elem helem
    rw [hrow elem helem]
    rfl
  rw [readTrades_ok hrows, hnil]
  rfl

theorem tradePassedOver_of_nil {zone : Zone} {acct : String} {trades : List Element}
    {rows : List (Option FlexTrade)} (h : trades.mapM (tradeRow zone acct) = .ok rows)
    (hnil : rows.reduceOption = []) : ∀ elem ∈ trades, tradePassedOver zone acct elem = true := by
  intro elem helem
  rcases tradeRow_spec zone acct elem with ⟨hpass, _⟩ | ⟨_, ⟨e, _, herror⟩ | ⟨_, row, hrow, _⟩⟩
  · exact hpass
  · obtain ⟨o, ho⟩ := mapM_ok h elem helem
    rw [herror] at ho
    cases ho
  · have hmem := (mem_reduceOption_of_mapM h).mpr ⟨elem, helem, hrow⟩
    rw [hnil] at hmem
    cases hmem

/-- The account of the report is not asked for, or it is the same, or the report is not read. -/
def AccountIdle (zone : Zone) (acct acct' : String) (trades : List Element) : Prop :=
  acct' = acct ∨ (∀ elem ∈ trades, ownAccount elem ≠ "") ∨
    ∃ e, firstTradeError zone acct trades = some e ∧ firstTradeError zone acct' trades = some e

/-- In a report of `acct`, the trade leaves a row of `account`. -/
def leavesRowOf (zone : Zone) (account acct : String) (elem : Element) : Bool :=
  ((tradeRow zone acct elem).toOption.join.map fun row => decide (row.accountId = account)).getD
    false

theorem countP_accountId {zone : Zone} {acct : String} {trades : List Element}
    {rows : List (Option FlexTrade)} (h : trades.mapM (tradeRow zone acct) = .ok rows)
    (account : String) : rows.reduceOption.countP (fun row => row.accountId = account) =
      trades.countP (leavesRowOf zone account acct) := by
  rw [reduceOption_of_mapM h, List.countP_filterMap]
  rfl

/-- With another account, the same rows come only from trades that name their own. -/
theorem own_of_rows_eq {zone : Zone} {acct acct' : String} {trades : List Element}
    {rows rows' : List (Option FlexTrade)} (hacct : acct ≠ "") (hne : acct' ≠ acct)
    (hrows : trades.mapM (tradeRow zone acct) = .ok rows)
    (hrows' : trades.mapM (tradeRow zone acct') = .ok rows')
    (h : rows.reduceOption = rows'.reduceOption) : ∀ elem ∈ trades, ownAccount elem ≠ "" := by
  have hleaves : ∀ elem ∈ trades,
      leavesRowOf zone acct acct elem = decide (tradeAccount acct elem = acct) := by
    intro elem helem
    unfold leavesRowOf
    rcases tradeRow_spec zone acct elem with ⟨hpass, _⟩ | ⟨_, ⟨e, _, herror⟩ |
      ⟨_, row, hrow, haccount⟩⟩
    · rw [not_tradePassedOver hacct] at hpass
      cases hpass
    · obtain ⟨o, ho⟩ := mapM_ok hrows elem helem
      rw [herror] at ho
      cases ho
    · simp [hrow, Except.toOption, haccount]
  have hleaves' : ∀ elem, leavesRowOf zone acct acct' elem = true →
      tradeAccount acct' elem = acct := by
    intro elem hleft
    unfold leavesRowOf at hleft
    rcases tradeRow_spec zone acct' elem with ⟨_, hrow⟩ | ⟨_, ⟨e, _, hrow⟩ |
      ⟨_, row, hrow, haccount⟩⟩
    · simp [hrow, Except.toOption] at hleft
    · simp [hrow, Except.toOption] at hleft
    · simpa [hrow, Except.toOption, haccount] using hleft
  have hcount : trades.countP (leavesRowOf zone acct acct) =
      trades.countP (leavesRowOf zone acct acct') := by
    rw [← countP_accountId hrows, ← countP_accountId hrows', h]
  have hle : ∀ elem ∈ trades, leavesRowOf zone acct acct' elem = true →
      leavesRowOf zone acct acct elem = true := by
    intro elem helem hleft
    rw [hleaves elem helem]
    have haccount := hleaves' elem hleft
    refine decide_eq_true ?_
    by_cases hown : ownAccount elem = ""
    · exact tradeAccount_report hown acct
    · rwa [tradeAccount_own hown] at haccount ⊢
  intro elem helem hown
  have hleft : leavesRowOf zone acct acct elem = true := by
    rw [hleaves elem helem, tradeAccount_report hown]
    exact decide_eq_true rfl
  have hother := hleaves' elem (of_countP_eq hle hcount elem helem hleft)
  rw [tradeAccount_report hown] at hother
  exact hne hother

theorem mapM_congr {α β : Type} {f g : α → Except PyExc β} {xs : List α}
    (h : ∀ x ∈ xs, f x = g x) : xs.mapM f = xs.mapM g := by
  induction xs with
  | nil => rfl
  | cons x xs ih =>
    rw [List.mapM_cons, List.mapM_cons, h x List.mem_cons_self,
      ih fun y hy => h y (List.mem_cons_of_mem _ hy)]

/-- Under another account and in another text the trades are the same. -/
theorem readTrades_eq_iff {zone : Zone} {acct acct' : String} {cash cash' : Bool}
    {trades : List Element} (hblank : acct = "" → acct' = "") :
    readTrades zone acct' cash' trades = readTrades zone acct cash trades ↔
      AccountIdle zone acct acct' trades ∧
        ((∀ elem ∈ trades, tradePassedOver zone acct elem = true) → cash' = cash) := by
  constructor
  · intro h
    refine ⟨?_, fun hpass => ?_⟩
    · unfold AccountIdle
      by_cases hacct : acct' = acct
      · exact Or.inl hacct
      · have hne : acct ≠ "" := fun hnil => hacct ((hblank hnil).trans hnil.symm)
        rcases mapM_tradeRow zone acct trades with ⟨e, hfirst, hmap⟩ | ⟨_, rows, hrows⟩ <;>
          rcases mapM_tradeRow zone acct' trades with ⟨e', hfirst', hmap'⟩ | ⟨_, rows', hrows'⟩
        · rw [(readTrades_error hmap).1, (readTrades_error hmap').1] at h
          cases h
          exact Or.inr (Or.inr ⟨e, hfirst, hfirst'⟩)
        · rw [(readTrades_error hmap).1, readTrades_ok hrows'] at h
          split at h
          · cases h
            exact absurd rfl (@readTrades_error zone acct cash trades _ hmap).2
          · cases h
        · rw [(readTrades_error hmap').1, readTrades_ok hrows] at h
          split at h
          · cases h
            exact absurd rfl (@readTrades_error zone acct' cash trades _ hmap').2
          · cases h
        · rw [readTrades_ok hrows, readTrades_ok hrows'] at h
          refine Or.inr (Or.inl (own_of_rows_eq hne hacct hrows hrows' ?_))
          split at h <;> split at h
          · rename_i hnil hnil'
            rw [Bool.and_eq_true, List.isEmpty_iff] at hnil hnil'
            rw [hnil.1, hnil'.1]
          · cases h
          · cases h
          · exact (Except.ok.inj h).symm
    · rw [readTrades_passedOver hpass, readTrades_passedOver fun elem helem =>
        tradePassedOver_blank hblank (hpass elem helem)] at h
      cases cash <;> cases cash' <;> simp at h ⊢
  · rintro ⟨hidle, htext⟩
    unfold AccountIdle at hidle
    by_cases herror : ∃ e, firstTradeError zone acct trades = some e ∧
        firstTradeError zone acct' trades = some e
    · obtain ⟨e, hfirst, hfirst'⟩ := herror
      rw [(readTrades_error (mapM_of_firstTradeError hfirst)).1,
        (readTrades_error (mapM_of_firstTradeError hfirst')).1]
    · have hrow : ∀ elem ∈ trades, tradeRow zone acct' elem = tradeRow zone acct elem := by
        intro elem helem
        rcases hidle with rfl | hown | hfirst
        · rfl
        · unfold tradeRow
          rw [tradeAccount_own (hown elem helem), tradeAccount_own (hown elem helem)]
        · exact absurd hfirst herror
      unfold readTrades
      rw [mapM_congr hrow]
      cases hrows : trades.mapM (tradeRow zone acct) with
      | error e => rfl
      | ok rows =>
        simp only
        by_cases hnil : rows.reduceOption = []
        · rw [htext (tradePassedOver_of_nil hrows hnil)]
        · simp [hnil]

/-- **Trades.**  The result is unchanged exactly when no trade takes its account from a child of a
statement, and a report without a row names cash transactions in both texts or in neither. -/
theorem trades_unchanged_iff {flex : FlexService} {body body' : String} {doc : Document}
    {ns : NamespaceUri} (zone : Zone) (hroot : flex.fromstring body = .ok doc.root)
    (hroot' : flex.fromstring body' = .ok (doc.root.qualify ns)) :
    parseTradesXml flex zone body' = parseTradesXml flex zone body ↔
      AccountIdle zone (reportAccountId doc.root) (attrAccountId doc.root)
        (doc.root.iter.filter isTrade) ∧
        ((∀ elem ∈ doc.root.iter.filter isTrade,
          tradePassedOver zone (reportAccountId doc.root) elem = true) →
          contains body' "CashTransaction" = contains body "CashTransaction") := by
  have hrow : ∀ acct, (tradeRow zone acct) ∘ Element.qualify ns = tradeRow zone acct := by
    intro acct
    funext elem
    unfold tradeRow tradeAccount tradeAttrs
    simp only [Function.comp_apply, Element.attrib_qualify]
  have hread : readTrades zone (attrAccountId doc.root) (contains body' "CashTransaction")
      ((doc.root.qualify ns).iter.filter isTrade) =
      readTrades zone (attrAccountId doc.root) (contains body' "CashTransaction")
        (doc.root.iter.filter isTrade) := by
    unfold readTrades isTrade
    rw [filter_qualify, List.mapM_map, hrow]
  rw [parseTradesXml_root zone hroot, parseTradesXml_root zone hroot', reportAccountId_qualify,
    hread]
  exact readTrades_eq_iff attrAccountId_blank

/-! ## The answer of a poll -/

/-- What a `FlexStatementResponse` says is what the client says when it finds nothing. -/
def ResponseIdle (root : Element) : Prop :=
  localName root.tag = "FlexStatementResponse" →
    root.childText "Status" "" ∈ ["", "no Status"] ∧ root.childText "ErrorCode" "" = "" ∧
      root.childText "ErrorMessage" "" ∈ ["", "Report not ready"]

/-- The text of a response that names no field reads in one way only. -/
theorem bareResponse_split {status msg : String}
    (h : status ++ ": " ++ msg = "no Status: Report not ready") :
    status = "no Status" ∧ msg = "Report not ready" := by
  have hchars : status.toList ++ (':' :: ' ' :: msg.toList) =
      "no Status".toList ++ (':' :: ' ' :: "Report not ready".toList) := by
    have := congrArg String.toList h
    simpa using this
  have hcolon : ∀ n < 28, ("no Status".toList ++
      (':' :: ' ' :: "Report not ready".toList))[n]? = some ':' → n = 9 := by decide
  have hlength : status.toList.length = "no Status".toList.length := by
    refine hcolon _ ?_ ?_
    · have hall := congrArg List.length hchars
      simp only [List.length_append, List.length_cons] at hall
      have hfull : "no Status".toList.length + ("Report not ready".toList.length + 1 + 1) = 27 := by
        decide
      omega
    · rw [← hchars]
      simp
  obtain ⟨hstatus, hrest⟩ := List.append_inj hchars hlength
  rw [List.cons.injEq, List.cons.injEq] at hrest
  exact ⟨String.toList_inj.mp hstatus, String.toList_inj.mp hrest.2.2⟩

theorem responseText_iff {status code msg : String} :
    (if code ≠ "" then status ++ " [" ++ code ++ "] " ++ msg else status ++ ": " ++ msg) =
        "no Status: Report not ready" ↔
      status = "no Status" ∧ code = "" ∧ msg = "Report not ready" := by
  by_cases hcode : code = ""
  · rw [if_neg (not_not.mpr hcode)]
    refine ⟨fun h => ⟨(bareResponse_split h).1, hcode, (bareResponse_split h).2⟩, ?_⟩
    rintro ⟨rfl, _, rfl⟩
    decide
  · rw [if_pos hcode]
    refine iff_of_false (fun h => ?_) fun h => hcode h.2.1
    -- The bracket of the code is not in the other text.
    have hbracket : '[' ∈ (status ++ " [" ++ code ++ "] " ++ msg).toList := by simp
    rw [h] at hbracket
    revert hbracket
    decide

theorem getD_orNone_iff {s default : String} :
    (orNone s).getD default = default ↔ s ∈ ["", default] := by
  unfold orNone
  by_cases hs : s = "" <;> simp [hs]

/-- **The answer.**  It is unchanged exactly when a `FlexStatementResponse` says nothing that the
client would not say by itself. -/
theorem answer_unchanged_iff {flex : FlexService} {body body' : String} {doc : Document}
    {ns : NamespaceUri} (hroot : flex.fromstring body = .ok doc.root)
    (hroot' : flex.fromstring body' = .ok (doc.root.qualify ns)) :
    statementNotReady flex body' = statementNotReady flex body ↔ ResponseIdle doc.root := by
  have hself : doc.root ∈ doc.root.iter := by
    cases doc.root
    exact List.mem_cons_self
  have htag : localName (doc.root.qualify ns).tag = localName doc.root.tag := by
    rw [Element.tag_qualify, localName_qualify ns (doc.wellNamed _ hself)]
  have hnodes : ((doc.root.qualify ns).iter.all fun node => localName node.tag ≠ "FlexStatement") =
      doc.root.iter.all fun node => localName node.tag ≠ "FlexStatement" := by
    rw [Element.iter_qualify, List.all_map]
    rw [Bool.eq_iff_iff, List.all_eq_true, List.all_eq_true]
    refine forall₂_congr fun node hnode => ?_
    rw [Function.comp_apply, Element.tag_qualify, localName_qualify ns (doc.wellNamed _ hnode)]
  have hplain : ∀ n ∈ ["Status", "ErrorCode", "ErrorMessage"], ∀ d,
      (doc.root.qualify ns).childText n d = d := by
    intro n hn d
    refine Element.childText_qualify ns doc.root ?_ d
    revert n
    decide
  unfold statementNotReady ResponseIdle
  rw [hroot, hroot']
  simp only [htag, hnodes, hplain "Status" (by simp), hplain "ErrorCode" (by simp),
    hplain "ErrorMessage" (by simp)]
  by_cases hresponse : localName doc.root.tag = "FlexStatementResponse"
  · have hbare : (if ("" : String) ≠ "" then (orNone "").getD "no Status" ++ " [" ++ "" ++ "] " ++
        (orNone "").getD "Report not ready" else (orNone "").getD "no Status" ++ ": " ++
        (orNone "").getD "Report not ready") = "no Status: Report not ready" := by decide
    rw [if_pos hresponse, if_pos hresponse, hbare, Option.some.injEq, eq_comm, responseText_iff,
      getD_orNone_iff, getD_orNone_iff, forall_prop_of_true hresponse]
  · simp [hresponse]

/-! ## The three readers -/

/-- The children of the document make no difference to any of the readers. -/
structure NamesIdle (zone : Zone) (body body' : String) (root : Element) : Prop where
  cash : ∀ elem ∈ root.iter, isCashTransaction elem = true →
    ChildrenIdle (reportAccountId root) (attrAccountId root) elem
  account : AccountIdle zone (reportAccountId root) (attrAccountId root)
    (root.iter.filter isTrade)
  text : (∀ elem ∈ root.iter.filter isTrade,
    tradePassedOver zone (reportAccountId root) elem = true) →
      contains body' "CashTransaction" = contains body "CashTransaction"
  response : ResponseIdle root

/-- **A default namespace.**  The three readers answer the same of the document and of the document
in the namespace exactly when they take nothing from child elements that they would not have
without them. -/
theorem namespace_unchanged_iff {flex : FlexService} (zone : Zone) {body body' : String}
    (doc : Document) (ns : NamespaceUri) (hroot : flex.fromstring body = .ok doc.root)
    (hroot' : flex.fromstring body' = .ok (doc.root.qualify ns)) :
    (parseCashTransactionsXml flex body' = parseCashTransactionsXml flex body ∧
        parseTradesXml flex zone body' = parseTradesXml flex zone body ∧
        statementNotReady flex body' = statementNotReady flex body) ↔
      NamesIdle zone body body' doc.root := by
  rw [cash_unchanged_iff hroot hroot', trades_unchanged_iff zone hroot hroot',
    answer_unchanged_iff hroot hroot']
  constructor
  · rintro ⟨hcash, ⟨haccount, htext⟩, hresponse⟩
    exact ⟨hcash, haccount, htext, hresponse⟩
  · rintro ⟨hcash, haccount, htext, hresponse⟩
    exact ⟨hcash, ⟨haccount, htext⟩, hresponse⟩

theorem flexNamespace_noBrace : '}' ∉ "urn:ib:flex".toList := by decide

def flexNamespace : NamespaceUri := ⟨"urn:ib:flex", flexNamespace_noBrace⟩

/-- The document, and the same in the namespace. -/
def inBoth (root : Element) : FlexService where
  answer _ _ := .body ""
  fromstring body := .ok (if body = "plain" then root else root.qualify flexNamespace)

def feeRow : Element :=
  .mk "CashTransaction" [("dateTime", "20260904"), ("amount", "-3.5"), ("type", "Other Fees")]
    none []

/-- A report whose fields are attributes. -/
def attributeReport : Element :=
  .mk "FlexQueryResponse" [] none
    [.mk "FlexStatement" [("accountId", "U7")] none [.mk "CashTransactions" [] none [feeRow]]]

theorem attributeReport_wellNamed : ∀ node ∈ attributeReport.iter, WellNamed node.tag := by
  unfold WellNamed
  decide

/-- A report of attributes reads the same in the namespace. -/
theorem attributeReport_unchanged :
    parseCashTransactionsXml (inBoth attributeReport) "qualified" =
        parseCashTransactionsXml (inBoth attributeReport) "plain" ∧
      parseTradesXml (inBoth attributeReport) newYork2026 "qualified" =
        parseTradesXml (inBoth attributeReport) newYork2026 "plain" ∧
      statementNotReady (inBoth attributeReport) "qualified" =
        statementNotReady (inBoth attributeReport) "plain" := by
  have haccount : attrAccountId attributeReport = reportAccountId attributeReport := by
    decide +kernel
  refine (namespace_unchanged_iff newYork2026 ⟨attributeReport, attributeReport_wellNamed⟩
    flexNamespace rfl rfl).mpr ⟨?_, Or.inl haccount, fun _ => by decide, ?_⟩
  · intro elem helem hcash
    simp only [attributeReport, feeRow, Element.iter, Element.iterAll, List.append_nil,
      List.mem_cons, List.not_mem_nil, or_false] at helem
    rcases helem with rfl | rfl | rfl | rfl
    · exact absurd hcash (by decide)
    · exact absurd hcash (by decide)
    · exact absurd hcash (by decide)
    · rw [haccount]
      exact cashRow_bare_iff.mp rfl
  · intro hresponse
    revert hresponse
    decide

/-- What IB answers while the report is generated. -/
def warnResponse : Element :=
  .mk "FlexStatementResponse" [] none
    [.mk "Status" [] (some "Warn") [], .mk "ErrorCode" [] (some "1019") [],
      .mk "ErrorMessage" [] (some "Statement generation in progress") []]

theorem warnResponse_wellNamed : ∀ node ∈ warnResponse.iter, WellNamed node.tag := by
  unfold WellNamed
  decide

/-- In the namespace the code of the answer is lost. -/
theorem namespace_loses_code :
    statementNotReady (inBoth warnResponse) "plain" =
        some "Warn [1019] Statement generation in progress" ∧
      statementNotReady (inBoth warnResponse) "qualified" = some "no Status: Report not ready" ∧
      ¬ ∀ (flex : FlexService) (zone : Zone) (body body' : String) (doc : Document)
        (ns : NamespaceUri), flex.fromstring body = .ok doc.root →
        flex.fromstring body' = .ok (doc.root.qualify ns) →
        parseCashTransactionsXml flex body' = parseCashTransactionsXml flex body ∧
          parseTradesXml flex zone body' = parseTradesXml flex zone body ∧
          statementNotReady flex body' = statementNotReady flex body := by
  have hplain : statementNotReady (inBoth warnResponse) "plain" =
      some "Warn [1019] Statement generation in progress" := by decide +kernel
  have hqualified : statementNotReady (inBoth warnResponse) "qualified" =
      some "no Status: Report not ready" := by decide +kernel
  refine ⟨hplain, hqualified, fun hall => ?_⟩
  have hsame := (hall (inBoth warnResponse) newYork2026 "plain" "qualified"
    ⟨warnResponse, warnResponse_wellNamed⟩ flexNamespace rfl rfl).2.2
  rw [hplain, hqualified] at hsame
  revert hsame
  decide

end FlexQuery
