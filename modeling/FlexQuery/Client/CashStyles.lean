import FlexQuery.Client.CashParser

/-!
# Attribute style and element style

* `Written` — what a transaction says: distinct fields, each with a trimmed value.
* `Written.element` — the element, with each field as a child or as an attribute.
* `cashField_element` — a field read with its attribute fallback is the value that is written.
* `styles_agree` — the rows of the report, whichever way each field is written.
-/

set_option autoImplicit false

namespace FlexQuery

/-- The fields of a `CashTransaction` the parser knows. -/
inductive CashFieldName where
  | accountId
  | dateTime
  | settleDate
  | amount
  | type
  | code
  | currency
  | description
  | transactionID
  | assetCategory
  | subCategory
  | symbol
  | conid
  | securityID
  | securityIDType
  | listingExchange
  | reportDate
  | availableForTradingDate
  | fxRateToBase
  deriving DecidableEq, Repr

namespace CashFieldName

def name : CashFieldName → String
  | accountId => "accountId"
  | dateTime => "dateTime"
  | settleDate => "settleDate"
  | amount => "amount"
  | type => "type"
  | code => "code"
  | currency => "currency"
  | description => "description"
  | transactionID => "transactionID"
  | assetCategory => "assetCategory"
  | subCategory => "subCategory"
  | symbol => "symbol"
  | conid => "conid"
  | securityID => "securityID"
  | securityIDType => "securityIDType"
  | listingExchange => "listingExchange"
  | reportDate => "reportDate"
  | availableForTradingDate => "availableForTradingDate"
  | fxRateToBase => "fxRateToBase"

def all : List CashFieldName :=
  [ accountId, dateTime, settleDate, amount, type, code, currency, description, transactionID,
    assetCategory, subCategory, symbol, conid, securityID, securityIDType, listingExchange,
    reportDate, availableForTradingDate, fxRateToBase ]

theorem mem_all (k : CashFieldName) : k ∈ all := by
  cases k <;> decide

@[simp] theorem name_inj {k k' : CashFieldName} : k.name = k'.name ↔ k = k' := by
  have hall : ∀ a ∈ all, ∀ b ∈ all, a.name = b.name → a = b := by decide
  exact ⟨hall k k.mem_all k' k'.mem_all, congrArg name⟩

/-- No other name the parser looks under is one of a field. -/
theorem name_ne {n : String} (h : n ∉ all.map name) (k : CashFieldName) : k.name ≠ n := by
  rintro rfl
  exact h (List.mem_map_of_mem k.mem_all)

end CashFieldName

/-- What a transaction says: each field once, with a trimmed value that is not empty. -/
structure Written where
  fields : List (CashFieldName × String)
  distinct : (fields.map (·.1)).Nodup
  trimmed : ∀ e ∈ fields, strip e.2 = e.2 ∧ e.2 ≠ ""

namespace Written

variable (w : Written)

/-- The value of a field. -/
def value (k : CashFieldName) : Option String := (w.fields.find? fun e => e.1 = k).map (·.2)

/-- The element: a field is a child where `child` says so, and an attribute elsewhere. -/
def element (tag : String) (text : Option String) (child : CashFieldName → Bool) : Element :=
  .mk tag ((w.fields.filter fun e => !child e.1).map fun e => (e.1.name, e.2)) text
    ((w.fields.filter fun e => child e.1).map fun e => .mk e.1.name [] (some e.2) [])

theorem value_trimmed {k : CashFieldName} {v : String} (h : w.value k = some v) :
    strip v = v ∧ v ≠ "" := by
  obtain ⟨e, he, rfl⟩ := Option.map_eq_some_iff.mp h
  exact w.trimmed e (List.mem_of_find?_eq_some he)

variable {tag : String} {text : Option String} {child : CashFieldName → Bool}

/-! ## One name -/

theorem find_written (keep : CashFieldName → Bool) (k : CashFieldName) :
    ((w.fields.filter fun e => keep e.1).find? fun e => e.1.name = k.name).map (·.2) =
      if keep k then w.value k else none := by
  simp only [CashFieldName.name_inj, List.find?_filter]
  cases hkeep : keep k with
  | true =>
    have hpred : (fun e : CashFieldName × String => decide (keep e.1 = true ∧
        decide (e.1 = k) = true)) = fun e => decide (e.1 = k) := by
      funext e
      by_cases he : e.1 = k
      · simp [he, hkeep]
      · simp [he]
    rw [hpred]
    rfl
  | false =>
    have hnone : w.fields.find? (fun e => decide (keep e.1 = true ∧ decide (e.1 = k) = true)) =
        none := by
      rw [List.find?_eq_none]
      intro e _
      by_cases he : e.1 = k
      · simp [he, hkeep]
      · simp [he]
    rw [hnone]
    rfl

theorem get_name (k : CashFieldName) :
    (w.element tag text child).get k.name = if child k then none else w.value k := by
  have hfind := w.find_written (fun k => !child k) k
  unfold Element.get element Element.attrib
  simp only [List.find?_map, Option.map_map]
  rw [show (fun e : String × String => decide (e.1 = k.name)) ∘
    (fun e : CashFieldName × String => (e.1.name, e.2)) = fun e => decide (e.1.name = k.name)
    from rfl]
  refine hfind.trans ?_
  cases child k <;> rfl

theorem childText_name (k : CashFieldName) : (w.element tag text child).childText k.name "" =
    if child k then (w.value k).getD "" else "" := by
  have hfind := w.find_written child k
  unfold Element.childText element Element.children
  simp only [List.find?_map]
  rw [show (fun c : Element => decide (c.tag = k.name)) ∘
    (fun e : CashFieldName × String => Element.mk e.1.name [] (some e.2) []) =
    fun e => decide (e.1.name = k.name) from rfl]
  cases hentry : (w.fields.filter fun e => child e.1).find? fun e => e.1.name = k.name with
  | none =>
    rw [hentry] at hfind
    cases hc : child k with
    | false => simp
    | true =>
      rw [hc] at hfind
      have hvalue : w.value k = none := hfind.symm
      simp [hvalue]
  | some e =>
    rw [hentry] at hfind
    cases hc : child k with
    | false =>
      rw [hc] at hfind
      cases hfind
    | true =>
      rw [hc] at hfind
      have hvalue : w.value k = some e.2 := hfind.symm
      obtain ⟨htrim, hne⟩ := w.value_trimmed hvalue
      simp [hvalue, Element.text, hne, htrim]

theorem get_other {n : String} (h : n ∉ CashFieldName.all.map CashFieldName.name) :
    (w.element tag text child).get n = none := by
  unfold Element.get element Element.attrib
  rw [Option.map_eq_none_iff, List.find?_eq_none]
  intro e he
  obtain ⟨f, _, rfl⟩ := List.mem_map.mp he
  simpa using CashFieldName.name_ne h f.1

theorem childText_other {n : String} (h : n ∉ CashFieldName.all.map CashFieldName.name) :
    (w.element tag text child).childText n "" = "" := by
  have hnone : (w.element tag text child).children.find? (fun c => c.tag = n) = none := by
    rw [List.find?_eq_none]
    intro c hc
    obtain ⟨f, _, rfl⟩ := List.mem_map.mp hc
    intro htag
    exact CashFieldName.name_ne h f.1 (of_decide_eq_true htag)
  unfold Element.childText
  rw [hnone]

/-! ## One field -/

theorem firstGiven_eq {texts : List (Option String)} {v : String} (hv : v ≠ "")
    (hmem : some v ∈ texts) (hall : ∀ t ∈ texts, t.bind orNone = none ∨ t = some v) :
    firstGiven texts = v := by
  unfold firstGiven
  induction texts with
  | nil => cases hmem
  | cons t ts ih =>
    have hsome : (some v).bind orNone = some v := by simp [orNone, hv]
    rcases hall t List.mem_cons_self with hnone | rfl
    · have hne : t ≠ some v := by
        rintro rfl
        rw [hsome] at hnone
        cases hnone
      rw [List.findSome?_cons, hnone]
      exact ih (List.mem_of_ne_of_mem (Ne.symm hne) hmem) fun t ht =>
        hall t (List.mem_cons_of_mem _ ht)
    · rw [List.findSome?_cons, hsome]
      rfl

theorem firstGiven_nothing {texts : List (Option String)}
    (hall : ∀ t ∈ texts, t.bind orNone = none) : firstGiven texts = "" := by
  unfold firstGiven
  rw [List.findSome?_eq_none_iff.mpr hall]
  rfl

/-- A field that is looked for under its own name, among children and among attributes, and
elsewhere only under names of no field. -/
theorem cashField_element (k : CashFieldName) {children attrs : List String}
    (hchild : k.name ∈ children) (hattr : k.name ∈ attrs)
    (hother : ∀ n ∈ children ++ attrs, n = k.name ∨
      n ∉ CashFieldName.all.map CashFieldName.name) :
    cashField (w.element tag text child) children attrs = (w.value k).getD "" := by
  have hempty : (some "").bind orNone = none := rfl
  have hchildren : ∀ n ∈ children,
      (some ((w.element tag text child).childText n "")).bind orNone = none ∨
        some ((w.element tag text child).childText n "") = w.value k := by
    intro n hn
    rcases hother n (List.mem_append_left _ hn) with rfl | hn
    · rw [w.childText_name]
      cases hvalue : w.value k with
      | none => simp [orNone]
      | some v => cases child k <;> simp [orNone]
    · exact Or.inl (by rw [w.childText_other hn, hempty])
  have hattrs : ∀ n ∈ attrs, ((w.element tag text child).get n).bind orNone = none ∨
      (w.element tag text child).get n = w.value k := by
    intro n hn
    rcases hother n (List.mem_append_right _ hn) with rfl | hn
    · rw [w.get_name]
      cases child k <;> simp
    · exact Or.inl (by rw [w.get_other hn]; rfl)
  have hall : ∀ t ∈ children.map (fun n => some ((w.element tag text child).childText n "")) ++
      attrs.map (w.element tag text child).get, t.bind orNone = none ∨ t = w.value k := by
    intro t ht
    rcases List.mem_append.mp ht with ht | ht
    · obtain ⟨n, hn, rfl⟩ := List.mem_map.mp ht
      exact hchildren n hn
    · obtain ⟨n, hn, rfl⟩ := List.mem_map.mp ht
      exact hattrs n hn
  unfold cashField
  cases hvalue : w.value k with
  | none =>
    apply firstGiven_nothing
    intro t ht
    rcases hall t ht with h | h
    · exact h
    · rw [h, hvalue]
      rfl
  | some v =>
    obtain ⟨_, hne⟩ := w.value_trimmed hvalue
    rw [Option.getD_some]
    refine firstGiven_eq hne ?_ (by simpa only [hvalue] using hall)
    cases hside : child k with
    | true =>
      refine List.mem_append_left _ (List.mem_map.mpr ⟨k.name, hchild, ?_⟩)
      rw [w.childText_name, hside, hvalue]
      rfl
    | false =>
      refine List.mem_append_right _ (List.mem_map.mpr ⟨k.name, hattr, ?_⟩)
      rw [w.get_name, hside, hvalue]
      rfl

/-! ## The row of the element -/

/-- The names each field is looked for under, among the children and among the attributes;
`dateTime` is looked for together with `settleDate`. -/
def CASH_LOOKUPS : List (CashFieldName × List String × List String) :=
  [ (.accountId, ["accountId", "AccountId"], ["accountId", "accountID"]),
    (.amount, ["amount", "Amount"], ["amount"]), (.type, ["type", "Type"], ["type"]),
    (.code, ["code", "Code"], ["code"]), (.currency, ["currency", "Currency"], ["currency"]),
    (.description, ["description", "Description"], ["description"]),
    (.transactionID, ["transactionID", "TransactionID"], ["transactionID", "TransactionID"]),
    (.assetCategory, ["assetCategory", "AssetCategory"], ["assetCategory"]),
    (.subCategory, ["subCategory", "SubCategory"], ["subCategory"]),
    (.symbol, ["symbol", "Symbol"], ["symbol"]), (.conid, ["conid", "Conid"], ["conid"]),
    (.securityID, ["securityID", "SecurityID"], ["securityID"]),
    (.securityIDType, ["securityIDType", "SecurityIDType"], ["securityIDType"]),
    (.listingExchange, ["listingExchange", "ListingExchange"], ["listingExchange"]),
    (.reportDate, ["reportDate", "ReportDate"], ["reportDate"]),
    (.availableForTradingDate, ["availableForTradingDate", "AvailableForTradingDate"],
      ["availableForTradingDate"]),
    (.fxRateToBase, ["fxRateToBase", "FxRateToBase"], ["fxRateToBase"]) ]

theorem lookups_fit : ∀ l ∈ CASH_LOOKUPS, l.1.name ∈ l.2.1 ∧ l.1.name ∈ l.2.2 ∧
    ∀ n ∈ l.2.1 ++ l.2.2, n = l.1.name ∨ n ∉ CashFieldName.all.map CashFieldName.name := by
  decide

theorem cashField_lookup : ∀ l ∈ CASH_LOOKUPS,
    cashField (w.element tag text child) l.2.1 l.2.2 = (w.value l.1).getD "" := by
  intro l hl
  obtain ⟨hchild, hattr, hother⟩ := lookups_fit l hl
  exact w.cashField_element l.1 hchild hattr hother

/-- With `dateTime` and `settleDate` on one side, the first that is written is taken. -/
theorem cashDateTime_element (hside : child .dateTime = child .settleDate) :
    cashDateTime (w.element tag text child) =
      strip ((w.value .dateTime).getD ((w.value .settleDate).getD "")) := by
  have hdate := @childText_name w tag text child .dateTime
  have hsettle := @childText_name w tag text child .settleDate
  have hother := @childText_other w tag text child "DateTime" (by decide)
  have hgetDate := @get_name w tag text child .dateTime
  have hgetSettle := @get_name w tag text child .settleDate
  simp only [CashFieldName.name] at hdate hsettle hgetDate hgetSettle
  have hvalue : ∀ k v, w.value k = some v → orNone v = some v := by
    intro k v hv
    simp [orNone, (w.value_trimmed hv).2]
  have hempty : orNone "" = none := rfl
  unfold cashDateTime cashField
  simp only [List.map_cons, List.map_nil, List.cons_append, List.nil_append, hdate, hsettle,
    hother, hgetDate, hgetSettle, hside]
  unfold firstGiven
  cases hd : w.value .dateTime with
  | some v =>
    have hv := hvalue _ v hd
    cases child .settleDate <;> simp [hv, hempty]
  | none =>
    cases hs : w.value .settleDate with
    | some v =>
      have hv := hvalue _ v hs
      cases child .settleDate <;> simp [hv, hempty]
    | none => cases child .settleDate <;> simp [hempty]

end Written

/-- The row without `raw_extra`. -/
def FlexCash.withoutExtra (row : FlexCash) : FlexCash := { row with rawExtra := [] }

namespace Written

variable (w : Written) {tag : String} {text : Option String} {child child' : CashFieldName → Bool}

theorem cashOf_element (account : String) (ts : DateTime) (amount : PyFloat) :
    (cashOf account ts amount (w.element tag text child)).withoutExtra =
      (cashOf account ts amount (w.element tag text child')).withoutExtra := by
  have hread := @cashField_lookup w tag text child
  have hread' := @cashField_lookup w tag text child'
  simp only [CASH_LOOKUPS, List.forall_mem_cons] at hread hread'
  unfold cashOf FlexCash.withoutExtra
  simp only [hread, hread']

/-- One element's row is the same however its fields are written; the account of the report counts
only when the element names none. -/
theorem cashRow_element (hside : child .dateTime = child .settleDate)
    (hside' : child' .dateTime = child' .settleDate) {acct acct' : String}
    (hacct : w.value .accountId = none → acct = acct') :
    (cashRow acct (w.element tag text child)).map FlexCash.withoutExtra =
      (cashRow acct' (w.element tag text child')).map FlexCash.withoutExtra := by
  have hread := @cashField_lookup w tag text child
  have hread' := @cashField_lookup w tag text child'
  simp only [CASH_LOOKUPS, List.forall_mem_cons] at hread hread'
  have haccount : cashAccount acct (w.element tag text child) =
      cashAccount acct' (w.element tag text child') := by
    unfold cashAccount cashOwnAccount
    rw [hread.1, hread'.1]
    cases hvalue : w.value .accountId with
    | none => rw [hacct hvalue]
    | some v => simp [orNone, (w.value_trimmed hvalue).2]
  have hamount : cashAmount (w.element tag text child) =
      cashAmount (w.element tag text child') := by
    unfold cashAmount
    rw [hread.2.1, hread'.2.1]
  have hrow : ∀ ts, (cashOf (cashAccount acct (w.element tag text child)) ts
      (cashAmount (w.element tag text child)) (w.element tag text child)).withoutExtra =
      (cashOf (cashAccount acct' (w.element tag text child')) ts
        (cashAmount (w.element tag text child')) (w.element tag text child')).withoutExtra := by
    intro ts
    rw [haccount, hamount]
    exact w.cashOf_element _ ts _
  unfold cashRow
  simp only [w.cashDateTime_element hside, w.cashDateTime_element hside']
  rw [← haccount, ← hamount]
  split
  · rfl
  · rw [Option.map_map, Option.map_map]
    refine Option.map_congr fun ts _ => ?_
    rw [Function.comp_apply, Function.comp_apply, hrow ts, ← haccount, ← hamount]

end Written

/-! ## The enclosing document -/

/-- A document with a place for an element. -/
inductive Surround where
  | here
  | inside (tag : String) (attrib : List (String × String)) (text : Option String)
      (before : List Element) (inner : Surround) (after : List Element)

/-- The document with the element in its place. -/
def Surround.plug : Surround → Element → Element
  | here, e => e
  | inside tag attrib text before inner after, e =>
    .mk tag attrib text (before ++ inner.plug e :: after)

/-- The lookups of the parser tell the same of both elements. -/
structure SameRead (x x' : Element) : Prop where
  tag : x.tag = x'.tag
  attrib : x.attrib = x'.attrib
  childText : ∀ n d, x.childText n d = x'.childText n d

theorem Element.iterAll_append (cs ds : List Element) :
    iterAll (cs ++ ds) = iterAll cs ++ iterAll ds := by
  induction cs with
  | nil => rfl
  | cons c cs ih => simp only [List.cons_append, iterAll, ih, List.append_assoc]

/-- A child is looked up by its tag and read by its text. -/
theorem sameRead_around {tag : String} {attrib : List (String × String)} {text : Option String}
    {before after : List Element} {x x' : Element} (htag : x.tag = x'.tag)
    (htext : x.text = x'.text) :
    SameRead (.mk tag attrib text (before ++ x :: after))
      (.mk tag attrib text (before ++ x' :: after)) := by
  refine ⟨rfl, rfl, fun n d => ?_⟩
  unfold Element.childText Element.children
  simp only [List.find?_append]
  cases before.find? fun c => c.tag = n with
  | some c => rfl
  | none =>
    simp only [Option.none_or, List.find?_cons, htag]
    cases decide (x'.tag = n)
    · rfl
    · simp only [htext]

/-- The elements of a document are those around the place and those in it. -/
theorem iter_plug (surround : Surround) {e e' : Element} (htag : e.tag = e'.tag)
    (htext : e.text = e'.text) :
    (surround.plug e).tag = (surround.plug e').tag ∧
      (surround.plug e).text = (surround.plug e').text ∧
      ∃ before before' after, (surround.plug e).iter = before ++ e.iter ++ after ∧
        (surround.plug e').iter = before' ++ e'.iter ++ after ∧
        List.Forall₂ SameRead before before' := by
  induction surround with
  | here => exact ⟨htag, htext, [], [], [], by simp [Surround.plug], by simp [Surround.plug], .nil⟩
  | inside tag attrib text before inner after ih =>
    obtain ⟨hinner, hinnerText, b, b', a, hiter, hiter', hsame⟩ := ih
    refine ⟨rfl, rfl, .mk tag attrib text (before ++ inner.plug e :: after) ::
        (Element.iterAll before ++ b), .mk tag attrib text (before ++ inner.plug e' :: after) ::
        (Element.iterAll before ++ b'), a ++ Element.iterAll after, ?_, ?_, ?_⟩
    · simp only [Surround.plug, Element.iter, Element.iterAll_append, Element.iterAll, hiter,
        List.cons_append, List.append_assoc]
    · simp only [Surround.plug, Element.iter, Element.iterAll_append, Element.iterAll, hiter',
        List.cons_append, List.append_assoc]
    · refine .cons (sameRead_around hinner hinnerText) ?_
      refine List.rel_append ?_ hsame
      exact List.forall₂_same.mpr fun x _ => ⟨rfl, rfl, fun _ _ => rfl⟩

section

variable {x x' : Element}

theorem SameRead.get (h : SameRead x x') (k : String) : x.get k = x'.get k := by
  unfold Element.get
  rw [h.attrib]

theorem SameRead.cashField (h : SameRead x x') : cashField x = cashField x' := by
  funext children attrs
  have hget : x.get = x'.get := funext h.get
  unfold FlexQuery.cashField
  simp only [h.childText, hget]

theorem SameRead.cashRow (h : SameRead x x') (acct : String) : cashRow acct x = cashRow acct x' := by
  unfold FlexQuery.cashRow cashAccount cashOwnAccount cashAmount cashDateTime cashOf
  simp only [h.cashField, h.attrib]

theorem SameRead.statementAccount (h : SameRead x x') :
    statementAccount x = statementAccount x' := by
  unfold FlexQuery.statementAccount
  simp only [h.get, h.childText]

end

/-- What is read of the elements before the place is read of both documents. -/
theorem filter_same {before before' : List Element} (h : List.Forall₂ SameRead before before')
    {β : Type} (tag : String) {f : Element → Option β} (hf : ∀ x x', SameRead x x' → f x = f x') :
    (before.filter fun x => localName x.tag = tag).filterMap f =
      (before'.filter fun x => localName x.tag = tag).filterMap f := by
  induction h with
  | nil => rfl
  | cons hx _ ih =>
    rw [List.filter_cons, List.filter_cons, hx.tag]
    split
    · rw [List.filterMap_cons, List.filterMap_cons, ih, hf _ _ hx]
    · exact ih

/-! ## The report -/

namespace Written

variable (w : Written) {tag : String} {text : Option String} {child child' : CashFieldName → Bool}

/-- A written transaction is one element of its report, and its fields are none. -/
theorem iter_element {n : String} (hn : n = "CashTransaction" ∨ n = "FlexStatement") :
    ((w.element tag text child).iter.filter fun x => localName x.tag = n) =
      if localName tag = n then [w.element tag text child] else [] := by
  have hnames : ∀ k ∈ CashFieldName.all, localName k.name ≠ n := by
    rcases hn with rfl | rfl <;> decide
  have hleaf : ∀ fs : List (CashFieldName × String),
      ((Element.iterAll (fs.map fun e => .mk e.1.name [] (some e.2) [])).filter
        fun x => localName x.tag = n) = [] := by
    intro fs
    induction fs with
    | nil => rfl
    | cons f fs ih =>
      rw [List.map_cons, Element.iterAll, Element.iter, Element.iterAll, List.filter_append, ih,
        List.append_nil, List.filter_cons_of_neg, List.filter_nil]
      intro htag
      exact hnames f.1 f.1.mem_all (of_decide_eq_true htag)
  unfold element
  rw [Element.iter, List.filter_cons, hleaf]
  by_cases htag : localName tag = n
  · simp [Element.tag, htag]
  · simp [Element.tag, htag]

/-- The account of the report is the same, unless the transaction is the report and names one. -/
theorem reportAccountId_plug (surround : Surround) (htag : localName tag = "CashTransaction")
    (hnone : w.value .accountId = none ∨ surround ≠ .here) :
    reportAccountId (surround.plug (w.element tag text child)) =
      reportAccountId (surround.plug (w.element tag text child')) := by
  obtain ⟨_, _, before, before', after, hiter, hiter', hsame⟩ :=
    @iter_plug surround (w.element tag text child) (w.element tag text child') rfl rfl
  have hstatements : ((surround.plug (w.element tag text child)).iter.filter isStatement).map
      statementAccount = ((surround.plug (w.element tag text child')).iter.filter isStatement).map
        statementAccount := by
    have hbefore := filter_same hsame "FlexStatement" (f := fun x => some (statementAccount x))
      fun x x' hx => congrArg some hx.statementAccount
    have hnot : ¬ localName tag = "FlexStatement" := by
      rw [htag]
      decide
    have hnone := fun child => @iter_element w tag text child _ (Or.inr rfl)
    unfold isStatement
    rw [hiter, hiter']
    simp only [List.filter_append, hnone, if_neg hnot, List.append_nil, List.map_append]
    simp only [List.filterMap_eq_map'] at hbefore
    rw [hbefore]
  have hroot : ∀ n ∈ ["accountId", "accountID"],
      (surround.plug (w.element tag text child)).get n =
        (surround.plug (w.element tag text child')).get n := by
    intro n hn
    cases surround with
    | here =>
      have hvalue := hnone.resolve_right (fun h => h rfl)
      have hown : ∀ child, (w.element tag text child).get "accountId" = none := by
        intro child
        refine (w.get_name .accountId).trans ?_
        rw [hvalue, ite_self]
      simp only [List.mem_cons, List.not_mem_nil, or_false] at hn
      rcases hn with rfl | rfl
      · exact (hown child).trans (hown child').symm
      · exact (w.get_other (by decide)).trans (w.get_other (by decide)).symm
    | inside tag attrib text before inner after => rfl
  unfold reportAccountId
  rw [hstatements, hroot "accountId" (by simp), hroot "accountID" (by simp)]

/-- **One decoding.**  Whichever fields of a transaction are children and whichever attributes, the
report has the same rows apart from `raw_extra`, its own row among them or dropped with it. -/
theorem styles_agree {flex : FlexService} {body body' : String} {surround : Surround}
    (htag : localName tag = "CashTransaction")
    (hside : child .dateTime = child .settleDate) (hside' : child' .dateTime = child' .settleDate)
    (hroot : flex.fromstring body = .ok (surround.plug (w.element tag text child)))
    (hroot' : flex.fromstring body' = .ok (surround.plug (w.element tag text child'))) :
    (cashRow (reportAccountId (surround.plug (w.element tag text child)))
        (w.element tag text child)).map FlexCash.withoutExtra =
      (cashRow (reportAccountId (surround.plug (w.element tag text child')))
        (w.element tag text child')).map FlexCash.withoutExtra ∧
    (parseCashTransactionsXml flex body).map FlexCash.withoutExtra =
      (parseCashTransactionsXml flex body').map FlexCash.withoutExtra := by
  have hrow : (cashRow (reportAccountId (surround.plug (w.element tag text child)))
        (w.element tag text child)).map FlexCash.withoutExtra =
      (cashRow (reportAccountId (surround.plug (w.element tag text child')))
        (w.element tag text child')).map FlexCash.withoutExtra :=
    w.cashRow_element hside hside' fun hnone => w.reportAccountId_plug surround htag (Or.inl hnone)
  refine ⟨hrow, ?_⟩
  have hself := fun child => @iter_element w tag text child _ (Or.inl rfl)
  simp only [if_pos htag] at hself
  unfold parseCashTransactionsXml isCashTransaction
  rw [hroot, hroot']
  by_cases hplace : surround = .here
  · subst hplace
    simp only [Surround.plug] at hrow ⊢
    simp only [hself, List.filterMap_cons, List.filterMap_nil]
    revert hrow
    -- One row or none on both sides.
    cases cashRow _ (w.element tag text child) <;> cases cashRow _ (w.element tag text child') <;>
      simp
  · have hacct := @reportAccountId_plug w tag text child child' surround htag (Or.inr hplace)
    simp only [hacct] at hrow ⊢
    obtain ⟨_, _, before, before', after, hiter, hiter', hsame⟩ :=
      @iter_plug surround (w.element tag text child) (w.element tag text child') rfl rfl
    have hbefore := fun acct => filter_same hsame "CashTransaction" (f := cashRow acct)
      fun x x' hx => hx.cashRow acct
    simp only [hiter, hiter', List.filter_append, hself, List.filterMap_append, hbefore,
      List.map_append, List.filterMap_cons, List.filterMap_nil]
    revert hrow
    cases cashRow _ (w.element tag text child) <;> cases cashRow _ (w.element tag text child') <;>
      simp

end Written

def feeFields : List (CashFieldName × String) :=
  [(.accountId, "U7"), (.dateTime, "20260904"), (.amount, "-3.5"), (.transactionID, "880001")]

theorem feeFields_distinct : (feeFields.map (·.1)).Nodup := by decide

theorem feeFields_trimmed : ∀ e ∈ feeFields, strip e.2 = e.2 ∧ e.2 ≠ "" := by decide

def feeWritten : Written := ⟨feeFields, feeFields_distinct, feeFields_trimmed⟩

def feeReport (child : CashFieldName → Bool) : Element :=
  (Surround.inside "FlexStatement" [("accountId", "U7")] none [] .here []).plug
    (feeWritten.element "CashTransaction" none child)

/-- One body with attributes, and every other with children. -/
def feeFlex : FlexService :=
  ⟨fun _ _ => .body "", fun body => .ok (feeReport fun _ => body ≠ "attributes")⟩

theorem fee_styles : (parseCashTransactionsXml feeFlex "attributes").map FlexCash.withoutExtra =
    (parseCashTransactionsXml feeFlex "elements").map FlexCash.withoutExtra :=
  (@Written.styles_agree feeWritten "CashTransaction" none (fun _ => false) (fun _ => true) feeFlex
    "attributes" "elements" (.inside "FlexStatement" [("accountId", "U7")] none [] .here [])
    (by decide) rfl rfl rfl rfl).2

end FlexQuery
