import FlexQuery.Client.FlexClient
import FlexQuery.Python.DateTime

/-!
# What both report parsers share

* `statementAccount`, `reportAccountId` — the account a row takes when it names none.
* `parseFlexDatetime` — IB's `dateTime`, read on the local clock.
* `Element.enclosed` — every element with the `FlexStatement` around it; the parsers do not look
  at it, `enclosed_elements` says it lists the elements in the order of `iter`.
-/

set_option autoImplicit false

namespace FlexQuery

namespace Element

def attrib : Element → List (String × String)
  | mk _ a _ _ => a

/-- `elem.get(k)`. -/
def get (elem : Element) (k : String) : Option String :=
  (elem.attrib.find? fun e => e.1 = k).map (·.2)

end Element

/-- `a or b or … or ""`. -/
def firstGiven (texts : List (Option String)) : String :=
  (texts.findSome? fun t => t.bind orNone).getD ""

def isStatement (elem : Element) : Bool := localName elem.tag = "FlexStatement"

/-! ## The account of a report -/

/-- What a `FlexStatement` offers as the account of the report. -/
def statementAccount (node : Element) : String :=
  strip (firstGiven [node.get "accountId", node.get "accountID",
    node.childText "accountId" "", node.childText "AccountId" ""])

/-- `report_account_id`. -/
def reportAccountId (root : Element) : String :=
  (((root.iter.filter isStatement).map statementAccount).find? (· ≠ "")).getD
    (strip (firstGiven [root.get "accountId", root.get "accountID"]))

/-- The account of the report is that of every statement that has one, if they agree. -/
theorem reportAccountId_eq {root : Element} {acct : String}
    (hsome : ∃ s ∈ root.iter, isStatement s = true ∧ statementAccount s ≠ "")
    (hall : ∀ s ∈ root.iter, isStatement s = true → statementAccount s ≠ "" →
      statementAccount s = acct) : reportAccountId root = acct := by
  unfold reportAccountId
  cases hfind : ((root.iter.filter isStatement).map statementAccount).find? (· ≠ "") with
  | none =>
    obtain ⟨s, hs, hst, hne⟩ := hsome
    have hmem : statementAccount s ∈ (root.iter.filter isStatement).map statementAccount :=
      List.mem_map_of_mem (List.mem_filter.mpr ⟨hs, hst⟩)
    have := List.find?_eq_none.mp hfind _ hmem
    simp [hne] at this
  | some a =>
    obtain ⟨s, hs, rfl⟩ := List.mem_map.mp (List.mem_of_find?_eq_some hfind)
    obtain ⟨hs, hst⟩ := List.mem_filter.mp hs
    exact hall s hs hst (by simpa using List.find?_some hfind)

/-! ## The statement around an element -/

namespace Element

mutual
/-- The elements in the order of `iter`, each with the nearest `FlexStatement` around it. -/
def enclosed (around : Option Element) : Element → List (Element × Option Element)
  | mk t a x cs =>
    (mk t a x cs, around) ::
      enclosedAll (if isStatement (mk t a x cs) then some (mk t a x cs) else around) cs
/-- `enclosed` of each element, in order. -/
def enclosedAll (around : Option Element) : List Element → List (Element × Option Element)
  | [] => []
  | c :: cs => c.enclosed around ++ enclosedAll around cs
end

mutual
theorem enclosed_elements (around : Option Element) (elem : Element) :
    (elem.enclosed around).map (·.1) = elem.iter := by
  cases elem with
  | mk t a x cs =>
    simp only [enclosed, iter, List.map_cons]
    rw [enclosedAll_elements _ cs]
theorem enclosedAll_elements (around : Option Element) (cs : List Element) :
    (enclosedAll around cs).map (·.1) = iterAll cs := by
  cases cs with
  | nil => rfl
  | cons c cs =>
    simp only [enclosedAll, iterAll, List.map_append]
    rw [enclosed_elements _ c, enclosedAll_elements _ cs]
end

theorem enclosed_self (around : Option Element) (elem : Element) :
    (elem, around) ∈ elem.enclosed around := by
  cases elem with
  | mk t a x cs => exact List.mem_cons_self

theorem enclosed_child {around : Option Element} {elem c : Element} {x : Element × Option Element}
    (hc : c ∈ elem.children)
    (hx : x ∈ c.enclosed (if isStatement elem then some elem else around)) :
    x ∈ elem.enclosed around := by
  have hall : ∀ (o : Option Element) (cs : List Element), c ∈ cs → x ∈ c.enclosed o →
      x ∈ enclosedAll o cs := by
    intro o cs hmem hin
    induction cs with
    | nil => cases hmem
    | cons d ds ih =>
      rcases List.mem_cons.mp hmem with rfl | hmem
      · exact List.mem_append_left _ hin
      · exact List.mem_append_right _ (ih hmem)
  cases elem with
  | mk t a txt cs => exact List.mem_cons_of_mem _ (hall _ cs hc hx)

mutual
/-- What encloses an element is a `FlexStatement` of the report. -/
theorem enclosed_statement {around : Option Element} {elem x s : Element}
    (h : (x, some s) ∈ elem.enclosed around) :
    some s = around ∨ (isStatement s = true ∧ s ∈ elem.iter) := by
  cases elem with
  | mk t a txt cs =>
    simp only [enclosed, List.mem_cons, Prod.mk.injEq] at h
    rcases h with ⟨_, rfl⟩ | h
    · exact Or.inl rfl
    · rcases enclosedAll_statement h with hs | ⟨hst, hs⟩
      · split at hs
        · rename_i hst
          rw [Option.some.inj hs]
          exact Or.inr ⟨hst, List.mem_cons_self⟩
        · exact Or.inl hs
      · exact Or.inr ⟨hst, List.mem_cons_of_mem _ hs⟩
theorem enclosedAll_statement {around : Option Element} {cs : List Element} {x s : Element}
    (h : (x, some s) ∈ enclosedAll around cs) :
    some s = around ∨ (isStatement s = true ∧ s ∈ iterAll cs) := by
  cases cs with
  | nil => cases h
  | cons c cs =>
    simp only [enclosedAll, List.mem_append] at h
    rcases h with h | h
    · rcases enclosed_statement h with hs | ⟨hst, hs⟩
      · exact Or.inl hs
      · exact Or.inr ⟨hst, List.mem_append_left _ hs⟩
    · rcases enclosedAll_statement h with hs | ⟨hst, hs⟩
      · exact Or.inl hs
      · exact Or.inr ⟨hst, List.mem_append_right _ hs⟩
end

end Element

/-! ## `dateTime` -/

/-- `_FLEX_DATETIME_FORMATS`: the format, the characters it consumes, and whether it is a date
only. -/
def FLEX_DATETIME_FORMATS : List ((List Directive × String) × ℕ × Bool) :=
  [ (([.year, .month, .day, .lit ';', .hour, .minute, .second], "%Y%m%d;%H%M%S"), 15, false),
    (([.year, .lit '-', .month, .lit '-', .day, .lit 'T', .hour, .lit ':', .minute, .lit ':',
      .second], "%Y-%m-%dT%H:%M:%S"), 19, false),
    (([.year, .lit '-', .month, .lit '-', .day, .blank, .hour, .lit ':', .minute, .lit ':',
      .second], "%Y-%m-%d %H:%M:%S"), 19, false),
    (([.year, .month, .day], "%Y%m%d"), 8, true),
    (([.year, .lit '-', .month, .lit '-', .day], "%Y-%m-%d"), 10, true) ]

/-- `re.search(r"(\d{8})", s)`. -/
def searchEightDigits (s : String) : Option String :=
  s.toList.tails.findSome? fun t =>
    if 8 ≤ t.length ∧ (t.take 8).all fun c => (digitValue c).isSome then
      some (String.ofList (t.take 8))
    else none

/-- The first format that reads its slice of the text. -/
def firstReading (s : String) : Option (DateTime × Bool) :=
  FLEX_DATETIME_FORMATS.findSome? fun f =>
    if s.toList.length < f.2.1 then none
    else (strptime f.1.1 f.1.2 (slice s f.2.1)).toOption.map (·, f.2.2)

/-- `parse_flex_datetime`: Unix seconds, and whether there was a date only. -/
def parseFlexDatetime (zone : Zone) (raw : String) : Except PyExc (Option ℤ × Bool) :=
  let s := strip raw
  if s = "" then .ok (none, false)
  else
    match firstReading s with
    | some (d, dateOnly) => (d.toUtc zone).map fun t => (some t, dateOnly)
    | none =>
      match searchEightDigits s with
      | none => .ok (none, false)
      | some digits =>
        match strptimeYmd digits with
        | .error _ => .ok (none, false)
        | .ok d => ((DateTime.midnight d).toUtc zone).map fun t => (some t, true)

/-- `_parse_yyyymmdd_to_date`. -/
def parseYyyymmddToDate (s : String) : Option Date :=
  if strip s = "" then none else (strptimeYmd (slice (strip s) 8)).toOption

end FlexQuery
