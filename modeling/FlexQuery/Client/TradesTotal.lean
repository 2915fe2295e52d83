import FlexQuery.Client.DateTimes
import FlexQuery.Client.TradesParser

/-!
# What stops `parse_trades_xml`

* `localReading`, `NamesInstant` — the wall-clock reading of a text, and that its instant is in the
  calendar; `parseFlexDatetime_ok_iff`.
* `Decimal` — what is a digit has a value; `digitsInt_ok_iff`.
* `TradeReadable`, `tradeRow_ok_iff` — the elements that do not raise.
* `parseTradesXml_total_iff` — the reports that are returned, or refused as cash.
-/

set_option autoImplicit false

namespace FlexQuery

/-! ## Dates and times -/

/-- The wall-clock reading of a trimmed text: by a format, or by its first eight digits. -/
def localReading (s : String) : Option DateTime :=
  match firstReading s with
  | some (d, _) => some d
  | none => (searchEightDigits s).bind fun digits => (strptimeYmd digits).toOption.map .midnight

/-- The reading, if there is one, names an instant between `datetime.min` and `datetime.max`. -/
def NamesInstant (zone : Zone) (raw : String) : Prop :=
  ∀ d, localReading (strip raw) = some d →
    -62135596800 ≤ d.unix - zone.localOffset d.unix ∧
      d.unix - zone.localOffset d.unix ≤ 253402300799

theorem parseFlexDatetime_none {zone : Zone} {raw : String} (h : localReading (strip raw) = none) :
    parseFlexDatetime zone raw = .ok (none, false) := by
  unfold localReading at h
  unfold parseFlexDatetime
  cases hfirst : firstReading (strip raw) with
  | some r =>
    simp only [hfirst] at h
    cases h
  | none =>
    simp only [hfirst] at h ⊢
    split
    · rfl
    · cases hsearch : searchEightDigits (strip raw) with
      | none => rfl
      | some digits =>
        simp only [hsearch, Option.bind_some] at h ⊢
        cases hday : strptimeYmd digits with
        | error e => rfl
        | ok d =>
          rw [hday] at h
          cases h

theorem parseFlexDatetime_some {zone : Zone} {raw : String} {d : DateTime}
    (h : localReading (strip raw) = some d) :
    ∃ dateOnly, parseFlexDatetime zone raw = (d.toUtc zone).map fun t => (some t, dateOnly) := by
  unfold localReading at h
  cases hfirst : firstReading (strip raw) with
  | some r =>
    obtain ⟨d', dateOnly⟩ := r
    simp only [hfirst] at h
    cases h
    exact ⟨dateOnly, parseFlexDatetime_of_reading hfirst⟩
  | none =>
    simp only [hfirst] at h
    obtain ⟨digits, hsearch, hday⟩ := Option.bind_eq_some_iff.mp h
    have hne : strip raw ≠ "" := by
      intro hnil
      rw [hnil] at hsearch
      cases hsearch
    cases hymd : strptimeYmd digits with
    | error e =>
      rw [hymd] at hday
      cases hday
    | ok x =>
      rw [hymd] at hday
      cases hday
      refine ⟨true, ?_⟩
      unfold parseFlexDatetime
      simp only [if_neg hne, hfirst, hsearch, hymd]

/-- What is read, when nothing is raised. -/
theorem parseFlexDatetime_reading {zone : Zone} {raw : String} {r : Option ℤ × Bool}
    (h : parseFlexDatetime zone raw = .ok r) : r.1 = none ↔ localReading (strip raw) = none := by
  cases hread : localReading (strip raw) with
  | none =>
    rw [parseFlexDatetime_none hread] at h
    cases h
    simp
  | some d =>
    obtain ⟨dateOnly, hparse⟩ := @parseFlexDatetime_some zone raw d hread
    rw [hparse] at h
    cases hutc : d.toUtc zone with
    | error e =>
      rw [hutc] at h
      cases h
    | ok t =>
      rw [hutc] at h
      cases h
      simp

theorem parseFlexDatetime_ok_iff {zone : Zone} {raw : String} :
    (∃ r, parseFlexDatetime zone raw = .ok r) ↔ NamesInstant zone raw := by
  unfold NamesInstant
  cases hread : localReading (strip raw) with
  | none => exact iff_of_true ⟨_, parseFlexDatetime_none hread⟩ (by intro d hd; cases hd)
  | some d =>
    obtain ⟨dateOnly, hparse⟩ := @parseFlexDatetime_some zone raw d hread
    simp only [Option.some.injEq, forall_eq']
    rw [hparse]
    constructor
    · rintro ⟨r, hr⟩
      cases hutc : d.toUtc zone with
      | error e =>
        rw [hutc] at hr
        cases hr
      | ok t =>
        obtain ⟨rfl, hrange⟩ := DateTime.toUtc_eq_ok.mp hutc
        exact hrange
    · intro hrange
      rw [DateTime.toUtc_eq_ok.mpr ⟨rfl, hrange⟩]
      exact ⟨_, rfl⟩

theorem parseFlexDatetime_error {zone : Zone} {raw : String} {e : PyExc}
    (h : parseFlexDatetime zone raw = .error e) : e = Date.overflowError := by
  cases hread : localReading (strip raw) with
  | none =>
    rw [parseFlexDatetime_none hread] at h
    cases h
  | some d =>
    obtain ⟨dateOnly, hparse⟩ := @parseFlexDatetime_some zone raw d hread
    rw [hparse] at h
    unfold DateTime.toUtc at h
    simp only at h
    split at h
    · cases h
    · cases h
      rfl

/-! ## Digits -/

/-- A character that `str.isdigit` accepts. -/
def digitLike (c : Char) : Bool :=
  (digitValue c).isSome || digitRanges.any fun r => r.1 ≤ c.toNat && c.toNat ≤ r.2

theorem isDigit_iff {s : String} :
    isDigit s = true ↔ s ≠ "" ∧ ∀ c ∈ s.toList, digitLike c = true := by
  simp [isDigit, digitLike]

theorem splitSign_digits {l : List Char} (h : ∀ c ∈ l, digitLike c = true) :
    splitSign l = (false, l) := by
  have hsigns : digitLike '+' = false ∧ digitLike '-' = false := by decide
  unfold splitSign
  split
  · rw [h '+' List.mem_cons_self] at hsigns
    cases hsigns.1
  · rw [h '-' List.mem_cons_self] at hsigns
    cases hsigns.2
  · rfl

theorem dropUnderscores_digits {l : List Char} (h : ∀ c ∈ l, digitLike c = true) (b : Bool) :
    dropUnderscores b l = some l := by
  have hunderscore : digitLike '_' = false := by decide
  induction l generalizing b with
  | nil => rfl
  | cons c t ih =>
    have hc : c ≠ '_' := by
      rintro rfl
      rw [h '_' List.mem_cons_self] at hunderscore
      cases hunderscore
    simp only [dropUnderscores, if_neg hc, ih fun x hx => h x (List.mem_cons_of_mem _ hx)]
    rfl

theorem mapM_option {α β : Type} (f : α → Option β) (l : List α) :
    match l.mapM f with
    | some ds => (∀ c ∈ l, (f c).isSome = true) ∧ ds.length = l.length
    | none => ∃ c ∈ l, f c = none := by
  induction l with
  | nil => exact ⟨nofun, rfl⟩
  | cons c t ih =>
    rw [List.mapM_cons]
    cases hc : f c with
    | none => exact ⟨c, List.mem_cons_self, hc⟩
    | some d =>
      cases ht : t.mapM f with
      | none =>
        rw [ht] at ih
        obtain ⟨x, hx, hnone⟩ := ih
        exact ⟨x, List.mem_cons_of_mem _ hx, hnone⟩
      | some ds =>
        rw [ht] at ih
        refine ⟨?_, congrArg (· + 1) ih.2⟩
        intro x hx
        rcases List.mem_cons.mp hx with rfl | hx
        · rw [hc]
          rfl
        · exact ih.1 x hx

/-- What `int()` takes of the texts that `str.isdigit` accepts. -/
def Decimal (s : String) : Prop :=
  (∀ c ∈ s.toList, (digitValue c).isSome = true) ∧ s.toList.length ≤ INT_MAX_STR_DIGITS

theorem pyInt_digits {s : String} (hstrip : strip s = s) (h : isDigit s = true) :
    (∃ n, pyInt s = .ok n) ↔ Decimal s := by
  obtain ⟨hne, hall⟩ := isDigit_iff.mp h
  have hmap := mapM_option digitValue s.toList
  have hnil : s.toList ≠ [] := by simpa using hne
  unfold pyInt Decimal
  simp only [hstrip, splitSign_digits hall, dropUnderscores_digits hall, Option.bind_some]
  cases hds : s.toList.mapM digitValue with
  | none =>
    rw [hds] at hmap
    obtain ⟨c, hc, hnone⟩ := hmap
    refine iff_of_false (by rintro ⟨n, hn⟩; cases hn) ?_
    rintro ⟨hsome, _⟩
    have := hsome c hc
    rw [hnone] at this
    cases this
  | some ds =>
    rw [hds] at hmap
    cases ds with
    | nil => exact absurd (List.eq_nil_of_length_eq_zero hmap.2.symm) hnil
    | cons d ds =>
      simp only
      split
      · rename_i hlong
        refine iff_of_false (by rintro ⟨n, hn⟩; cases hn) ?_
        rintro ⟨_, hle⟩
        rw [hmap.2] at hlong
        omega
      · rename_i hlong
        rw [hmap.2] at hlong
        exact iff_of_true ⟨_, rfl⟩ ⟨hmap.1, by omega⟩

theorem pyInt_error {s : String} {e : PyExc} (h : pyInt s = .error e) :
    ∃ msg, e = .valueError msg ∧ msg.toList.head? ≠ some 'F' := by
  unfold pyInt at h
  simp only at h
  split at h
  · cases h
    refine ⟨_, rfl, ?_⟩
    simp [String.toList_append]
  · cases h
    refine ⟨_, rfl, ?_⟩
    simp [String.toList_append]
  · split at h
    · cases h
      refine ⟨_, rfl, ?_⟩
      simp [String.toList_append]
    · cases h

theorem digitsInt_ok_iff {s : String} (hstrip : strip s = s) :
    (∃ o, digitsInt s = .ok o) ↔ (isDigit s = true → Decimal s) := by
  unfold digitsInt
  split
  · rename_i hdigit
    rw [← pyInt_digits hstrip hdigit, forall_prop_of_true hdigit]
    cases pyInt s with
    | error e => exact iff_of_false (by rintro ⟨o, ho⟩; cases ho) (by rintro ⟨n, hn⟩; cases hn)
    | ok n => exact iff_of_true ⟨_, rfl⟩ ⟨n, rfl⟩
  · rename_i hdigit
    exact iff_of_true ⟨none, rfl⟩ fun h => absurd h hdigit

/-! ## One element -/

/-- `attrs.get("ibOrderID") or attrs.get("orderID")`. -/
def orderIdText (attrs : List (String × String)) : String :=
  (orNone (attr attrs "ibOrderID")).getD (attr attrs "orderID")

theorem strip_orderIdText (elem : Element) :
    strip (orderIdText (tradeAttrs elem)) = orderIdText (tradeAttrs elem) := by
  unfold orderIdText orNone
  split
  · exact strip_attr elem "orderID"
  · exact strip_attr elem "ibOrderID"

/-- The element leaves a row: it has an account, or a time. -/
def Kept (acct : String) (elem : Element) : Prop :=
  tradeAccount acct elem ≠ "" ∨ localReading (attr (tradeAttrs elem) "dateTime") ≠ none ∨
    localReading (attr (tradeAttrs elem) "tradeDate") ≠ none

/-- Nothing in the element stops the parser. -/
structure TradeReadable (zone : Zone) (acct : String) (elem : Element) : Prop where
  dateTime : NamesInstant zone (attr (tradeAttrs elem) "dateTime")
  /-- Looked at when `dateTime` says nothing. -/
  tradeDate : localReading (attr (tradeAttrs elem) "dateTime") = none →
    NamesInstant zone (attr (tradeAttrs elem) "tradeDate")
  /-- Looked at when the element leaves a row. -/
  numbers : Kept acct elem → ∀ s ∈ [orderIdText (tradeAttrs elem), attr (tradeAttrs elem) "conid",
    attr (tradeAttrs elem) "underlyingConid"], isDigit s = true → Decimal s

theorem tradeTime_ok_iff {zone : Zone} {elem : Element} :
    (∃ o, tradeTime zone (tradeAttrs elem) = .ok o) ↔
      NamesInstant zone (attr (tradeAttrs elem) "dateTime") ∧
        (localReading (attr (tradeAttrs elem) "dateTime") = none →
          NamesInstant zone (attr (tradeAttrs elem) "tradeDate")) := by
  rw [← parseFlexDatetime_ok_iff, ← parseFlexDatetime_ok_iff]
  have hstrip := strip_attr elem "dateTime"
  unfold tradeTime
  cases hread : parseFlexDatetime zone (attr (tradeAttrs elem) "dateTime") with
  | error e => exact iff_of_false (by rintro ⟨o, ho⟩; cases ho) (by rintro ⟨⟨r, hr⟩, _⟩; cases hr)
  | ok r =>
    have hnone := parseFlexDatetime_reading hread
    rw [hstrip] at hnone
    obtain ⟨o, b⟩ := r
    cases o with
    | some t =>
      refine iff_of_true ⟨_, rfl⟩ ⟨⟨_, rfl⟩, ?_⟩
      intro hno
      cases hnone.mpr hno
    | none =>
      rw [forall_prop_of_true (hnone.mp rfl)]
      simp only
      cases parseFlexDatetime zone (attr (tradeAttrs elem) "tradeDate") with
      | error e =>
        exact iff_of_false (by rintro ⟨o, ho⟩; cases ho) (by rintro ⟨_, r, hr⟩; cases hr)
      | ok r => exact iff_of_true ⟨_, rfl⟩ ⟨⟨_, rfl⟩, _, rfl⟩

theorem tradeTime_none_iff {zone : Zone} {elem : Element} {o : Option ℤ}
    (h : tradeTime zone (tradeAttrs elem) = .ok o) :
    o = none ↔ localReading (attr (tradeAttrs elem) "dateTime") = none ∧
      localReading (attr (tradeAttrs elem) "tradeDate") = none := by
  have hstrip := strip_attr elem "dateTime"
  have hstrip' := strip_attr elem "tradeDate"
  unfold tradeTime at h
  cases hread : parseFlexDatetime zone (attr (tradeAttrs elem) "dateTime") with
  | error e =>
    rw [hread] at h
    cases h
  | ok r =>
    have hnone := parseFlexDatetime_reading hread
    rw [hstrip] at hnone
    rw [hread] at h
    obtain ⟨_ | t, b⟩ := r
    · simp only at h
      cases hread' : parseFlexDatetime zone (attr (tradeAttrs elem) "tradeDate") with
      | error e =>
        rw [hread'] at h
        cases h
      | ok r' =>
        have hnone' := parseFlexDatetime_reading hread'
        rw [hstrip'] at hnone'
        rw [hread'] at h
        cases h
        rw [hnone', and_iff_right (hnone.mp rfl)]
    · cases h
      refine iff_of_false nofun ?_
      rintro ⟨hno, _⟩
      cases hnone.mpr hno

/-- An element with a time and an account at hand. -/
theorem tradeRow_of_time {zone : Zone} {acct : String} {elem : Element} {time : Option ℤ}
    (h : tradeTime zone (tradeAttrs elem) = .ok time) :
    (¬ Kept acct elem → tradeRow zone acct elem = .ok none) ∧
      (Kept acct elem → ∀ o, tradeRow zone acct elem = .ok o ↔
        ∃ orderId conid underlyingConid,
          digitsInt (orderIdText (tradeAttrs elem)) = .ok orderId ∧
          digitsInt (attr (tradeAttrs elem) "conid") = .ok conid ∧
          digitsInt (attr (tradeAttrs elem) "underlyingConid") = .ok underlyingConid ∧
          some (tradeOf (tradeAccount acct elem) time orderId conid underlyingConid
            (tradeAttrs elem)) = o) := by
  have hkept : Kept acct elem ↔ ¬ (time = none ∧ tradeAccount acct elem = "") := by
    rw [tradeTime_none_iff h, not_and_or, not_and_or]
    exact or_comm
  unfold tradeRow
  simp only [h]
  rw [hkept]
  generalize tradeOf (tradeAccount acct elem) time = row
  by_cases hdropped : time = none ∧ tradeAccount acct elem = ""
  · rw [if_pos hdropped]
    exact ⟨fun _ => rfl, fun hrow => absurd hdropped hrow⟩
  · rw [if_neg hdropped]
    refine ⟨fun h => absurd hdropped h, fun _ o => ?_⟩
    unfold orderIdText
    generalize digitsInt ((orNone (attr (tradeAttrs elem) "ibOrderID")).getD
      (attr (tradeAttrs elem) "orderID")) = a
    generalize digitsInt (attr (tradeAttrs elem) "conid") = b
    generalize digitsInt (attr (tradeAttrs elem) "underlyingConid") = c
    cases a <;> cases b <;> cases c <;> simp

theorem tradeRow_ok_iff {zone : Zone} {acct : String} {elem : Element} :
    (∃ o, tradeRow zone acct elem = .ok o) ↔ TradeReadable zone acct elem := by
  cases htime : tradeTime zone (tradeAttrs elem) with
  | error e =>
    refine iff_of_false ?_ ?_
    · rintro ⟨o, ho⟩
      unfold tradeRow at ho
      simp only [htime] at ho
      cases ho
    · rintro ⟨hdateTime, htradeDate, _⟩
      obtain ⟨o, ho⟩ := tradeTime_ok_iff.mpr ⟨hdateTime, htradeDate⟩
      rw [htime] at ho
      cases ho
  | ok time =>
    obtain ⟨hdateTime, htradeDate⟩ := tradeTime_ok_iff.mp ⟨time, htime⟩
    obtain ⟨hdropped, hrow⟩ := @tradeRow_of_time zone acct elem time htime
    by_cases hkept : Kept acct elem
    · have hconid := strip_attr elem "conid"
      have hunderlying := strip_attr elem "underlyingConid"
      constructor
      · rintro ⟨o, ho⟩
        obtain ⟨orderId, conid, underlyingConid, h₁, h₂, h₃, _⟩ := (hrow hkept o).mp ho
        refine ⟨hdateTime, htradeDate, fun _ => ?_⟩
        simp only [List.mem_cons, List.not_mem_nil, or_false, forall_eq_or_imp, forall_eq]
        exact ⟨(digitsInt_ok_iff (strip_orderIdText elem)).mp ⟨_, h₁⟩,
          (digitsInt_ok_iff hconid).mp ⟨_, h₂⟩, (digitsInt_ok_iff hunderlying).mp ⟨_, h₃⟩⟩
      · rintro ⟨_, _, hnumbers⟩
        have hall := hnumbers hkept
        simp only [List.mem_cons, List.not_mem_nil, or_false, forall_eq_or_imp, forall_eq] at hall
        obtain ⟨orderId, h₁⟩ := (digitsInt_ok_iff (strip_orderIdText elem)).mpr hall.1
        obtain ⟨conid, h₂⟩ := (digitsInt_ok_iff hconid).mpr hall.2.1
        obtain ⟨underlyingConid, h₃⟩ := (digitsInt_ok_iff hunderlying).mpr hall.2.2
        exact ⟨_, (hrow hkept _).mpr ⟨orderId, conid, underlyingConid, h₁, h₂, h₃, rfl⟩⟩
    · exact iff_of_true ⟨none, hdropped hkept⟩ ⟨hdateTime, htradeDate, fun h => absurd h hkept⟩

/-- A readable element leaves a row if and only if it has an account or a time. -/
theorem tradeRow_some_iff {zone : Zone} {acct : String} {elem : Element}
    (h : TradeReadable zone acct elem) :
    (∃ row, tradeRow zone acct elem = .ok (some row)) ↔ Kept acct elem := by
  obtain ⟨time, htime⟩ := tradeTime_ok_iff.mpr ⟨h.dateTime, h.tradeDate⟩
  obtain ⟨hdropped, hrow⟩ := @tradeRow_of_time zone acct elem time htime
  obtain ⟨o, ho⟩ := tradeRow_ok_iff.mpr h
  by_cases hkept : Kept acct elem
  · obtain ⟨_, _, _, _, _, _, hsome⟩ := (hrow hkept o).mp ho
    subst hsome
    exact iff_of_true ⟨_, ho⟩ hkept
  · refine iff_of_false ?_ hkept
    rintro ⟨row, hsome⟩
    rw [hdropped hkept] at hsome
    cases hsome

/-- What an element raises is not the refusal of a cash report. -/
theorem tradeRow_error {zone : Zone} {acct : String} {elem : Element} {e : PyExc}
    (h : tradeRow zone acct elem = .error e) : e ≠ .valueError cashReportMsg := by
  have hcash : cashReportMsg.toList.head? = some 'F' := by
    unfold cashReportMsg
    simp
  have hdigits : ∀ s e, digitsInt s = .error e → e ≠ .valueError cashReportMsg := by
    rintro s e hs rfl
    unfold digitsInt at hs
    split at hs
    · cases hint : pyInt s with
      | ok n =>
        rw [hint] at hs
        cases hs
      | error e =>
        rw [hint] at hs
        cases hs
        obtain ⟨msg, heq, hhead⟩ := pyInt_error hint
        rw [PyExc.valueError.injEq] at heq
        rw [← heq] at hhead
        exact hhead hcash
    · cases hs
  have hdate : ∀ raw e, parseFlexDatetime zone raw = .error e → e ≠ .valueError cashReportMsg := by
    intro raw e hraw
    rw [parseFlexDatetime_error hraw]
    exact nofun
  cases htime : tradeTime zone (tradeAttrs elem) with
  | error e' =>
    unfold tradeRow at h
    simp only [htime] at h
    cases h
    unfold tradeTime at htime
    split at htime
    · rename_i hraw
      cases htime
      exact hdate _ _ hraw
    · cases htime
    · cases hraw : parseFlexDatetime zone (attr (tradeAttrs elem) "tradeDate") with
      | ok r =>
        rw [hraw] at htime
        cases htime
      | error e' =>
        rw [hraw] at htime
        cases htime
        exact hdate _ _ hraw
  | ok time =>
    unfold tradeRow at h
    simp only [htime] at h
    split at h
    · cases h
    · split at h
      · rename_i hs
        cases h
        exact hdigits _ _ hs
      · rename_i hs
        cases h
        exact hdigits _ _ hs
      · rename_i hs
        cases h
        exact hdigits _ _ hs
      · cases h

/-! ## The report -/

theorem mapM_ok_iff {α β : Type} {f : α → Except PyExc β} {xs : List α} :
    (∃ ys, xs.mapM f = .ok ys) ↔ ∀ x ∈ xs, ∃ y, f x = .ok y := by
  refine ⟨fun ⟨ys, h⟩ => mapM_ok h, ?_⟩
  intro hall
  induction xs with
  | nil => exact ⟨[], rfl⟩
  | cons x xs ih =>
    obtain ⟨y, hy⟩ := hall x List.mem_cons_self
    obtain ⟨ys, hys⟩ := ih fun z hz => hall z (List.mem_cons_of_mem _ hz)
    exact ⟨y :: ys, by rw [List.mapM_cons, hy, hys]; rfl⟩

theorem mapM_error {α β : Type} {f : α → Except PyExc β} {xs : List α} {e : PyExc}
    (h : xs.mapM f = .error e) : ∃ x ∈ xs, f x = .error e := by
  induction xs with
  | nil => cases h
  | cons x xs ih =>
    rw [List.mapM_cons] at h
    cases hx : f x with
    | error e' =>
      rw [hx] at h
      cases h
      exact ⟨x, List.mem_cons_self, hx⟩
    | ok y =>
      cases hxs : xs.mapM f with
      | error e' =>
        rw [hx, hxs] at h
        cases h
        obtain ⟨z, hz, hfz⟩ := ih hxs
        exact ⟨z, List.mem_cons_of_mem _ hz, hfz⟩
      | ok ys =>
        rw [hx, hxs] at h
        cases h

/-- Every `Trade` of a report can be read. -/
def AllReadable (zone : Zone) (root : Element) : Prop :=
  ∀ elem ∈ root.iter, isTrade elem = true → TradeReadable zone (reportAccountId root) elem

theorem allReadable_iff {zone : Zone} {root : Element} :
    (∃ os, (root.iter.filter isTrade).mapM (tradeRow zone (reportAccountId root)) = .ok os) ↔
      AllReadable zone root := by
  rw [mapM_ok_iff]
  simp only [List.mem_filter, and_imp, tradeRow_ok_iff]
  exact Iff.rfl

theorem parseTradesXml_answers_iff {flex : FlexService} {zone : Zone} {body : String}
    {root : Element} (hroot : flex.fromstring body = .ok root) :
    (∃ rows, parseTradesXml flex zone body = .ok rows) ∨
        parseTradesXml flex zone body = .error (.valueError cashReportMsg) ↔
      AllReadable zone root := by
  rw [← allReadable_iff]
  unfold parseTradesXml
  simp only [hroot]
  cases hrows : (root.iter.filter isTrade).mapM (tradeRow zone (reportAccountId root)) with
  | error e =>
    obtain ⟨elem, _, helem⟩ := mapM_error hrows
    refine iff_of_false ?_ (by rintro ⟨os, hos⟩; cases hos)
    rintro (⟨rows, hok⟩ | herror)
    · cases hok
    · exact tradeRow_error helem (Except.error.inj herror)
  | ok os =>
    refine iff_of_true ?_ ⟨os, rfl⟩
    simp only
    split
    · exact Or.inr rfl
    · exact Or.inl ⟨_, rfl⟩

/-- **An odd attribute.**  `parse_flex_datetime` answers if and only if the reading it finds, if
any, names an instant of the calendar; `parse_trades_xml` returns, or refuses a cash report, if and
only if every `Trade` can be read. -/
theorem odd_attribute_iff (flex : FlexService) (zone : Zone) :
    (∀ raw, (∃ r, parseFlexDatetime zone raw = .ok r) ↔ NamesInstant zone raw) ∧
    ∀ body, ((∃ rows, parseTradesXml flex zone body = .ok rows) ∨
        parseTradesXml flex zone body = .error (.valueError cashReportMsg)) ↔
      ∀ root, flex.fromstring body = .ok root → AllReadable zone root := by
  refine ⟨fun raw => parseFlexDatetime_ok_iff, fun body => ?_⟩
  cases hroot : flex.fromstring body with
  | error e =>
    refine iff_of_true (Or.inl ⟨[], ?_⟩) (by intro root h; cases h)
    unfold parseTradesXml
    rw [hroot]
  | ok root =>
    rw [parseTradesXml_answers_iff hroot]
    simp only [Except.ok.injEq, forall_eq']

/-- Two trades; a superscript two is a digit to `isdigit` and none to `int`. -/
def superscriptReport : Element :=
  .mk "Trades" [] none
    [.mk "Trade" [("accountId", "U111"), ("conid", "4815747")] none [],
      .mk "Trade" [("accountId", "U111"), ("conid", "²")] none []]

def superscriptBody : String :=
  "<Trades><Trade accountId='U111' conid='4815747'/><Trade accountId='U111' conid='²'/></Trades>"

/-- It stops the batch; and the last second of the calendar in New York is past the end of it. -/
theorem superscript_stops_batch :
    parseTradesXml ⟨fun _ _ => .body "", fun _ => .ok superscriptReport⟩ newYork2026 superscriptBody =
      .error (.valueError "invalid literal for int() with base 10: '²'") ∧
    (¬ ((∃ rows, parseTradesXml ⟨fun _ _ => .body "", fun _ => .ok superscriptReport⟩ newYork2026
        superscriptBody = .ok rows) ∨
      parseTradesXml ⟨fun _ _ => .body "", fun _ => .ok superscriptReport⟩ newYork2026
        superscriptBody = .error (.valueError cashReportMsg))) ∧
    parseFlexDatetime newYork2026 "99991231;235959" = .error Date.overflowError := by
  have hstop : parseTradesXml ⟨fun _ _ => .body "", fun _ => .ok superscriptReport⟩ newYork2026
      superscriptBody = .error (.valueError "invalid literal for int() with base 10: '²'") := by
    rfl
  refine ⟨hstop, ?_, by decide +kernel⟩
  rw [hstop]
  rintro (⟨rows, hrows⟩ | hcash)
  · cases hrows
  · rw [Except.error.injEq, PyExc.valueError.injEq] at hcash
    revert hcash
    decide

end FlexQuery
