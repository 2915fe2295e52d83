import FlexQuery.Library.Calendar
import FlexQuery.Python.Base

/-!
# `datetime.date`

A `Date` is a day number between `date.min` and `date.max`; the bounds are fields, so date
arithmetic that leaves the calendar has no value but an `OverflowError`.

* `Date.addDays` — `d + timedelta(days=n)`; `addDays_eq_ok` says when it succeeds.
* `strftimeYmd`, `strptimeYmd` — the format `%Y%m%d`.  Reading follows the pattern Python builds
  from the format: four digits, then a one- or two-digit month, then a one- or two-digit day.
* `strptimeYmd_strftimeYmd` — reading a formatted date gives the date back.
-/

set_option autoImplicit false

namespace FlexQuery

open Calendar

/-- `datetime.date`, by `date.toordinal()`; `3652059` is 9999-12-31. -/
structure Date where
  ord : ℤ
  one_le : 1 ≤ ord
  le_max : ord ≤ 3652059
  deriving DecidableEq, Repr

namespace Date

theorem ord_injective : Function.Injective Date.ord := by
  rintro ⟨a, _, _⟩ ⟨b, _, _⟩ h
  cases h
  rfl

instance : LinearOrder Date := LinearOrder.lift' Date.ord ord_injective

theorem le_iff {a b : Date} : a ≤ b ↔ a.ord ≤ b.ord := Iff.rfl

theorem lt_iff {a b : Date} : a < b ↔ a.ord < b.ord := Iff.rfl

theorem ext_ord {a b : Date} (h : a.ord = b.ord) : a = b := ord_injective h

theorem min_ord (a b : Date) : (min a b).ord = min a.ord b.ord := by
  rcases le_total a b with h | h
  · rw [min_eq_left h, min_eq_left (le_iff.mp h)]
  · rw [min_eq_right h, min_eq_right (le_iff.mp h)]

def overflowError : PyExc := .other "OverflowError" "date value out of range"

/-- `d + timedelta(days=n)`. -/
def addDays (d : Date) (n : ℤ) : Except PyExc Date :=
  if h : 1 ≤ d.ord + n ∧ d.ord + n ≤ 3652059 then .ok ⟨d.ord + n, h.1, h.2⟩
  else .error overflowError

theorem addDays_eq_ok {d e : Date} {n : ℤ} : d.addDays n = .ok e ↔ e.ord = d.ord + n := by
  unfold addDays
  constructor
  · intro h
    split at h
    · cases h; rfl
    · cases h
  · intro h
    rw [dif_pos ⟨h ▸ e.one_le, h ▸ e.le_max⟩]
    exact congrArg _ (ext_ord h.symm)

theorem addDays_isOk {d : Date} {n : ℤ} (h₁ : 1 ≤ d.ord + n) (h₂ : d.ord + n ≤ 3652059) :
    ∃ e, d.addDays n = .ok e ∧ e.ord = d.ord + n :=
  ⟨⟨d.ord + n, h₁, h₂⟩, addDays_eq_ok.mpr rfl, rfl⟩

/-! The ordinals of 2026-09-02 and 2026-09-04 are in the calendar. -/

theorem one_le_september2 : (1 : ℤ) ≤ 739861 := by decide

theorem september2_le_max : (739861 : ℤ) ≤ 3652059 := by decide

theorem one_le_september4 : (1 : ℤ) ≤ 739863 := by decide

theorem september4_le_max : (739863 : ℤ) ≤ 3652059 := by decide

/-- `(a - b).days`. -/
def daysSince (a b : Date) : ℤ := a.ord - b.ord

def civil (d : Date) : Civil := ofOrdinal d.ord.toNat

/-- `date(year, month, day)`. -/
def ofCivil (c : Civil) : Except PyExc Date :=
  if h : c.Valid ∧ c.year ≤ 9999 then
    .ok ⟨toOrdinal c, by exact_mod_cast toOrdinal_pos h.1, by exact_mod_cast toOrdinal_le h.1 h.2⟩
  else .error (.valueError "day is out of range for month")

theorem civil_valid (d : Date) : d.civil.Valid ∧ d.civil.year ≤ 9999 := by
  have h₁ := d.one_le
  have h₂ := d.le_max
  exact ⟨ofOrdinal_valid (by omega), year_ofOrdinal_le (by omega)⟩

theorem ofCivil_civil (d : Date) : ofCivil d.civil = .ok d := by
  have h₁ := d.one_le
  unfold ofCivil
  rw [dif_pos d.civil_valid]
  congr 1
  apply ext_ord
  show ((toOrdinal (ofOrdinal d.ord.toNat) : ℕ) : ℤ) = d.ord
  rw [toOrdinal_ofOrdinal (by omega)]
  omega

end Date

/-! ## `%Y%m%d` -/

def twoDigits (n : ℕ) : List Char := [Nat.digitChar (n / 10), Nat.digitChar (n % 10)]

def fourDigits (n : ℕ) : List Char :=
  [Nat.digitChar (n / 1000), Nat.digitChar (n / 100 % 10), Nat.digitChar (n / 10 % 10),
    Nat.digitChar (n % 10)]

/-- `d.strftime("%Y%m%d")`. -/
def strftimeYmd (d : Date) : String :=
  String.ofList (fourDigits d.civil.year ++ (twoDigits d.civil.month ++ twoDigits d.civil.day))

/-- `d.isoformat()`. -/
def isoformat (c : Civil) : String :=
  String.ofList (fourDigits c.year ++ '-' :: (twoDigits c.month ++ '-' :: twoDigits c.day))

/-- `%Y`, as `\d\d\d\d`. -/
def matchYear : List Char → Option (ℕ × List Char)
  | a :: b :: c :: d :: rest =>
    match digitValue a, digitValue b, digitValue c, digitValue d with
    | some a, some b, some c, some d => some (1000 * a + 100 * b + 10 * c + d, rest)
    | _, _, _, _ => none
  | _ => none

/-- `[1-9]`. -/
def nonzeroDigit (c : Char) : Option ℕ :=
  if '1' ≤ c ∧ c ≤ '9' then some (c.toNat - 48) else none

/-- The ways `%m`, `1[0-2]|0[1-9]|[1-9]`, matches a prefix, in the order they are tried. -/
def monthMatches : List Char → List (ℕ × List Char)
  | [] => []
  | a :: rest =>
    (match a, rest with
      | '1', b :: t => if '0' ≤ b ∧ b ≤ '2' then [(10 + (b.toNat - 48), t)] else []
      | '0', b :: t => ((nonzeroDigit b).map (·, t)).toList
      | _, _ => []) ++
    ((nonzeroDigit a).map (·, rest)).toList

/-- The ways `%d`, `3[0-1]|[1-2]\d|0[1-9]|[1-9]| [1-9]`, matches a prefix, in order. -/
def dayMatches : List Char → List (ℕ × List Char)
  | [] => []
  | a :: rest =>
    (match a, rest with
      | '3', b :: t => if '0' ≤ b ∧ b ≤ '1' then [(30 + (b.toNat - 48), t)] else []
      | '1', b :: t => ((digitValue b).map (10 + ·, t)).toList
      | '2', b :: t => ((digitValue b).map (20 + ·, t)).toList
      | '0', b :: t => ((nonzeroDigit b).map (·, t)).toList
      | _, _ => []) ++
    ((nonzeroDigit a).map (·, rest)).toList ++
    (match a, rest with
      | ' ', b :: t => ((nonzeroDigit b).map (·, t)).toList
      | _, _ => [])

/-- The first match of `%m%d`. -/
def matchMonthDay (s : List Char) : Option (ℕ × ℕ × List Char) :=
  (monthMatches s).findSome? fun m => (dayMatches m.2).head?.map fun d => (m.1, d.1, d.2)

/-- `datetime.strptime(s, "%Y%m%d").date()`. -/
def strptimeYmd (s : String) : Except PyExc Date :=
  match matchYear s.toList with
  | none => .error (.valueError ("time data '" ++ s ++ "' does not match format '%Y%m%d'"))
  | some (y, rest) =>
    match matchMonthDay rest with
    | none => .error (.valueError ("time data '" ++ s ++ "' does not match format '%Y%m%d'"))
    | some (m, d, []) => Date.ofCivil ⟨y, m, d⟩
    | some (_, _, rest) => .error (.valueError ("unconverted data remains: " ++ String.ofList rest))

theorem matchYear_fourDigits {n : ℕ} (h : n ≤ 9999) (t : List Char) :
    matchYear (fourDigits n ++ t) = some (n, t) := by
  simp only [fourDigits, List.cons_append, List.nil_append, matchYear,
    digitValue_digitChar (n / 1000) (by omega), digitValue_digitChar (n / 100 % 10) (by omega),
    digitValue_digitChar (n / 10 % 10) (by omega), digitValue_digitChar (n % 10) (by omega)]
  congr 2
  omega

theorem dayMatches_twoDigits {n : ℕ} (h₁ : 1 ≤ n) (h₂ : n ≤ 31) (t : List Char) :
    (dayMatches (twoDigits n ++ t)).head? = some (n, t) := by
  interval_cases n <;> rfl

theorem monthMatches_twoDigits {n : ℕ} (h₁ : 1 ≤ n) (h₂ : n ≤ 12) (t : List Char) :
    (monthMatches (twoDigits n ++ t)).head? = some (n, t) := by
  interval_cases n <;> rfl

theorem matchMonthDay_twoDigits {m d : ℕ} (hm : 1 ≤ m ∧ m ≤ 12) (hd : 1 ≤ d ∧ d ≤ 31) :
    matchMonthDay (twoDigits m ++ twoDigits d) = some (m, d, []) := by
  have hmonth := monthMatches_twoDigits hm.1 hm.2 (twoDigits d)
  have hday := dayMatches_twoDigits hd.1 hd.2 []
  rw [List.append_nil] at hday
  unfold matchMonthDay
  cases hl : monthMatches (twoDigits m ++ twoDigits d) with
  | nil => rw [hl] at hmonth; cases hmonth
  | cons x xs =>
    rw [hl] at hmonth
    simp only [List.head?_cons, Option.some.injEq] at hmonth
    subst hmonth
    simp [hday]

theorem daysInMonth_le : ∀ (leap : Bool), ∀ m < 13, daysInMonth leap m ≤ 31 := by decide

/-- **Round trip** of `%Y%m%d`. -/
theorem strptimeYmd_strftimeYmd (d : Date) : strptimeYmd (strftimeYmd d) = .ok d := by
  obtain ⟨⟨_, h₂, h₃, h₄, h₅⟩, hy⟩ := d.civil_valid
  have hday : d.civil.day ≤ 31 :=
    h₅.trans (daysInMonth_le (isLeap d.civil.year) d.civil.month (by omega))
  unfold strptimeYmd strftimeYmd
  rw [String.toList_ofList, matchYear_fourDigits hy]
  simp only [matchMonthDay_twoDigits ⟨h₂, h₃⟩ ⟨h₄, hday⟩]
  exact d.ofCivil_civil

/-- A text read as `d` is the format of no other day. -/
theorem eq_of_strftimeYmd {a d : Date} {s : String} (hs : strptimeYmd s = .ok d)
    (h : s = strftimeYmd a) : a = d := by
  rw [h, strptimeYmd_strftimeYmd] at hs
  exact Except.ok.inj hs

theorem strftimeYmd_length (d : Date) : (strftimeYmd d).toList.length = 8 := by
  simp [strftimeYmd, fourDigits, twoDigits]

theorem isSpace_digitChar : ∀ n < 10, isSpace (Nat.digitChar n) = false := by decide

/-- A formatted date has no blank at either end and eight characters, so `strip()[:8]` keeps
it. -/
theorem strip_strftimeYmd (d : Date) : strip (strftimeYmd d) = strftimeYmd d := by
  obtain ⟨_, hy⟩ := d.civil_valid
  have hfirst := isSpace_digitChar (d.civil.year / 1000) (by omega)
  have hlast := isSpace_digitChar (d.civil.day % 10) (by omega)
  unfold strip strftimeYmd
  rw [String.toList_ofList]
  simp [fourDigits, twoDigits, hfirst, hlast]

theorem slice_strftimeYmd (d : Date) : slice (strftimeYmd d) 8 = strftimeYmd d := by
  unfold slice
  rw [List.take_of_length_le (strftimeYmd_length d).le, String.ofList_toList]

theorem strftimeYmd_ne_empty (d : Date) : strftimeYmd d ≠ "" := by
  intro h
  have := strftimeYmd_length d
  rw [h] at this
  simp at this

theorem given_strftimeYmd (d : Date) : given (some (strftimeYmd d)) = true := by
  simp [given, strftimeYmd_ne_empty]

example : (strptimeYmd "2026110").toOption.map Date.civil = some ⟨2026, 1, 10⟩ := by decide

end FlexQuery
