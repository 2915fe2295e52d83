import Mathlib

/-!
# The proleptic Gregorian calendar

Days are counted from 0001-01-01, which is day 1.

* `toOrdinal` — the day number of a year, month and day.
* `ofOrdinal` — the civil date of a day number, by 400-, 100-, 4- and 1-year cycles.
* `ofOrdinal_valid` — the result is a date of the calendar.
* `toOrdinal_ofOrdinal` — reading a day number as a date and back is the identity.
* `ofOrdinal_toOrdinal` — and so is reading a date as a day number and back.
* `toOrdinal_pos`, `toOrdinal_le` — the day numbers of the years 1 to 9999.
-/

set_option autoImplicit false

namespace Calendar

/-- A civil date. -/
structure Civil where
  year : ℕ
  month : ℕ
  day : ℕ
  deriving DecidableEq, Repr

def isLeap (y : ℕ) : Bool := y % 4 = 0 && (y % 100 ≠ 0 || y % 400 = 0)

/-- The lengths of the months. -/
def monthLengths (leap : Bool) : List ℕ :=
  [31, if leap then 29 else 28, 31, 30, 31, 30, 31, 31, 30, 31, 30, 31]

/-- The length of month `m`; 0 outside 1 … 12. -/
def daysInMonth (leap : Bool) (m : ℕ) : ℕ :=
  if m = 0 then 0 else (monthLengths leap).getD (m - 1) 0

/-- The days of the year before month `m`. -/
def daysBeforeMonth (leap : Bool) (m : ℕ) : ℕ := ((monthLengths leap).take (m - 1)).sum

/-- The days before the first of January of year `y + 1`. -/
def daysBeforeYear (y : ℕ) : ℕ := y * 365 + y / 4 - y / 100 + y / 400

/-- The date exists. -/
def Civil.Valid (c : Civil) : Prop :=
  1 ≤ c.year ∧ 1 ≤ c.month ∧ c.month ≤ 12 ∧ 1 ≤ c.day ∧ c.day ≤ daysInMonth (isLeap c.year) c.month

instance (c : Civil) : Decidable c.Valid := by unfold Civil.Valid; exact inferInstance

def toOrdinal (c : Civil) : ℕ :=
  daysBeforeYear (c.year - 1) + daysBeforeMonth (isLeap c.year) c.month + c.day

/-- The month and day of the day of the year `r`, counted from 0. -/
def monthDay : List ℕ → ℕ → ℕ → ℕ × ℕ
  | [], m, r => (m, r + 1)
  | len :: rest, m, r => if r < len then (m, r + 1) else monthDay rest (m + 1) (r - len)

def ofOrdinal (n : ℕ) : Civil :=
  let n₀ := n - 1
  let n400 := n₀ / 146097
  let n₁ := n₀ % 146097
  let n100 := n₁ / 36524
  let n₂ := n₁ % 36524
  let n4 := n₂ / 1461
  let n₃ := n₂ % 1461
  let n1 := n₃ / 365
  let year := n400 * 400 + n100 * 100 + n4 * 4 + n1
  -- the last day of a leap year at the end of a 4- or 400-year cycle
  if n1 = 4 ∨ n100 = 4 then ⟨year, 12, 31⟩ else
  let md := monthDay (monthLengths (isLeap (year + 1))) 1 (n₃ % 365)
  ⟨year + 1, md.1, md.2⟩

/-! ## Within a year -/

theorem monthDay_spec : ∀ (leap : Bool) (r : Fin 365),
    let md := monthDay (monthLengths leap) 1 r
    1 ≤ md.1 ∧ md.1 ≤ 12 ∧ 1 ≤ md.2 ∧ md.2 ≤ daysInMonth leap md.1 ∧
      daysBeforeMonth leap md.1 + md.2 = r + 1 := by
  decide +kernel

theorem daysBeforeDecember (leap : Bool) :
    daysBeforeMonth leap 12 = if leap then 335 else 334 := by
  cases leap <;> rfl

/-! ## Across years -/

theorem isLeap_iff (y : ℕ) : isLeap y = true ↔ y % 4 = 0 ∧ (y % 100 ≠ 0 ∨ y % 400 = 0) := by
  simp [isLeap]

/-- The days before the year that ends the given cycles. -/
theorem daysBeforeYear_cycles {a b c d : ℕ} (hb : b ≤ 3) (hc : c ≤ 24) (hd : d ≤ 3) :
    daysBeforeYear (a * 400 + b * 100 + c * 4 + d) =
      a * 146097 + b * 36524 + c * 1461 + d * 365 := by
  unfold daysBeforeYear
  omega

theorem toOrdinal_ofOrdinal_valid {n : ℕ} (hn : 1 ≤ n) :
    (ofOrdinal n).Valid ∧ toOrdinal (ofOrdinal n) = n := by
  obtain ⟨a, ha⟩ : ∃ a, a = (n - 1) / 146097 := ⟨_, rfl⟩
  obtain ⟨b, hb⟩ : ∃ b, b = (n - 1) % 146097 / 36524 := ⟨_, rfl⟩
  obtain ⟨c, hc⟩ : ∃ c, c = (n - 1) % 146097 % 36524 / 1461 := ⟨_, rfl⟩
  obtain ⟨d, hd⟩ : ∃ d, d = (n - 1) % 146097 % 36524 % 1461 / 365 := ⟨_, rfl⟩
  obtain ⟨r, hr⟩ : ∃ r, r = (n - 1) % 146097 % 36524 % 1461 % 365 := ⟨_, rfl⟩
  have hsum : n = a * 146097 + b * 36524 + c * 1461 + d * 365 + r + 1 := by omega
  have hrange : b ≤ 4 ∧ c ≤ 24 ∧ d ≤ 4 ∧ r < 365 := by omega
  have hcentury : b = 4 → c = 0 ∧ d = 0 ∧ r = 0 := by omega
  have holympiad : d = 4 → b ≤ 3 ∧ c ≤ 23 ∧ r = 0 := by omega
  unfold ofOrdinal
  simp only [← ha, ← hb, ← hc, ← hd, ← hr]
  clear ha hb hc hd hr
  split
  · rename_i hend
    -- day 366 of the leap year that ends the cycle
    obtain ⟨y, hy⟩ : ∃ y, y = a * 400 + b * 100 + c * 4 + d := ⟨_, rfl⟩
    have hleap : isLeap y = true := (isLeap_iff y).mpr (by omega)
    have hbefore : daysBeforeYear (y - 1) + 366 = n := by
      rcases hend with hd | hb
      · obtain ⟨hb, hc, hr⟩ := holympiad hd
        rw [show y - 1 = a * 400 + b * 100 + c * 4 + 3 by omega,
          daysBeforeYear_cycles hb (by omega) (Nat.le_refl 3)]
        omega
      · obtain ⟨hc, hd, hr⟩ := hcentury hb
        rw [show y - 1 = a * 400 + 3 * 100 + 24 * 4 + 3 by omega,
          daysBeforeYear_cycles (Nat.le_refl 3) (Nat.le_refl 24) (Nat.le_refl 3)]
        omega
    rw [← hy]
    constructor
    · simp only [Civil.Valid, hleap]
      exact ⟨by omega, by decide, by decide, by decide, by decide⟩
    · simp only [toOrdinal, hleap, daysBeforeDecember, if_true]
      omega
  · rename_i hmid
    obtain ⟨h₁, h₂, h₃, h₄, h₅⟩ :=
      monthDay_spec (isLeap (a * 400 + b * 100 + c * 4 + d + 1)) ⟨r, hrange.2.2.2⟩
    refine ⟨⟨Nat.le_add_left 1 _, h₁, h₂, h₃, h₄⟩, ?_⟩
    simp only [toOrdinal, Nat.add_sub_cancel]
    rw [daysBeforeYear_cycles (by omega) (by omega) (by omega)]
    simp only at h₅
    omega

theorem ofOrdinal_valid {n : ℕ} (hn : 1 ≤ n) : (ofOrdinal n).Valid :=
  (toOrdinal_ofOrdinal_valid hn).1

/-- **Round trip** of a day number. -/
theorem toOrdinal_ofOrdinal {n : ℕ} (hn : 1 ≤ n) : toOrdinal (ofOrdinal n) = n :=
  (toOrdinal_ofOrdinal_valid hn).2

theorem year_ofOrdinal_le {n : ℕ} (h : n ≤ 3652059) : (ofOrdinal n).year ≤ 9999 := by
  unfold ofOrdinal
  dsimp only
  split
  · dsimp only
    omega
  · dsimp only
    omega

theorem monthEnd_le : ∀ (leap : Bool), ∀ m < 13, 1 ≤ m →
    daysBeforeMonth leap m + daysInMonth leap m ≤ if leap then 366 else 365 := by decide

/-- No date up to the year 9999 lies beyond its last day. -/
theorem toOrdinal_le {c : Civil} (h : c.Valid) (hy : c.year ≤ 9999) : toOrdinal c ≤ 3652059 := by
  obtain ⟨h₁, h₂, h₃, _, h₅⟩ := h
  have hend := monthEnd_le (isLeap c.year) c.month (by omega) h₂
  unfold toOrdinal
  cases hleap : isLeap c.year with
  | false =>
    rw [hleap] at h₅ hend
    simp only [Bool.false_eq_true, if_false] at hend
    unfold daysBeforeYear
    omega
  | true =>
    rw [hleap] at h₅ hend
    have hfour := ((isLeap_iff _).mp hleap).1
    simp only [if_true] at hend
    unfold daysBeforeYear
    omega

theorem toOrdinal_pos {c : Civil} (h : c.Valid) : 1 ≤ toOrdinal c := by
  have := h.2.2.2.1
  unfold toOrdinal
  omega

/-! ## Back from a date -/

theorem daysBeforeYear_mono : Monotone daysBeforeYear := by
  apply monotone_nat_of_le_succ
  intro y
  unfold daysBeforeYear
  omega

theorem daysBeforeMonth_next : ∀ (leap : Bool), ∀ m < 13, ∀ m' < 13, 1 ≤ m → m < m' →
    daysBeforeMonth leap m + daysInMonth leap m ≤ daysBeforeMonth leap m' := by decide

/-- The days of a year lie between its ends. -/
theorem toOrdinal_year {c : Civil} (h : c.Valid) :
    daysBeforeYear (c.year - 1) < toOrdinal c ∧ toOrdinal c ≤ daysBeforeYear c.year := by
  obtain ⟨h₁, h₂, h₃, h₄, h₅⟩ := h
  have hend := monthEnd_le (isLeap c.year) c.month (by omega) h₂
  unfold toOrdinal
  refine ⟨by omega, ?_⟩
  cases hleap : isLeap c.year with
  | false =>
    rw [hleap] at h₅ hend
    simp only [Bool.false_eq_true, if_false] at hend
    unfold daysBeforeYear
    omega
  | true =>
    rw [hleap] at h₅ hend
    have hcycle := (isLeap_iff _).mp hleap
    simp only [if_true] at hend
    unfold daysBeforeYear
    omega

/-- Different dates have different day numbers. -/
theorem toOrdinal_injective {a b : Civil} (ha : a.Valid) (hb : b.Valid)
    (h : toOrdinal a = toOrdinal b) : a = b := by
  have hyear : ∀ {a b : Civil}, a.Valid → b.Valid → toOrdinal a = toOrdinal b →
      ¬ a.year < b.year := by
    intro a b ha hb h hlt
    have hmono := @daysBeforeYear_mono a.year (b.year - 1) (by omega)
    have hafter := (toOrdinal_year ha).2
    have hbefore := (toOrdinal_year hb).1
    omega
  have hsame : a.year = b.year :=
    le_antisymm (not_lt.mp (hyear hb ha h.symm)) (not_lt.mp (hyear ha hb h))
  obtain ⟨y, m, d⟩ := a
  obtain ⟨y', m', d'⟩ := b
  obtain rfl : y = y' := hsame
  obtain ⟨_, ha₂, ha₃, ha₄, ha₅⟩ := ha
  obtain ⟨_, hb₂, hb₃, hb₄, hb₅⟩ := hb
  simp only at *
  simp only [toOrdinal] at h
  rcases lt_trichotomy m m' with hlt | rfl | hlt
  · have := daysBeforeMonth_next (isLeap y) m (by omega) m' (by omega) ha₂ hlt
    omega
  · obtain rfl : d = d' := by omega
    rfl
  · have := daysBeforeMonth_next (isLeap y) m' (by omega) m (by omega) hb₂ hlt
    omega

/-- **Round trip** of a date. -/
theorem ofOrdinal_toOrdinal {c : Civil} (h : c.Valid) : ofOrdinal (toOrdinal c) = c :=
  toOrdinal_injective (ofOrdinal_valid (toOrdinal_pos h)) h
    (toOrdinal_ofOrdinal (toOrdinal_pos h))

example : ofOrdinal 739895 = ⟨2026, 10, 6⟩ := by decide

end Calendar
