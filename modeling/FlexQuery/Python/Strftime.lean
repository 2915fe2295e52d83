import FlexQuery.Python.DateTime

/-!
# `strftime`, and what `strptime` makes of a text

* `strftime` — a `datetime` under a format, for the years it writes with four digits.
* `strptime_strftime` — reading a text under the format that wrote it.
* `strptime_fits` — each character of a text is read by a directive, and each directive reads one.
* `strptime_compact` — fifteen characters read as `%Y%m%d;%H%M%S` begin with their date in eight.
-/

set_option autoImplicit false

namespace FlexQuery

open Calendar

namespace DateTime

def hour (d : DateTime) : ℕ := d.sec / 3600

def minute (d : DateTime) : ℕ := d.sec / 60 % 60

def second (d : DateTime) : ℕ := d.sec % 60

/-- A `datetime` is made of its fields. -/
theorem ofCivil_fields (d : DateTime) : ofCivil d.date.civil d.hour d.minute d.second = .ok d := by
  obtain ⟨date, sec, hlt⟩ := d
  have hfields : 3600 * (sec / 3600) + 60 * (sec / 60 % 60) + sec % 60 = sec := by omega
  have hrange : sec / 3600 < 24 ∧ sec / 60 % 60 < 60 ∧ sec % 60 < 60 := by omega
  unfold ofCivil hour minute second
  rw [Date.ofCivil_civil]
  simp [hfields, hrange]

theorem ofCivil_midnight (d : Date) : ofCivil d.civil 0 0 0 = .ok (midnight d) := by
  have h := ofCivil_fields (midnight d)
  simpa [midnight, hour, minute, second] using h

end DateTime

/-! ## Writing -/

namespace Directive

/-- The field a directive stands for. -/
def value : Directive → DateTime → ℕ
  | year, d => d.date.civil.year
  | month, d => d.date.civil.month
  | day, d => d.date.civil.day
  | hour, d => d.hour
  | minute, d => d.minute
  | second, d => d.second
  | lit _, _ => 0
  | blank, _ => 0

/-- What a directive writes. -/
def render (d : DateTime) : Directive → List Char
  | year => fourDigits d.date.civil.year
  | month => twoDigits d.date.civil.month
  | day => twoDigits d.date.civil.day
  | hour => twoDigits d.hour
  | minute => twoDigits d.minute
  | second => twoDigits d.second
  | lit c => [c]
  | blank => [' ']

/-- No blank can be taken for the beginning of what the directive writes. -/
def visible : Directive → Bool
  | lit c => !isSpace c
  | blank => false
  | _ => true

end Directive

/-- `d.strftime(fmt)`, for a year from 1000 on. -/
def strftime (fmt : List Directive) (d : DateTime) : String :=
  String.ofList (fmt.flatMap (Directive.render d))

/-- White space ends with something visible. -/
def delimited : List Directive → Bool
  | [] => true
  | .blank :: dir :: ds => dir.visible && delimited (dir :: ds)
  | [.blank] => false
  | _ :: ds => delimited ds

/-! ## One directive -/

theorem hourMatches_twoDigits {n : ℕ} (h : n < 24) (t : List Char) :
    (Directive.hour.matches (twoDigits n ++ t)).head? = some (n, t) := by
  interval_cases n <;> rfl

theorem minuteMatches_twoDigits {n : ℕ} (h : n < 60) (t : List Char) :
    (Directive.minute.matches (twoDigits n ++ t)).head? = some (n, t) := by
  interval_cases n <;> rfl

theorem secondMatches_twoDigits {n : ℕ} (h : n < 60) (t : List Char) :
    (Directive.second.matches (twoDigits n ++ t)).head? = some (n, t) := by
  interval_cases n <;> rfl

theorem blankMatches_visible {c : Char} {t : List Char} (hc : isSpace c = false) :
    blankMatches (' ' :: c :: t) = [c :: t] := by
  have hblank : isSpace ' ' = true := by decide
  simp [blankMatches, hblank, hc]

/-- What a directive writes is the first thing it reads. -/
theorem Directive.matches_render {dir : Directive} (hdir : dir ≠ .blank) (d : DateTime)
    (t : List Char) : (dir.matches (dir.render d ++ t)).head? = some (dir.value d, t) := by
  obtain ⟨⟨_, h₂, h₃, h₄, h₅⟩, hyear⟩ := d.date.civil_valid
  have hday : d.date.civil.day ≤ 31 := h₅.trans (daysInMonth_le _ _ (by omega))
  have hsec := d.sec_lt
  cases dir with
  | year => simp [Directive.matches, render, value, matchYear_fourDigits hyear]
  | month => exact monthMatches_twoDigits h₂ h₃ t
  | day => exact dayMatches_twoDigits h₄ hday t
  | hour => exact @hourMatches_twoDigits d.hour (by unfold DateTime.hour; omega) t
  | minute => exact @minuteMatches_twoDigits d.minute (by unfold DateTime.minute; omega) t
  | second => exact @secondMatches_twoDigits d.second (by unfold DateTime.second; omega) t
  | lit c => simp [Directive.matches, render, value]
  | blank => exact absurd rfl hdir

/-! ## What was written -/

/-- The ASCII digits. -/
def digitChars : List Char := (List.range 10).map Nat.digitChar

theorem digitChars_eq : digitChars = ['0', '1', '2', '3', '4', '5', '6', '7', '8', '9'] := rfl

theorem digitChar_mem {n : ℕ} (h : n < 10) : Nat.digitChar n ∈ digitChars :=
  List.mem_map_of_mem (List.mem_range.mpr h)

theorem twoDigits_digits {n : ℕ} (h : n < 100) : ∀ x ∈ twoDigits n, x ∈ digitChars := by
  simp only [twoDigits, List.mem_cons, List.not_mem_nil, or_false]
  rintro x (rfl | rfl) <;> exact digitChar_mem (by omega)

theorem fourDigits_digits {n : ℕ} (h : n ≤ 9999) : ∀ x ∈ fourDigits n, x ∈ digitChars := by
  simp only [fourDigits, List.mem_cons, List.not_mem_nil, or_false]
  rintro x (rfl | rfl | rfl | rfl) <;> exact digitChar_mem (by omega)

/-- What stands between the numbers. -/
def Directive.letter : Directive → Option Char
  | year => none
  | month => none
  | day => none
  | hour => none
  | minute => none
  | second => none
  | lit c => some c
  | blank => some ' '

/-- A directive writes a number in digits, or its letter. -/
theorem Directive.render_letters (dir : Directive) (d : DateTime) :
    (dir.letter = none ∧ ∀ x ∈ dir.render d, x ∈ digitChars) ∨
      ∃ c, dir.letter = some c ∧ dir.render d = [c] := by
  obtain ⟨⟨_, h₂, h₃, h₄, h₅⟩, hyear⟩ := d.date.civil_valid
  have hday : d.date.civil.day ≤ 31 := h₅.trans (daysInMonth_le _ _ (by omega))
  have hsec := d.sec_lt
  cases dir with
  | year => exact Or.inl ⟨rfl, fourDigits_digits hyear⟩
  | month => exact Or.inl ⟨rfl, twoDigits_digits (by omega)⟩
  | day => exact Or.inl ⟨rfl, twoDigits_digits (by omega)⟩
  | hour => exact Or.inl ⟨rfl, twoDigits_digits (by unfold DateTime.hour; omega)⟩
  | minute => exact Or.inl ⟨rfl, twoDigits_digits (by unfold DateTime.minute; omega)⟩
  | second => exact Or.inl ⟨rfl, twoDigits_digits (by unfold DateTime.second; omega)⟩
  | lit c => exact Or.inr ⟨c, rfl, rfl⟩
  | blank => exact Or.inr ⟨' ', rfl, rfl⟩

theorem Directive.render_ne_nil (dir : Directive) (d : DateTime) : dir.render d ≠ [] := by
  cases dir <;> simp [render, fourDigits, twoDigits]

/-- The characters a format writes. -/
def letters (fmt : List Directive) : List Char := digitChars ++ fmt.filterMap Directive.letter

theorem mem_strftime {fmt : List Directive} {d : DateTime} {x : Char}
    (hx : x ∈ (strftime fmt d).toList) : x ∈ letters fmt := by
  unfold strftime at hx
  rw [String.toList_ofList] at hx
  obtain ⟨dir, hdir, hx⟩ := List.mem_flatMap.mp hx
  rcases dir.render_letters d with ⟨_, hdigits⟩ | ⟨c, hletter, hrender⟩
  · exact List.mem_append_left _ (hdigits x hx)
  · rw [hrender, List.mem_singleton] at hx
    subst hx
    exact List.mem_append_right _ (List.mem_filterMap.mpr ⟨dir, hdir, hletter⟩)

theorem digitChars_visible : ∀ x ∈ digitChars, isSpace x = false := by
  intro x hx
  obtain ⟨n, hn, rfl⟩ := List.mem_map.mp hx
  exact isSpace_digitChar n (List.mem_range.mp hn)

/-- What a visible directive writes holds no blank. -/
theorem Directive.render_visible {dir : Directive} (h : dir.visible = true) (d : DateTime) :
    ∀ x ∈ dir.render d, isSpace x = false := by
  intro x hx
  rcases dir.render_letters d with ⟨_, hdigits⟩ | ⟨c, hletter, hrender⟩
  · exact digitChars_visible x (hdigits x hx)
  · rw [hrender, List.mem_singleton] at hx
    subst hx
    cases dir <;> cases hletter
    · exact (Bool.not_eq_true' _).mp h
    · cases h

/-- Nor does a text, written by visible directives. -/
theorem strftime_visible {fmt : List Directive} (h : ∀ dir ∈ fmt, dir.visible = true)
    (d : DateTime) : ∀ x ∈ (strftime fmt d).toList, isSpace x = false := by
  unfold strftime
  rw [String.toList_ofList]
  intro x hx
  obtain ⟨dir, hdir, hx⟩ := List.mem_flatMap.mp hx
  exact Directive.render_visible (h dir hdir) d x hx

/-! ## Reading what was written -/

/-- The fields that a format carries, as it leaves them. -/
def carried (fmt : List Directive) (d : DateTime) (r : Reading) : Reading :=
  fmt.foldl (fun r dir => dir.set (dir.value d) r) r

/-- The first match of a text that the format wrote leaves what follows it. -/
theorem matchFormat_render {fmt : List Directive} (h : delimited fmt = true) (d : DateTime)
    (r : Reading) (t : List Char) :
    (matchFormat fmt r (fmt.flatMap (Directive.render d) ++ t)).head? =
      some (carried fmt d r, t) := by
  induction fmt generalizing r with
  | nil => rfl
  | cons dir ds ih =>
    have hfirst : ∀ s n, (dir.matches s).head? = some (n, ds.flatMap (Directive.render d) ++ t) →
        delimited ds = true → dir.set n r = dir.set (dir.value d) r →
        (matchFormat (dir :: ds) r s).head? = some (carried (dir :: ds) d r, t) := by
      intro s n hhead hds hset
      have hrest := ih hds (dir.set n r)
      rw [matchFormat]
      cases hm : dir.matches s with
      | nil =>
        rw [hm] at hhead
        cases hhead
      | cons m ms =>
        rw [hm, List.head?_cons, Option.some.injEq] at hhead
        subst hhead
        rw [List.flatMap_cons, List.head?_append, hrest, hset]
        rfl
    rw [List.flatMap_cons, List.append_assoc]
    by_cases hblank : dir = .blank
    · subst hblank
      cases ds with
      | nil => cases h
      | cons next ds =>
        simp only [delimited, Bool.and_eq_true] at h
        obtain ⟨c, u, hc⟩ := List.exists_cons_of_ne_nil (next.render_ne_nil d)
        have hvis := Directive.render_visible h.1 d c (by rw [hc]; exact List.mem_cons_self)
        refine hfirst _ 0 ?_ h.2 rfl
        rw [List.flatMap_cons, hc]
        exact congrArg (fun l => (l.map fun rest => (0, rest)).head?) (blankMatches_visible hvis)
    · refine hfirst _ _ (Directive.matches_render hblank d _) ?_ rfl
      cases dir <;> first | exact h | exact absurd rfl hblank

/-- **Round trip** of a format that carries every field. -/
theorem strptime_strftime {fmt : List Directive} (h : delimited fmt = true) {d : DateTime}
    (hall : carried fmt d {} = ⟨d.date.civil.year, d.date.civil.month, d.date.civil.day, d.hour,
      d.minute, d.second⟩) (name : String) : strptime fmt name (strftime fmt d) = .ok d := by
  have hread := matchFormat_render h d {} []
  rw [List.append_nil] at hread
  unfold strptime strftime
  rw [String.toList_ofList, hread, hall]
  exact d.ofCivil_fields

/-- And of one that carries a date. -/
theorem strptime_strftime_date {fmt : List Directive} (h : delimited fmt = true) {d : DateTime}
    (hall : carried fmt d {} = ⟨d.date.civil.year, d.date.civil.month, d.date.civil.day, 0, 0, 0⟩)
    (name : String) : strptime fmt name (strftime fmt d) = .ok (DateTime.midnight d.date) := by
  have hread := matchFormat_render h d {} []
  rw [List.append_nil] at hread
  unfold strptime strftime
  rw [String.toList_ofList, hread, hall]
  exact DateTime.ofCivil_midnight d.date

/-! ## What a format can read -/

theorem digitValue_ascii {c : Char} (hlow : '0' ≤ c) (hhigh : c ≤ '9') :
    digitValue c = some (c.toNat - 48) := by
  have hl : 48 ≤ c.toNat := Char.le_def.mp hlow
  have hh : c.toNat ≤ 57 := Char.le_def.mp hhigh
  have hzero : (48 ≤ c.toNat && c.toNat < 48 + 10) = true := by
    simp only [Bool.and_eq_true, decide_eq_true_eq]
    omega
  simp [digitValue, decimalZeros, hzero]

theorem nonzeroDigit_some {c : Char} {n : ℕ} (h : nonzeroDigit c = some n) :
    digitValue c = some n := by
  unfold nonzeroDigit at h
  split at h
  · rename_i hc
    cases h
    exact digitValue_ascii (le_trans (by decide) hc.1) hc.2
  · cases h

/-- The characters a number is written with. -/
def isNumeral (x : Char) : Prop := (digitValue x).isSome = true ∨ x = ' '

/-- The characters a directive reads. -/
def Directive.reads (x : Char) : Directive → Prop
  | year => isNumeral x
  | month => isNumeral x
  | day => isNumeral x
  | hour => isNumeral x
  | minute => isNumeral x
  | second => isNumeral x
  | lit c => x.toLower = c.toLower
  | blank => isSpace x = true

instance (x : Char) : Decidable (isNumeral x) := inferInstanceAs (Decidable (_ ∨ _))

instance (dir : Directive) (x : Char) : Decidable (dir.reads x) :=
  match dir with
  | .lit c => inferInstanceAs (Decidable (x.toLower = c.toLower))
  | .blank => inferInstanceAs (Decidable (isSpace x = true))
  | .year => inferInstanceAs (Decidable (isNumeral x))
  | .month => inferInstanceAs (Decidable (isNumeral x))
  | .day => inferInstanceAs (Decidable (isNumeral x))
  | .hour => inferInstanceAs (Decidable (isNumeral x))
  | .minute => inferInstanceAs (Decidable (isNumeral x))
  | .second => inferInstanceAs (Decidable (isNumeral x))

/-- The most characters a number takes. -/
def Directive.width : Directive → ℕ
  | year => 4
  | lit _ => 1
  | _ => 2

/-- A match leaves `rest` of `s`, and took one or more characters that satisfy `ok`. -/
def Took (ok : Char → Prop) (width : ℕ) (s rest : List Char) : Prop :=
  ∃ taken, s = taken ++ rest ∧ taken ≠ [] ∧ taken.length ≤ width ∧ ∀ x ∈ taken, ok x

theorem took_one {ok : Char → Prop} {width : ℕ} {a : Char} {rest : List Char} (ha : ok a)
    (hw : 1 ≤ width) : Took ok width (a :: rest) rest :=
  ⟨[a], rfl, List.cons_ne_nil _ _, hw, by simpa using ha⟩

theorem took_two {ok : Char → Prop} {width : ℕ} {a b : Char} {rest : List Char} (ha : ok a)
    (hb : ok b) (hw : 2 ≤ width) : Took ok width (a :: b :: rest) rest :=
  ⟨[a, b], rfl, List.cons_ne_nil _ _, hw, by simp [ha, hb]⟩

/-! ### Months and days -/

/-- A month in two characters. -/
def monthPair (a b : Char) : Option ℕ :=
  if a = '1' then digitUpTo '2' b |>.map (10 + ·)
  else if a = '0' then nonzeroDigit b
  else none

/-- A day in two characters. -/
def dayPair (a b : Char) : Option ℕ :=
  if a = '3' then digitUpTo '1' b |>.map (30 + ·)
  else if a = '1' then (digitValue b).map (10 + ·)
  else if a = '2' then (digitValue b).map (20 + ·)
  else if a = '0' ∨ a = ' ' then nonzeroDigit b
  else none

theorem mem_digit {o : Option ℕ} {f : ℕ → ℕ} {t : List Char} {m : ℕ × List Char}
    (h : m ∈ (o.map fun x => (f x, t)).toList) : m.2 = t ∧ o.map f = some m.1 := by
  rw [Option.mem_toList, Option.map_eq_some_iff] at h
  obtain ⟨x, hx, rfl⟩ := h
  exact ⟨rfl, by simp [hx]⟩

theorem mem_nonzeroDigit {a : Char} {t : List Char} {m : ℕ × List Char}
    (h : m ∈ ((nonzeroDigit a).map (·, t)).toList) : m.2 = t ∧ nonzeroDigit a = some m.1 := by
  obtain ⟨htail, hvalue⟩ := @mem_digit (nonzeroDigit a) id t m h
  exact ⟨htail, by simpa using hvalue⟩

/-- A month is one character or two. -/
theorem mem_monthMatches {s : List Char} {m : ℕ × List Char} (h : m ∈ monthMatches s) :
    (∃ a, s = a :: m.2 ∧ nonzeroDigit a = some m.1) ∨
      ∃ a b, s = a :: b :: m.2 ∧ monthPair a b = some m.1 := by
  cases s with
  | nil => cases h
  | cons a s =>
    simp only [monthMatches, List.mem_append] at h
    rcases h with h | h
    · right
      split at h
      · split at h
        · rename_i hb
          rw [List.mem_singleton] at h
          subst h
          exact ⟨_, _, rfl, by simp [monthPair, digitUpTo, hb]⟩
        · cases h
      · obtain ⟨htail, hb⟩ := mem_nonzeroDigit h
        exact ⟨_, _, by rw [htail], by simpa [monthPair] using hb⟩
      · cases h
    · left
      obtain ⟨htail, ha⟩ := mem_nonzeroDigit h
      exact ⟨a, by rw [htail], ha⟩

/-- And so is a day. -/
theorem mem_dayMatches {s : List Char} {m : ℕ × List Char} (h : m ∈ dayMatches s) :
    (∃ a, s = a :: m.2 ∧ nonzeroDigit a = some m.1) ∨
      ∃ a b, s = a :: b :: m.2 ∧ dayPair a b = some m.1 := by
  cases s with
  | nil => cases h
  | cons a s =>
    simp only [dayMatches, List.mem_append, or_assoc] at h
    rcases h with h | h | h
    · right
      split at h
      · split at h
        · rename_i hb
          rw [List.mem_singleton] at h
          subst h
          exact ⟨_, _, rfl, by simp [dayPair, digitUpTo, hb]⟩
        · cases h
      · obtain ⟨htail, hb⟩ := mem_digit h
        exact ⟨_, _, by rw [htail], by simpa [dayPair] using hb⟩
      · obtain ⟨htail, hb⟩ := mem_digit h
        exact ⟨_, _, by rw [htail], by simpa [dayPair] using hb⟩
      · obtain ⟨htail, hb⟩ := mem_nonzeroDigit h
        exact ⟨_, _, by rw [htail], by simpa [dayPair] using hb⟩
      · cases h
    · left
      obtain ⟨htail, ha⟩ := mem_nonzeroDigit h
      exact ⟨a, by rw [htail], ha⟩
    · right
      split at h
      · obtain ⟨htail, hb⟩ := mem_nonzeroDigit h
        exact ⟨_, _, by rw [htail], by simpa [dayPair] using hb⟩
      · cases h

theorem digitUpTo_numeral {hi c : Char} {n : ℕ} (hhi : hi ≤ '9') (h : digitUpTo hi c = some n) :
    isNumeral c := by
  unfold digitUpTo at h
  split at h
  · rename_i hc
    exact Or.inl (by rw [digitValue_ascii hc.1 (hc.2.trans hhi)]; rfl)
  · cases h

theorem digit_numeral {c : Char} {n : ℕ} (h : digitValue c = some n) : isNumeral c :=
  Or.inl (by rw [h]; rfl)

theorem nonzeroDigit_numeral {c : Char} {n : ℕ} (h : nonzeroDigit c = some n) : isNumeral c :=
  digit_numeral (nonzeroDigit_some h)

theorem monthPair_numeral {a b : Char} {n : ℕ} (h : monthPair a b = some n) :
    isNumeral a ∧ isNumeral b := by
  unfold monthPair at h
  split_ifs at h with h₁ h₀
  · obtain ⟨x, hx, _⟩ := Option.map_eq_some_iff.mp h
    subst h₁
    exact ⟨@digit_numeral '1' 1 (by decide), digitUpTo_numeral (by decide) hx⟩
  · subst h₀
    exact ⟨@digit_numeral '0' 0 (by decide), nonzeroDigit_numeral h⟩

theorem dayPair_numeral {a b : Char} {n : ℕ} (h : dayPair a b = some n) :
    isNumeral a ∧ isNumeral b := by
  unfold dayPair at h
  split_ifs at h with h₃ h₁ h₂ h₀
  · obtain ⟨x, hx, _⟩ := Option.map_eq_some_iff.mp h
    subst h₃
    exact ⟨@digit_numeral '3' 3 (by decide), digitUpTo_numeral (by decide) hx⟩
  · obtain ⟨x, hx, _⟩ := Option.map_eq_some_iff.mp h
    subst h₁
    exact ⟨@digit_numeral '1' 1 (by decide), digit_numeral hx⟩
  · obtain ⟨x, hx, _⟩ := Option.map_eq_some_iff.mp h
    subst h₂
    exact ⟨@digit_numeral '2' 2 (by decide), digit_numeral hx⟩
  · refine ⟨?_, nonzeroDigit_numeral h⟩
    rcases h₀ with rfl | rfl
    · exact @digit_numeral '0' 0 (by decide)
    · exact Or.inr rfl

/-! ### Hours, minutes and seconds -/

theorem afterDigit_took {lo hi : Char} {digit : Char → Option ℕ} {s : List Char}
    {m : ℕ × List Char} (hlo : '0' ≤ lo) (hhi : hi ≤ '9')
    (hdigit : ∀ c n, digit c = some n → isNumeral c) (h : m ∈ afterDigit lo hi digit s) :
    Took isNumeral 2 s m.2 := by
  unfold afterDigit at h
  split at h
  · split at h
    · rename_i a b rest ha
      obtain ⟨htail, hb⟩ := mem_digit h
      obtain ⟨x, hx, _⟩ := Option.map_eq_some_iff.mp hb
      rw [htail]
      exact took_two (digit_numeral (digitValue_ascii (hlo.trans ha.1) (ha.2.trans hhi)))
        (hdigit b x hx) le_rfl
    · cases h
  · cases h

theorem oneDigit_took {s : List Char} {m : ℕ × List Char} (h : m ∈ oneDigit s) :
    Took isNumeral 2 s m.2 := by
  cases s with
  | nil => cases h
  | cons a rest =>
    obtain ⟨htail, ha⟩ := @mem_digit (digitValue a) id rest m h
    rw [Option.map_id, id] at ha
    rw [htail]
    exact took_one (digit_numeral ha) (by omega)

/-! ### Formats -/

/-- A match takes characters its directive reads. -/
theorem Directive.took {dir : Directive} (hdir : dir ≠ .blank) {s : List Char}
    {m : ℕ × List Char} (h : m ∈ dir.matches s) : Took (fun x => dir.reads x) dir.width s m.2 := by
  have hdigit : ∀ c n, digitValue c = some n → isNumeral c := fun c n => digit_numeral
  cases dir with
  | year =>
    obtain ⟨n, rest⟩ := m
    simp only [Directive.matches, Option.mem_toList] at h
    unfold matchYear at h
    split at h
    · split at h
      · rename_i ha hb hc hd
        cases h
        refine ⟨[_, _, _, _], rfl, List.cons_ne_nil _ _, le_rfl, ?_⟩
        simp only [List.mem_cons, List.not_mem_nil, or_false, forall_eq_or_imp, forall_eq]
        exact ⟨digit_numeral ha, digit_numeral hb, digit_numeral hc, digit_numeral hd⟩
      · cases h
    · cases h
  | month =>
    rcases mem_monthMatches h with ⟨a, hs, ha⟩ | ⟨a, b, hs, hab⟩
    · rw [hs]
      exact took_one (nonzeroDigit_numeral ha) (by decide)
    · rw [hs]
      obtain ⟨ha, hb⟩ := monthPair_numeral hab
      exact took_two ha hb le_rfl
  | day =>
    rcases mem_dayMatches h with ⟨a, hs, ha⟩ | ⟨a, b, hs, hab⟩
    · rw [hs]
      exact took_one (nonzeroDigit_numeral ha) (by decide)
    · rw [hs]
      obtain ⟨ha, hb⟩ := dayPair_numeral hab
      exact took_two ha hb le_rfl
  | hour =>
    simp only [Directive.matches, List.mem_append, or_assoc] at h
    rcases h with h | h | h
    · exact afterDigit_took (by decide) (by decide)
        (fun c n hc => digitUpTo_numeral (by decide) hc) h
    · exact afterDigit_took (by decide) (by decide) hdigit h
    · exact oneDigit_took h
  | minute =>
    simp only [Directive.matches, List.mem_append] at h
    rcases h with h | h
    · exact afterDigit_took (by decide) (by decide) hdigit h
    · exact oneDigit_took h
  | second =>
    simp only [Directive.matches, List.mem_append, or_assoc] at h
    rcases h with h | h | h
    · exact afterDigit_took (by decide) (by decide)
        (fun c n hc => digitUpTo_numeral (by decide) hc) h
    · exact afterDigit_took (by decide) (by decide) hdigit h
    · exact oneDigit_took h
  | lit c =>
    cases s with
    | nil => cases h
    | cons x rest =>
      simp only [Directive.matches] at h
      split at h
      · rename_i hx
        rw [List.mem_singleton] at h
        subst h
        exact took_one hx le_rfl
      · cases h
  | blank => exact absurd rfl hdir

theorem blank_took {s : List Char} {m : ℕ × List Char} (h : m ∈ Directive.blank.matches s) :
    Took (fun x => Directive.blank.reads x) s.length s m.2 := by
  simp only [Directive.matches, blankMatches, List.mem_map, List.mem_reverse, List.mem_range] at h
  obtain ⟨_, ⟨i, hi, rfl⟩, rfl⟩ := h
  have hrun := (List.takeWhile_prefix (l := s) isSpace).length_le
  refine ⟨s.take (i + 1), (List.take_append_drop _ _).symm, ?_, by simp, ?_⟩
  · intro hnil
    have hlen := congrArg List.length hnil
    rw [List.length_take, List.length_nil] at hlen
    omega
  · intro x hx
    have hpre : s.take (i + 1) <+: s.takeWhile isSpace :=
      List.prefix_of_prefix_length_le (List.take_prefix _ _) (List.takeWhile_prefix _)
        (by rw [List.length_take]; omega)
    exact List.mem_takeWhile_imp (hpre.subset hx)

theorem Directive.took_some {dir : Directive} {s : List Char} {m : ℕ × List Char}
    (h : m ∈ dir.matches s) : ∃ width, Took (fun x => dir.reads x) width s m.2 := by
  by_cases hdir : dir = .blank
  · subst hdir
    exact ⟨_, blank_took h⟩
  · exact ⟨_, Directive.took hdir h⟩

theorem mem_matchFormat_cons {dir : Directive} {ds : List Directive} {r : Reading} {s : List Char}
    {m : Reading × List Char} (h : m ∈ matchFormat (dir :: ds) r s) :
    ∃ x ∈ dir.matches s, m ∈ matchFormat ds (dir.set x.1 r) x.2 := by
  rw [matchFormat] at h
  exact List.mem_flatMap.mp h

/-- Each character a match took is read by a directive, and each directive reads one. -/
theorem matchFormat_took {fmt : List Directive} {r : Reading} {s : List Char}
    {m : Reading × List Char} (h : m ∈ matchFormat fmt r s) :
    ∃ taken, s = taken ++ m.2 ∧ (∀ x ∈ taken, ∃ dir ∈ fmt, dir.reads x) ∧
      ∀ dir ∈ fmt, ∃ x ∈ taken, dir.reads x := by
  induction fmt generalizing r s with
  | nil =>
    rw [matchFormat, List.mem_singleton] at h
    subst h
    exact ⟨[], rfl, by simp, by simp⟩
  | cons dir ds ih =>
    obtain ⟨x, hx, hm⟩ := mem_matchFormat_cons h
    obtain ⟨_, first, hs, hne, _, hfirst⟩ := Directive.took_some hx
    obtain ⟨rest, hrest, hread, hall⟩ := ih hm
    refine ⟨first ++ rest, by rw [hs, hrest, List.append_assoc], ?_, ?_⟩
    · intro y hy
      rcases List.mem_append.mp hy with hy | hy
      · exact ⟨dir, List.mem_cons_self, hfirst y hy⟩
      · obtain ⟨d, hd, hreads⟩ := hread y hy
        exact ⟨d, List.mem_cons_of_mem _ hd, hreads⟩
    · intro d hd
      rcases List.mem_cons.mp hd with rfl | hd
      · obtain ⟨y, hy⟩ := List.exists_mem_of_ne_nil first hne
        exact ⟨y, List.mem_append_left _ hy, hfirst y hy⟩
      · obtain ⟨y, hy, hreads⟩ := hall d hd
        exact ⟨y, List.mem_append_right _ hy, hreads⟩

/-- A text that is read is matched to its end. -/
theorem strptime_match {fmt : List Directive} {name s : String} {d : DateTime}
    (h : strptime fmt name s = .ok d) :
    ∃ r, (r, []) ∈ matchFormat fmt {} s.toList ∧
      DateTime.ofCivil ⟨r.year, r.month, r.day⟩ r.hour r.minute r.second = .ok d := by
  unfold strptime at h
  split at h
  · cases h
  · rename_i r hhead
    exact ⟨r, List.mem_of_head? hhead, h⟩
  · cases h

/-- **What a format reads.**  Each character of the text is read by a directive, and each directive
reads one. -/
theorem strptime_fits {fmt : List Directive} {name s : String} {d : DateTime}
    (h : strptime fmt name s = .ok d) : (∀ x ∈ s.toList, ∃ dir ∈ fmt, dir.reads x) ∧
      ∀ dir ∈ fmt, ∃ x ∈ s.toList, dir.reads x := by
  obtain ⟨r, hmem, _⟩ := strptime_match h
  obtain ⟨taken, hs, hread, hall⟩ := matchFormat_took hmem
  rw [List.append_nil] at hs
  rw [hs]
  exact ⟨hread, hall⟩

/-! ### The same date in eight characters and in fifteen -/

theorem DateTime.ofCivil_date {c : Civil} {hour minute second : ℕ} {dt : DateTime}
    (h : ofCivil c hour minute second = .ok dt) : Date.ofCivil c = .ok dt.date := by
  unfold ofCivil at h
  split at h
  · cases h
  · rename_i d hd
    split at h
    · cases h
      exact hd
    · cases h

theorem Directive.rest_length {dir : Directive} (hdir : dir ≠ .blank) {s : List Char}
    {m : ℕ × List Char} (h : m ∈ dir.matches s) : s.length ≤ m.2.length + dir.width := by
  obtain ⟨taken, hs, _, hlen, _⟩ := Directive.took hdir h
  rw [hs, List.length_append]
  omega

/-- A day that takes two characters. -/
theorem dayMatches_pair {a b : Char} {t : List Char} {m : ℕ}
    (h : (m, t) ∈ dayMatches (a :: b :: t)) : dayPair a b = some m := by
  rcases mem_dayMatches h with ⟨_, hs, _⟩ | ⟨_, _, hs, hpair⟩
  · have := congrArg List.length hs
    simp at this
  · cases hs
    exact hpair

theorem matchYear_take {s t : List Char} {n : ℕ} (h : matchYear s = some (n, t)) (k : ℕ) :
    matchYear (s.take (k + 4)) = some (n, t.take k) := by
  unfold matchYear at h
  split at h
  · split at h
    · rename_i ha hb hc hd
      cases h
      simp [matchYear, ha, hb, hc, hd]
    · cases h
  · cases h

/-- What `%m%d` reads of four characters are two pairs. -/
theorem matchMonthDay_four {a b c e : Char} {m d : ℕ}
    (h : matchMonthDay [a, b, c, e] = some (m, d, [])) :
    monthPair a b = some m ∧ dayPair c e = some d := by
  unfold matchMonthDay at h
  obtain ⟨x, hx, hday⟩ := List.exists_of_findSome?_eq_some h
  obtain ⟨y, hy, heq⟩ := Option.map_eq_some_iff.mp hday
  have hy : y ∈ dayMatches x.2 := List.mem_of_head? hy
  have hmonth := @Directive.rest_length .month (by decide) [a, b, c, e] x hx
  have hrest := @Directive.rest_length .day (by decide) x.2 y hy
  obtain ⟨m', rest⟩ := x
  obtain ⟨d', rest'⟩ := y
  cases heq
  simp only [Directive.width, List.length_cons, List.length_nil] at hmonth hrest
  rcases mem_monthMatches hx with ⟨_, hs, _⟩ | ⟨_, _, hs, hpair⟩
  · cases hs
    simp at hrest
  · cases hs
    exact ⟨hpair, dayMatches_pair hy⟩

/-- Fifteen characters read as `%Y%m%d;%H%M%S` begin with their date. -/
theorem strptime_compact {s name : String} {dt : DateTime} {d : Date} (hlen : s.toList.length = 15)
    (h : strptime [.year, .month, .day, .lit ';', .hour, .minute, .second] name s = .ok dt)
    (hd : strptimeYmd (slice s 8) = .ok d) : dt.date = d := by
  obtain ⟨r, hmem, hcivil⟩ := strptime_match h
  obtain ⟨⟨y, s₁⟩, hy, hmem⟩ := mem_matchFormat_cons hmem
  obtain ⟨⟨m, s₂⟩, hm, hmem⟩ := mem_matchFormat_cons hmem
  obtain ⟨⟨n, s₃⟩, hn, hmem⟩ := mem_matchFormat_cons hmem
  obtain ⟨x₄, h₄, hmem⟩ := mem_matchFormat_cons hmem
  obtain ⟨x₅, h₅, hmem⟩ := mem_matchFormat_cons hmem
  obtain ⟨x₆, h₆, hmem⟩ := mem_matchFormat_cons hmem
  obtain ⟨x₇, h₇, hmem⟩ := mem_matchFormat_cons hmem
  rw [matchFormat, List.mem_singleton, Prod.mk.injEq] at hmem
  obtain ⟨rfl, hend⟩ := hmem
  -- Fifteen characters are enough only if every number takes all it can.
  have l₁ := Directive.rest_length (by decide) hy
  have l₂ := Directive.rest_length (by decide) hm
  have l₃ := Directive.rest_length (by decide) hn
  have l₄ := Directive.rest_length (by decide) h₄
  have l₅ := Directive.rest_length (by decide) h₅
  have l₆ := Directive.rest_length (by decide) h₆
  have l₇ := Directive.rest_length (by decide) h₇
  simp only [Directive.width, ← hend, List.length_nil] at l₁ l₂ l₃ l₄ l₅ l₆ l₇
  have hyear : matchYear s.toList = some (y, s₁) := Option.mem_toList.mp hy
  have hmonth : ∃ a b, s₁ = a :: b :: s₂ ∧ monthPair a b = some m := by
    refine (mem_monthMatches hm).resolve_left ?_
    rintro ⟨a, hs, _⟩
    have := congrArg List.length hs
    simp only [List.length_cons] at this
    omega
  have hday : ∃ a b, s₂ = a :: b :: s₃ ∧ dayPair a b = some n := by
    refine (mem_dayMatches hn).resolve_left ?_
    rintro ⟨a, hs, _⟩
    have := congrArg List.length hs
    simp only [List.length_cons] at this
    omega
  obtain ⟨a, b, rfl, hab⟩ := hmonth
  obtain ⟨c, e, rfl, hce⟩ := hday
  unfold strptimeYmd slice at hd
  rw [String.toList_ofList, matchYear_take hyear 4] at hd
  simp only [List.take_succ_cons, List.take_zero] at hd
  split at hd
  · cases hd
  · rename_i m' n' hfour
    obtain ⟨hm', hn'⟩ := matchMonthDay_four hfour
    rw [hab] at hm'
    rw [hce] at hn'
    cases hm'
    cases hn'
    have hdate := DateTime.ofCivil_date hcivil
    simp only [Directive.set] at hdate
    rw [hd] at hdate
    exact (Except.ok.inj hdate).symm
  · cases hd

end FlexQuery
