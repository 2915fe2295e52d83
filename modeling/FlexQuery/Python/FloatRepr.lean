import FlexQuery.Library.Rounding
import FlexQuery.Python.Number

/-!
# `float(str(x))`

* `decimalPoint_spec`, `neighbours_head` — the decimal with `n` digits that is nearest to a number.
* `shortestDigits_isSome` — seventeen digits are enough to read a finite float back.
* `readFloat_layOut` — each of the layouts is read with the value of its digits.
* `readFloat_strFloat`, `strFloat_inj` — a finite float is read back from its text.
-/

set_option autoImplicit false

namespace FlexQuery

open Float.Model Float.Model.UnpackedFloat Rounding

/-! ## The nearest decimal -/

/-- Ten to the number of digits, and to one less. -/
theorem length_toDigits {n : ℕ} (hn : 0 < n) :
    10 ^ ((Nat.toDigits 10 n).length - 1) ≤ n ∧ n < 10 ^ (Nat.toDigits 10 n).length := by
  have hpos : 0 < (Nat.toDigits 10 n).length := Nat.length_toDigits_pos
  refine ⟨?_, (Nat.length_toDigits_le_iff (by norm_num) hpos).mp le_rfl⟩
  by_cases hone : (Nat.toDigits 10 n).length = 1
  · rw [hone]
    exact hn
  · by_contra hno
    have := (Nat.length_toDigits_le_iff (by norm_num) (by omega)).mpr (not_le.mp hno)
    omega

/-- The decimal point stands behind the first digit of the number. -/
theorem decimalPoint_spec {num den : ℕ} (hnum : 0 < num) (hden : 0 < den) :
    (10 : ℚ) ^ (decimalPoint num den - 1) ≤ num / den ∧
      (num : ℚ) / den < 10 ^ decimalPoint num den := by
  have hd : (0 : ℚ) < den := by positivity
  have hn : (0 : ℚ) < num := by positivity
  unfold decimalPoint
  by_cases hle : den ≤ num
  · rw [if_pos hle]
    obtain ⟨hlow, hhigh⟩ := length_toDigits (Nat.div_pos hle hden)
    have hpos : 0 < (Nat.toDigits 10 (num / den)).length := Nat.length_toDigits_pos
    generalize (Nat.toDigits 10 (num / den)).length = k at *
    constructor
    · rw [show (k : ℤ) - 1 = ((k - 1 : ℕ) : ℤ) by omega, zpow_natCast, le_div_iff₀ hd]
      have := (Nat.le_div_iff_mul_le hden).mp hlow
      exact_mod_cast this
    · rw [zpow_natCast, div_lt_iff₀ hd]
      have := (Nat.div_lt_iff_lt_mul hden).mp hhigh
      exact_mod_cast this
  · rw [if_neg hle]
    have hless : num ≤ den - 1 := by omega
    obtain ⟨hlow, hhigh⟩ := length_toDigits (Nat.div_pos hless hnum)
    have hpos : 0 < (Nat.toDigits 10 ((den - 1) / num)).length := Nat.length_toDigits_pos
    generalize (Nat.toDigits 10 ((den - 1) / num)).length = k at *
    constructor
    · rw [show (1 : ℤ) - k - 1 = -(k : ℤ) by ring, zpow_neg, zpow_natCast,
        inv_le_comm₀ (by positivity) (by positivity), inv_div, div_le_iff₀ hn]
      have := (Nat.div_lt_iff_lt_mul hnum).mp hhigh
      have hle : den ≤ 10 ^ k * num := by omega
      exact_mod_cast hle
    · rw [show (1 : ℤ) - k = -((k - 1 : ℕ) : ℤ) by omega, zpow_neg, zpow_natCast,
        lt_inv_comm₀ (by positivity) (by positivity), inv_div, lt_div_iff₀ hn]
      have := (Nat.le_div_iff_mul_le hnum).mp hlow
      have hlt : 10 ^ (k - 1) * num < den := by omega
      exact_mod_cast hlt

/-- The integer that is tried first is at most half a unit away. -/
theorem nearer_integer {top bottom : ℕ} (hbottom : 0 < bottom) :
    ∃ c rest, (if 2 * (top % bottom) < bottom ∨
        (2 * (top % bottom) = bottom ∧ top / bottom % 2 = 0)
      then [top / bottom, top / bottom + 1] else [top / bottom + 1, top / bottom]) = c :: rest ∧
      |(c : ℚ) - top / bottom| ≤ 1 / 2 := by
  have hb : (0 : ℚ) < bottom := by positivity
  have hsplit := @quotient_split top bottom hbottom
  have hrest : (0 : ℚ) ≤ ((top % bottom : ℕ) : ℚ) / bottom := by positivity
  have hless : ((top % bottom : ℕ) : ℚ) / bottom ≤ 1 := by
    rw [div_le_one hb]
    exact_mod_cast (Nat.mod_lt top hbottom).le
  split
  · rename_i hdown
    refine ⟨_, _, rfl, ?_⟩
    have hhalf : ((top % bottom : ℕ) : ℚ) / bottom ≤ 1 / 2 := by
      rw [div_le_iff₀ hb]
      have : 2 * (top % bottom) ≤ bottom := by omega
      have : (2 : ℚ) * ((top % bottom : ℕ) : ℚ) ≤ bottom := by exact_mod_cast this
      linarith
    rw [abs_le]
    constructor <;> linarith
  · rename_i hup
    refine ⟨_, _, rfl, ?_⟩
    have hhalf : 1 / 2 ≤ ((top % bottom : ℕ) : ℚ) / bottom := by
      rw [le_div_iff₀ hb]
      have : bottom ≤ 2 * (top % bottom) := by omega
      have : (bottom : ℚ) ≤ 2 * ((top % bottom : ℕ) : ℚ) := by exact_mod_cast this
      linarith
    push_cast
    rw [abs_le]
    constructor <;> linarith

/-- The decimal with the `n`-th digit behind the point as its last that is tried first. -/
theorem neighbours_head {num den : ℕ} (hden : 0 < den) (k : ℤ) (n : ℕ) :
    ∃ c rest, neighbours num den k n = c :: rest ∧
      |(c : ℚ) * 10 ^ (k - n) - num / den| ≤ 10 ^ (k - n) / 2 := by
  have hunit : (0 : ℚ) < 10 ^ (k - n) := by positivity
  obtain ⟨c, rest, hhead, hclose⟩ := @nearer_integer (num * 10 ^ (n - k).toNat)
    (den * 10 ^ (k - n).toNat) (by positivity)
  refine ⟨c, rest, hhead, ?_⟩
  have hscale : (num : ℚ) / den = ((num * 10 ^ (n - k).toNat : ℕ) : ℚ) /
      ((den * 10 ^ (k - n).toNat : ℕ) : ℚ) * 10 ^ (k - n) := by
    have hpow : (10 : ℚ) ^ (k - n) * 10 ^ (n - k).toNat = 10 ^ (k - n).toNat := by
      rw [← zpow_natCast, ← zpow_natCast, ← zpow_add₀ (by norm_num)]
      congr 1
      omega
    have hone : (10 : ℚ) ^ (n - k).toNat / 10 ^ (k - n).toNat * 10 ^ (k - n) = 1 := by
      rw [div_mul_eq_mul_div, mul_comm, hpow, div_self (by positivity)]
    push_cast
    rw [mul_div_mul_comm, mul_assoc, hone, mul_one]
  rw [hscale, ← sub_mul, abs_mul, abs_of_pos hunit]
  have := mul_le_mul_of_nonneg_right hclose hunit.le
  linarith

theorem neighbours_le {num den c : ℕ} {k : ℤ} {n : ℕ} (hden : 0 < den)
    (hhigh : (num : ℚ) / den < 10 ^ k) (hc : c ∈ neighbours num den k n) : c ≤ 10 ^ n := by
  have hd : (0 : ℚ) < den := by positivity
  have hpow : (10 : ℚ) ^ k * 10 ^ (n - k).toNat = 10 ^ n * 10 ^ (k - n).toNat := by
    rw [← zpow_natCast, ← zpow_natCast, ← zpow_natCast, ← zpow_add₀ (by norm_num),
      ← zpow_add₀ (by norm_num)]
    congr 1
    omega
  have htop : num * 10 ^ (n - k).toNat < 10 ^ n * (den * 10 ^ (k - n).toNat) := by
    have hless : (num : ℚ) * 10 ^ (n - k).toNat < 10 ^ k * den * 10 ^ (n - k).toNat := by
      gcongr
      exact (div_lt_iff₀ hd).mp hhigh
    have heq : (10 : ℚ) ^ k * den * 10 ^ (n - k).toNat = 10 ^ n * (den * 10 ^ (k - n).toNat) := by
      rw [mul_right_comm, hpow]
      ring
    rw [heq] at hless
    exact_mod_cast hless
  have hquotient := (Nat.div_lt_iff_lt_mul (by positivity)).mpr htop
  unfold neighbours at hc
  simp only at hc
  split at hc
  · simp only [List.mem_cons, List.not_mem_nil, or_false] at hc
    omega
  · simp only [List.mem_cons, List.not_mem_nil, or_false] at hc
    omega

/-! ## Seventeen digits -/

/-- Three bits are less than a decimal digit. -/
theorem two_pow_le_ten_pow (n : ℕ) : (2 : ℚ) ^ (3 * n) ≤ 10 ^ n := by
  rw [pow_mul]
  gcongr
  norm_num

theorem ten_zpow_le_two_zpow (n : ℕ) : (10 : ℚ) ^ (-(n : ℤ)) ≤ 2 ^ (-(3 * n : ℤ)) := by
  have hcast : (3 * n : ℤ) = ((3 * n : ℕ) : ℤ) := by push_cast; rfl
  rw [hcast, zpow_neg, zpow_neg, zpow_natCast, zpow_natCast]
  exact inv_anti₀ (by positivity) (two_pow_le_ten_pow n)

/-- The decimal exponents of the finite floats. -/
theorem decimal_range {m : ℕ} {e k : ℤ} (h : Canonical Format.binary64 m e) (he : e ≤ 971)
    (hlow : (10 : ℚ) ^ (k - 1) ≤ m * 2 ^ e) (hhigh : (m : ℚ) * 2 ^ e < 10 ^ k) :
    -358 < k ∧ k < 343 := by
  have hshort : (m : ℚ) < 2 ^ 53 := by exact_mod_cast h.short
  have hone : (1 : ℚ) ≤ m := by exact_mod_cast h.pos
  have hmin : -1074 ≤ e := h.low
  have hbinary : (0 : ℚ) < 2 ^ e := by positivity
  constructor
  · have hleast : (2 : ℚ) ^ (-1074 : ℤ) ≤ 2 ^ e := zpow_le_zpow_right₀ one_le_two hmin
    have hten : (10 : ℚ) ^ (-358 : ℤ) ≤ 2 ^ (-1074 : ℤ) := ten_zpow_le_two_zpow 358
    have hvalue : (2 : ℚ) ^ e ≤ m * 2 ^ e := le_mul_of_one_le_left hbinary.le hone
    have hpow := hten.trans_lt (hleast.trans_lt (hvalue.trans_lt hhigh))
    exact (zpow_lt_zpow_iff_right₀ (by norm_num)).mp hpow
  · have hmost : (2 : ℚ) ^ e ≤ 2 ^ (973 : ℤ) := zpow_le_zpow_right₀ one_le_two (by omega)
    have hsum : (2 : ℚ) ^ 53 * 2 ^ (973 : ℤ) = 2 ^ (3 * 342) := by
      rw [← zpow_natCast, ← zpow_natCast, ← zpow_add₀ two_ne_zero]
      norm_num
    have hvalue : (m : ℚ) * 2 ^ e < 2 ^ 53 * 2 ^ (973 : ℤ) :=
      mul_lt_mul hshort hmost hbinary (by positivity)
    have hpow := (hlow.trans_lt hvalue).trans_le (hsum.le.trans (two_pow_le_ten_pow 342))
    rw [← zpow_natCast] at hpow
    have := (zpow_lt_zpow_iff_right₀ (by norm_num : (1 : ℚ) < 10)).mp hpow
    omega

/-- The seventeen digits of a float's exact value are closer to it than any other float. -/
theorem ofScientific_seventeen {m : ℕ} {e k : ℤ} {c : ℕ} (h : Canonical Format.binary64 m e)
    (he : e ≤ 971) (hlow : (10 : ℚ) ^ (k - 1) ≤ m * 2 ^ e) (hhigh : (m : ℚ) * 2 ^ e < 10 ^ k)
    (hc : |(c : ℚ) * 10 ^ (k - 17) - m * 2 ^ e| ≤ 10 ^ (k - 17) / 2) :
    UnpackedFloat.ofScientific Format.binary64 c (k - 17) = .finite .positive m e h.pos := by
  have hten : (10 : ℚ) ^ (k - 1) = 10 ^ 16 * 10 ^ (k - 17) := by
    rw [← zpow_natCast, ← zpow_add₀ (by norm_num)]
    congr 1
    push_cast
    ring
  have hunit : (0 : ℚ) < 10 ^ (k - 17) := by positivity
  have hbinary : (0 : ℚ) < 2 ^ e := by positivity
  have hshort : (m : ℚ) + 1 ≤ 2 ^ 53 := by exact_mod_cast h.short
  have hone : (1 : ℚ) ≤ m := by exact_mod_cast h.pos
  have hbounds := decimal_range h he hlow hhigh
  obtain ⟨hbelow, habove⟩ := abs_le.mp hc
  rw [hten] at hlow
  have hpos : c ≠ 0 := by
    rintro rfl
    rw [Nat.cast_zero, zero_mul] at hbelow
    nlinarith
  rw [ofScientific_eq hpos ?_ ?_]
  · apply h.nearest_eq
    · nlinarith
    · nlinarith
    · intro hm
      have hedge : (m : ℚ) = 2 ^ 52 := by
        rw [hm]
        norm_num
      rw [hedge] at hlow hbelow ⊢
      nlinarith
  · show -((2 ^ 11 : ℤ) + c.log2) ≤ k - 17
    omega
  · show k - 17 ≤ (2 ^ 11 : ℤ)
    omega

/-- The value of the mantissa and the exponent, as the fraction the digits are taken from. -/
theorem ratio_value (m : ℕ) (e : ℤ) :
    ((m * 2 ^ e.toNat : ℕ) : ℚ) / ((2 ^ (-e).toNat : ℕ) : ℚ) = m * 2 ^ e := by
  have hpow : (2 : ℚ) ^ e.toNat / 2 ^ (-e).toNat = 2 ^ e := by
    rw [← zpow_natCast, ← zpow_natCast, ← zpow_sub₀ two_ne_zero]
    congr 1
    omega
  push_cast
  rw [mul_div_assoc, hpow]

/-- The digits of a finite float: they read back as its absolute value, and there are some. -/
theorem shortestDigits_spec {x : PyFloat} {s : Sign} {m : ℕ} {e : ℤ} {h : 0 < m}
    (hx : x.unpack = .finite s m e h) :
    ∃ c exponent, shortestDigits x.abs (m * 2 ^ e.toNat) (2 ^ (-e).toNat) = some (c, exponent) ∧
      Float.Model.ofScientific c exponent = x.abs ∧ c ≤ 10 ^ 17 ∧ -375 < exponent ∧
      exponent < 342 := by
  obtain ⟨hcanonical, he⟩ := Canonical.of_unpack hx
  have hden : 0 < 2 ^ (-e).toNat := by positivity
  obtain ⟨hlow, hhigh⟩ := @decimalPoint_spec (m * 2 ^ e.toNat) (2 ^ (-e).toNat) (by positivity) hden
  rw [ratio_value] at hlow hhigh
  have hrange := decimal_range hcanonical he hlow hhigh
  have habs : x.abs = Float.Model.pack (.finite .positive m e h) := by
    unfold Float.Model.abs
    rw [hx]
    rfl
  unfold shortestDigits
  simp only
  generalize decimalPoint (m * 2 ^ e.toNat) (2 ^ (-e).toNat) = k at *
  cases hfound : (List.range 17).findSome? fun i =>
      ((neighbours (m * 2 ^ e.toNat) (2 ^ (-e).toNat) k (i + 1)).find? fun c =>
        Float.Model.ofScientific c (k - (i + 1 : ℕ)) = x.abs).map (·, k - (i + 1 : ℕ)) with
  | some r =>
    obtain ⟨i, hi, hr⟩ := List.exists_of_findSome?_eq_some hfound
    obtain ⟨c, hc, rfl⟩ := Option.map_eq_some_iff.mp hr
    rw [List.mem_range] at hi
    refine ⟨c, _, rfl, by simpa using List.find?_some hc, ?_, ?_, ?_⟩
    · have hle := neighbours_le hden (by rwa [ratio_value]) (List.mem_of_find?_eq_some hc)
      exact hle.trans (Nat.pow_le_pow_right (by norm_num) (by omega))
    · push_cast
      omega
    · push_cast
      omega
  | none =>
    -- The seventeen digits would have been found.
    exfalso
    have hnone := List.findSome?_eq_none_iff.mp hfound 16 (List.mem_range.mpr (by norm_num))
    rw [Option.map_eq_none_iff, List.find?_eq_none] at hnone
    obtain ⟨c, rest, hhead, hclose⟩ := @neighbours_head (m * 2 ^ e.toNat) _ hden k 17
    rw [ratio_value] at hclose
    refine hnone c (by rw [hhead]; exact List.mem_cons_self) (decide_eq_true ?_)
    rw [habs]
    exact congrArg Float.Model.pack
      (ofScientific_seventeen hcanonical he hlow hhigh (by simpa using hclose))

/-! ## Digits -/

/-- The values of some ASCII digits. -/
def digitValues (l : List Char) : List ℕ := l.map fun c => c.toNat - 48

/-- A text of ASCII digits. -/
def Digits (l : List Char) : Prop := ∀ c ∈ l, c.isDigit = true

theorem digitValue_isDigit {c : Char} (h : c.isDigit = true) :
    digitValue c = some (c.toNat - 48) := by
  have hrange : 48 ≤ c.toNat ∧ c.toNat ≤ 57 := by
    rw [Char.isDigit_iff_toNat] at h
    exact h
  unfold digitValue decimalZeros
  rw [List.find?_cons_of_pos (by simp; omega)]
  rfl

theorem Digits.append {a b : List Char} (ha : Digits a) (hb : Digits b) : Digits (a ++ b) := by
  intro c hc
  rcases List.mem_append.mp hc with hc | hc
  · exact ha c hc
  · exact hb c hc

theorem Digits.of_append {a b : List Char} (h : Digits (a ++ b)) : Digits a ∧ Digits b :=
  ⟨fun c hc => h c (List.mem_append_left _ hc), fun c hc => h c (List.mem_append_right _ hc)⟩

theorem Digits.replicate (n : ℕ) : Digits (List.replicate n '0') := by
  intro c hc
  rw [List.eq_of_mem_replicate hc]
  rfl

theorem Digits.toDigits (n : ℕ) : Digits (Nat.toDigits 10 n) :=
  fun _ hc => Nat.isDigit_of_mem_toDigits (by norm_num) le_rfl hc

/-- What follows a run of digits. -/
def EndsRun (rest : List Char) : Prop := ∀ c ∈ rest.head?, digitValue c = none

theorem digitRun_append {l rest : List Char} (hl : Digits l) (hrest : EndsRun rest) :
    digitRun (l ++ rest) = (digitValues l, rest) := by
  induction l with
  | nil =>
    cases rest with
    | nil => rfl
    | cons c rest =>
      rw [List.nil_append, digitRun, hrest c rfl]
      rfl
  | cons c l ih =>
    rw [List.cons_append, digitRun, digitValue_isDigit (hl c List.mem_cons_self),
      ih fun x hx => hl x (List.mem_cons_of_mem _ hx)]
    rfl

theorem ofDigits_append (a b : List ℕ) :
    ofDigits (a ++ b) = ofDigits a * 10 ^ b.length + ofDigits b := by
  have hfold : ∀ (l : List ℕ) (n : ℕ),
      l.foldl (fun n d => 10 * n + d) n = n * 10 ^ l.length + ofDigits l := by
    intro l
    unfold ofDigits
    induction l with
    | nil =>
      intro n
      simp
    | cons d l ih =>
      intro n
      rw [List.foldl_cons, List.foldl_cons, ih, ih (10 * 0 + d), List.length_cons, pow_succ]
      ring
  show (a ++ b).foldl _ 0 = _
  rw [List.foldl_append, hfold b]
  rfl

theorem ofDigits_zeros (n : ℕ) : ofDigits (digitValues (List.replicate n '0')) = 0 := by
  induction n with
  | zero => rfl
  | succ n ih =>
    rw [List.replicate_succ', digitValues, List.map_append, ofDigits_append, ← digitValues, ih]
    rfl

theorem ofDigits_toDigits (n : ℕ) : ofDigits (digitValues (Nat.toDigits 10 n)) = n := by
  have hread := @Nat.ofDigitChars_ten_toDigits n
  unfold Nat.ofDigitChars at hread
  unfold ofDigits digitValues
  rw [List.foldl_map]
  exact hread

/-- The digits of a number without its trailing zeros. -/
theorem kept_spec {c : ℕ} (hc : c ≠ 0) :
    ∃ kept z, ((Nat.toDigits 10 c).reverse.dropWhile (· = '0')).reverse = kept ∧
      Nat.toDigits 10 c = kept ++ List.replicate z '0' ∧ kept ≠ [] ∧
      ofDigits (digitValues kept) * 10 ^ z = c ∧ Digits kept := by
  have hzeros : (Nat.toDigits 10 c).reverse.takeWhile (· = '0') = List.replicate
      ((Nat.toDigits 10 c).reverse.takeWhile (· = '0')).length '0' := by
    rw [List.eq_replicate_iff]
    exact ⟨rfl, fun d hd => by simpa using List.mem_takeWhile_imp hd⟩
  have hsplit : Nat.toDigits 10 c = ((Nat.toDigits 10 c).reverse.dropWhile (· = '0')).reverse ++
      List.replicate ((Nat.toDigits 10 c).reverse.takeWhile (· = '0')).length '0' := by
    have hboth := congrArg List.reverse
      (List.takeWhile_append_dropWhile (p := (· = '0')) (l := (Nat.toDigits 10 c).reverse))
    rw [List.reverse_append, List.reverse_reverse, hzeros, List.reverse_replicate] at hboth
    exact hboth.symm
  generalize ((Nat.toDigits 10 c).reverse.dropWhile (· = '0')).reverse = kept at hsplit ⊢
  generalize ((Nat.toDigits 10 c).reverse.takeWhile (· = '0')).length = z at hsplit
  have hvalue : ofDigits (digitValues kept) * 10 ^ z = c := by
    have hread := ofDigits_toDigits c
    rw [hsplit, digitValues, List.map_append, ofDigits_append, ← digitValues, ← digitValues,
      ofDigits_zeros, add_zero, digitValues, digitValues, List.length_map,
      List.length_replicate] at hread
    exact hread
  refine ⟨kept, z, rfl, hsplit, ?_, hvalue, ?_⟩
  · rintro rfl
    exact hc (by simpa [digitValues, ofDigits] using hvalue.symm)
  · have hall := Digits.toDigits c
    rw [hsplit] at hall
    exact hall.of_append.1

/-! ## Reading a literal -/

theorem readMantissa_point {whole frac rest : List Char} (hwhole : Digits whole)
    (hfrac : Digits frac) (hrest : EndsRun rest) :
    readMantissa (whole ++ '.' :: (frac ++ rest)) =
      (digitValues whole, digitValues frac, rest) := by
  have hpoint : EndsRun ('.' :: (frac ++ rest)) := by
    intro c hc
    cases hc
    decide
  unfold readMantissa
  rw [digitRun_append hwhole hpoint]
  simp only
  rw [digitRun_append hfrac hrest]

theorem readMantissa_whole {whole rest : List Char} (hwhole : Digits whole) (hrest : EndsRun rest)
    (hpoint : rest.head? ≠ some '.') :
    readMantissa (whole ++ rest) = (digitValues whole, [], rest) := by
  unfold readMantissa
  rw [digitRun_append hwhole hrest]
  cases rest with
  | nil => rfl
  | cons c rest =>
    have hc : c ≠ '.' := by
      rintro rfl
      exact hpoint rfl
    split
    · rename_i h
      cases h
      exact absurd rfl hc
    · rename_i h
      cases h
      rfl

def isMinus : Sign → Bool
  | .negative => true
  | .positive => false

theorem splitSign_signText (s : Sign) {c : Char} (hc : c.isDigit = true) (body : List Char) :
    splitSign ((signText s).toList ++ c :: body) = (isMinus s, c :: body) := by
  cases s with
  | negative => rfl
  | positive =>
    show splitSign (c :: body) = _
    unfold splitSign
    split
    · rename_i h
      cases h
      cases hc
    · rename_i h
      cases h
      cases hc
    · rfl

theorem toLower_digit {c : Char} (hc : c.isDigit = true) : c.toLower = c := by
  have hrange : c.val.toNat ≤ 57 := (Char.isDigit_iff_toNat.mp hc).2
  unfold Char.toLower
  rw [dif_neg]
  rintro ⟨hlow, _⟩
  have : 65 ≤ c.val.toNat := UInt32.le_iff_toNat_le.mp hlow
  omega

/-- What starts with a digit is no word. -/
theorem lower_digit_ne {c : Char} (hc : c.isDigit = true) (body : List Char) {w : String}
    (hw : w.toList.head?.any Char.isDigit = false) : lower (String.ofList (c :: body)) ≠ w := by
  rintro rfl
  simp [lower, toLower_digit hc, hc] at hw

/-- A literal that starts with a digit, behind an optional minus. -/
theorem readFloat_of (s : Sign) {body rest : List Char} {whole frac : List ℕ} {e : ℤ}
    (hfirst : ∃ c ∈ body.head?, c.isDigit = true)
    (hmantissa : readMantissa body = (whole, frac, rest)) (hwhole : whole ≠ [])
    (hexponent : readExponent rest = some e) :
    readFloat ((signText s).toList ++ body) =
      some (PyFloat.ofSign (isMinus s)
        (.ofScientific (ofDigits (whole ++ frac)) (e - frac.length))) := by
  obtain ⟨c, hc, hdigit⟩ := hfirst
  obtain ⟨t, rfl⟩ : ∃ t, body = c :: t := List.head?_eq_some_iff.mp hc
  have hinf := @lower_digit_ne c hdigit t "inf" (by decide)
  have hinfinity := @lower_digit_ne c hdigit t "infinity" (by decide)
  have hnan := @lower_digit_ne c hdigit t "nan" (by decide)
  unfold readFloat
  rw [splitSign_signText s hdigit]
  simp only [hinf, hinfinity, hnan, or_self, if_false, hmantissa]
  cases whole with
  | nil => exact absurd rfl hwhole
  | cons d ds =>
    simp only [hexponent]
    rfl

theorem endsRun_nil : EndsRun [] := by
  intro c hc
  cases hc

/-- The exponent that ends a literal. -/
def exponentText (p : ℤ) : List Char :=
  'e' :: (if p < 0 then '-' else '+') ::
    ((if p.natAbs < 10 then ['0'] else []) ++ Nat.toDigits 10 p.natAbs)

theorem readExponent_exponentText (p : ℤ) : readExponent (exponentText p) = some p := by
  have hdigits : Digits ((if p.natAbs < 10 then ['0'] else []) ++ Nat.toDigits 10 p.natAbs) := by
    refine Digits.append ?_ (Digits.toDigits _)
    split
    · exact Digits.replicate 1
    · intro c hc
      cases hc
  have hvalue : ofDigits (digitValues ((if p.natAbs < 10 then ['0'] else []) ++
      Nat.toDigits 10 p.natAbs)) = p.natAbs := by
    rw [digitValues, List.map_append, ofDigits_append, ← digitValues, ← digitValues,
      ofDigits_toDigits]
    split
    · simp [digitValues, ofDigits]
    · simp [digitValues, ofDigits]
  have hne : (if p.natAbs < 10 then ['0'] else []) ++ Nat.toDigits 10 p.natAbs ≠ [] := by
    simp [Nat.toDigits_ne_nil]
  have hrun := digitRun_append hdigits endsRun_nil
  rw [List.append_nil] at hrun
  unfold exponentText
  generalize (if p.natAbs < 10 then ['0'] else []) ++ Nat.toDigits 10 p.natAbs = ds at *
  obtain ⟨d, ds, rfl⟩ := List.exists_cons_of_ne_nil hne
  have hrun' : digitRun (d :: ds) = ((d.toNat - 48) :: digitValues ds, []) := hrun
  have hvalue' : ofDigits ((d.toNat - 48) :: digitValues ds) = p.natAbs := hvalue
  by_cases hp : p < 0
  · rw [if_pos hp]
    simp only [readExponent, splitSign, true_or, if_true, hrun', hvalue']
    congr 1
    omega
  · rw [if_neg hp]
    simp only [readExponent, splitSign, true_or, if_true, hrun', hvalue']
    simp only [Bool.false_eq_true, if_false]
    congr 1
    omega

theorem endsRun_exponentText (p : ℤ) : EndsRun (exponentText p) := by
  intro c hc
  cases hc
  decide

/-! ## The layouts -/

/-- A literal of the value of some digits, the point where `point` says. -/
structure ReadsAs (s : Sign) (text ds : List Char) (point : ℤ) : Prop where
  read : ∃ (c : ℕ) (e : ℤ), readFloat ((signText s).toList ++ text) =
      some (PyFloat.ofSign (isMinus s) (Float.Model.ofScientific c e)) ∧
    (c : ℚ) * 10 ^ e = ofDigits (digitValues ds) * 10 ^ (point - ds.length) ∧
    (e = point - ds.length ∨ e = -1)

theorem ofDigits_values_append (a b : List Char) : ofDigits (digitValues a ++ digitValues b) =
    ofDigits (digitValues a) * 10 ^ b.length + ofDigits (digitValues b) := by
  rw [ofDigits_append, digitValues, digitValues, List.length_map]

theorem digitValues_append (a b : List Char) :
    digitValues (a ++ b) = digitValues a ++ digitValues b := List.map_append

theorem digitValues_ne_nil {l : List Char} (h : l ≠ []) : digitValues l ≠ [] :=
  fun hnil => h (List.map_eq_nil_iff.mp hnil)

theorem digitValues_length (l : List Char) : (digitValues l).length = l.length :=
  List.length_map _

theorem head_digit {ds : List Char} (hds : Digits ds) (hne : ds ≠ []) (rest : List Char) :
    ∃ c ∈ (ds ++ rest).head?, c.isDigit = true := by
  obtain ⟨d, t, rfl⟩ := List.exists_cons_of_ne_nil hne
  exact ⟨d, rfl, hds d List.mem_cons_self⟩

section Layouts

variable (s : Sign) {ds : List Char} (hds : Digits ds) (hne : ds ≠ []) {point : ℤ}

include hds hne

omit hne in
/-- All digits behind the point. -/
theorem reads_small (hpoint : point ≤ 0) :
    ReadsAs s ('0' :: '.' :: (List.replicate (-point).toNat '0' ++ ds)) ds point := by
  have hfrac := (Digits.replicate (-point).toNat).append hds
  have hmantissa := readMantissa_point (Digits.replicate 1) hfrac endsRun_nil
  rw [List.append_nil] at hmantissa
  refine ⟨_, _, readFloat_of s ⟨'0', rfl, rfl⟩ hmantissa (by simp [digitValues]) rfl, ?_, Or.inl ?_⟩
  · rw [ofDigits_values_append, ofDigits_zeros, zero_mul, zero_add, digitValues_append,
      ofDigits_values_append, ofDigits_zeros, zero_mul, zero_add, List.length_append,
      digitValues_length, digitValues_length, List.length_replicate]
    congr 2
    push_cast
    omega
  · rw [digitValues_length, List.length_append, List.length_replicate]
    push_cast
    omega

/-- All digits before the point, and zeros up to it. -/
theorem reads_whole (hpoint : ds.length ≤ point) :
    ReadsAs s (ds ++ List.replicate (point.toNat - ds.length) '0' ++ ['.', '0']) ds point := by
  have hwhole := hds.append (Digits.replicate (point.toNat - ds.length))
  have hmantissa := readMantissa_point hwhole (Digits.replicate 1) endsRun_nil
  rw [List.append_nil] at hmantissa
  refine ⟨_, _, readFloat_of s ?_ hmantissa (digitValues_ne_nil ?_) rfl, ?_, Or.inr rfl⟩
  · rw [List.append_assoc]
    exact head_digit hds hne _
  · simp [hne]
  · rw [ofDigits_values_append, ofDigits_zeros, add_zero, digitValues_append,
      ofDigits_values_append, ofDigits_zeros, add_zero, digitValues_length, List.length_replicate,
      List.length_replicate]
    have hzeros : (point : ℤ) - ds.length = ((point.toNat - ds.length : ℕ) : ℤ) := by omega
    rw [hzeros, zpow_natCast, show (0 : ℤ) - ((1 : ℕ) : ℤ) = -1 by norm_num, zpow_neg_one]
    push_cast
    field_simp

/-- The point among the digits. -/
theorem reads_split (hpos : 0 < point) (hpoint : point < ds.length) :
    ReadsAs s (ds.take point.toNat ++ '.' :: ds.drop point.toNat) ds point := by
  have hboth := hds
  rw [← List.take_append_drop point.toNat ds] at hboth
  have hmantissa := readMantissa_point hboth.of_append.1 hboth.of_append.2 endsRun_nil
  rw [List.append_nil] at hmantissa
  have hwhole : ds.take point.toNat ≠ [] := by
    rw [Ne, List.take_eq_nil_iff]
    push Not
    exact ⟨by omega, hne⟩
  have hlast : (0 : ℤ) - ((digitValues (ds.drop point.toNat)).length : ℕ) = point - ds.length := by
    rw [digitValues_length, List.length_drop]
    omega
  refine ⟨_, _, readFloat_of s (head_digit hboth.of_append.1 hwhole _) hmantissa
    (digitValues_ne_nil hwhole) rfl, ?_, Or.inl hlast⟩
  rw [← digitValues_append, List.take_append_drop, hlast]

/-- One digit before the point, and the exponent. -/
theorem reads_exponent : ReadsAs s (ds.take 1 ++ (if ds.length > 1 then '.' :: ds.drop 1 else []) ++
    exponentText (point - 1)) ds point := by
  have hboth := hds
  rw [← List.take_append_drop 1 ds] at hboth
  have hlength : 0 < ds.length := List.length_pos_iff.mpr hne
  have hwhole : ds.take 1 ≠ [] := by
    rw [Ne, List.take_eq_nil_iff]
    push Not
    exact ⟨one_ne_zero, hne⟩
  have hlast : point - 1 - ((digitValues (ds.drop 1)).length : ℕ) = point - ds.length := by
    rw [digitValues_length, List.length_drop]
    omega
  have hmantissa : readMantissa (ds.take 1 ++ (if ds.length > 1 then '.' :: ds.drop 1 else []) ++
      exponentText (point - 1)) =
        (digitValues (ds.take 1), digitValues (ds.drop 1), exponentText (point - 1)) := by
    by_cases hmore : ds.length > 1
    · rw [if_pos hmore, List.append_assoc]
      exact readMantissa_point hboth.of_append.1 hboth.of_append.2 (endsRun_exponentText _)
    · rw [if_neg hmore, List.append_nil, List.drop_eq_nil_of_le (by omega)]
      exact readMantissa_whole hboth.of_append.1 (endsRun_exponentText _) (by simp [exponentText])
  refine ⟨_, _, readFloat_of s ?_ hmantissa (digitValues_ne_nil hwhole)
    (readExponent_exponentText _), ?_, Or.inl hlast⟩
  · rw [List.append_assoc]
    exact head_digit hboth.of_append.1 hwhole _
  · rw [← digitValues_append, List.take_append_drop, hlast]

/-- Every layout is read with the value of its digits. -/
theorem readFloat_layOut : ReadsAs s (layOut ds point).toList ds point := by
  unfold layOut
  split
  · rename_i hrange
    split
    · rename_i hsmall
      have hread := reads_small s hds hsmall
      simpa using hread
    · rename_i hsmall
      split
      · rename_i hlong
        have hread := reads_whole s hds hne hlong
        simpa using hread
      · rename_i hlong
        have hread := reads_split s hds hne (not_le.mp hsmall) (not_le.mp hlong)
        simpa using hread
  · have hread := @reads_exponent s ds hds hne point
    unfold exponentText at hread
    rw [Nat.toString_eq_ofList_toDigits]
    convert hread using 1
    split_ifs <;> simp

end Layouts

/-! ## Reading back -/

/-- Decimals of the same value are read alike. -/
theorem ofScientific_congr {c c' : ℕ} {e e' : ℤ} (hc : c ≠ 0) (he : -2048 ≤ e ∧ e ≤ 2048)
    (he' : -2048 ≤ e' ∧ e' ≤ 2048) (h : (c : ℚ) * 10 ^ e = c' * 10 ^ e') :
    Float.Model.ofScientific c e = Float.Model.ofScientific c' e' := by
  have hc' : c' ≠ 0 := by
    rintro rfl
    rw [Nat.cast_zero, zero_mul] at h
    have : (0 : ℚ) < c * 10 ^ e := by positivity
    linarith
  have hread : ∀ {c : ℕ} {e : ℤ}, c ≠ 0 → -2048 ≤ e ∧ e ≤ 2048 →
      UnpackedFloat.ofScientific Format.binary64 c e =
        nearest Format.binary64 .positive (c * 10 ^ e) := by
    intro c e hc he
    refine ofScientific_eq hc ?_ ?_
    · show -((2 ^ 11 : ℤ) + c.log2) ≤ e
      omega
    · show e ≤ (2 ^ 11 : ℤ)
      omega
  unfold Float.Model.ofScientific
  rw [hread hc he, hread hc' he', h]

/-- The sign put back on the absolute value. -/
theorem ofSign_abs {x : PyFloat} {s : Sign} {m : ℕ} {e : ℤ} {h : 0 < m}
    (hx : x.unpack = .finite s m e h) : PyFloat.ofSign (isMinus s) x.abs = x := by
  have hself : Float.Model.pack (.finite s m e h) = x := by
    rw [← hx]
    exact pack_unpack_model (by rw [hx]; rfl)
  have habs : x.abs = Float.Model.pack (.finite .positive m e h) := by
    unfold Float.Model.abs
    rw [hx]
    rfl
  cases s with
  | positive => rw [habs]; exact hself
  | negative =>
    show x.abs.neg = x
    unfold Float.Model.neg
    rw [habs, unpack_pack hx]
    exact hself

/-- The text of a finite float, from its digits. -/
theorem strFloat_finite {x : PyFloat} {s : Sign} {m : ℕ} {e : ℤ} {h : 0 < m}
    (hx : x.unpack = .finite s m e h) :
    ∃ ds point, strFloat x = signText s ++ layOut ds point ∧ Digits ds ∧ ds ≠ [] ∧
      ∀ (c : ℕ) (exponent : ℤ), (c : ℚ) * 10 ^ exponent =
        ofDigits (digitValues ds) * 10 ^ (point - ds.length) →
        (exponent = point - ds.length ∨ exponent = -1) →
          Float.Model.ofScientific c exponent = x.abs := by
  obtain ⟨c, exponent, hshortest, hread, hc, hlow, hhigh⟩ := shortestDigits_spec hx
  have hzero : c ≠ 0 := by
    rintro rfl
    have habs : x.abs = Float.Model.pack (.finite .positive m e h) := by
      unfold Float.Model.abs
      rw [hx]
      rfl
    have hunpacked := congrArg Float.Model.unpack (hread.trans habs)
    rw [unpack_pack hx] at hunpacked
    have hnothing : Float.Model.ofScientific 0 exponent = Float.Model.pack (.zero .positive) := by
      unfold Float.Model.ofScientific UnpackedFloat.ofScientific
      rw [dif_pos rfl]
    have hunsigned : (Float.Model.pack (.zero .positive)).unpack = .zero .positive := by
      rfl
    rw [hnothing, hunsigned] at hunpacked
    cases hunpacked
  obtain ⟨kept, z, hkept, hdigits, hne, hvalue, hall⟩ := kept_spec hzero
  have hlength : (Nat.toDigits 10 c).length = kept.length + z := by
    rw [hdigits, List.length_append, List.length_replicate]
  have hshort : (Nat.toDigits 10 c).length ≤ 18 := by
    refine (Nat.length_toDigits_le_iff (by norm_num) (by norm_num)).mpr (hc.trans_lt ?_)
    norm_num
  refine ⟨kept, (Nat.toDigits 10 c).length + exponent, ?_, hall, hne, ?_⟩
  · unfold strFloat
    rw [hx]
    simp only [hshortest, hkept]
  · intro c' exponent' hsame hcases
    have hvalue' : (c : ℚ) * 10 ^ exponent = c' * 10 ^ exponent' := by
      have hpower : (10 : ℚ) ^ (((Nat.toDigits 10 c).length + exponent : ℤ) - kept.length) =
          10 ^ z * 10 ^ exponent := by
        rw [hlength, ← zpow_natCast, ← zpow_add₀ (by norm_num)]
        congr 1
        push_cast
        omega
      have hdigitsValue : (c : ℚ) = ofDigits (digitValues kept) * 10 ^ z := by
        exact_mod_cast hvalue.symm
      rw [hsame, hpower, ← mul_assoc, ← hdigitsValue]
    rw [← hread]
    refine (ofScientific_congr hzero (by omega) ?_ hvalue').symm
    omega

/-- A finite float is read back from its text. -/
theorem readFloat_strFloat {x : PyFloat} (hx : x.unpack.isFinite = true) :
    readFloat (strFloat x).toList = some x := by
  cases hunpack : x.unpack with
  | notANumber =>
    rw [hunpack] at hx
    cases hx
  | infinity s =>
    rw [hunpack] at hx
    cases hx
  | zero s =>
    have hself := pack_unpack_model hx
    rw [hunpack] at hself
    have hzero : readFloat (signText s ++ "0.0").toList = some (Float.Model.pack (.zero s)) := by
      cases s <;> decide +kernel
    unfold strFloat
    rw [hunpack]
    simp only [hzero, hself]
  | finite s m e h =>
    obtain ⟨ds, point, htext, hds, hne, hread⟩ := strFloat_finite hunpack
    obtain ⟨c, exponent, hfloat, hvalue, hcases⟩ := (@readFloat_layOut s ds hds hne point).read
    rw [htext, String.toList_append, hfloat, hread c exponent hvalue hcases, ofSign_abs hunpack]

/-- Finite floats with the same text are the same. -/
theorem strFloat_inj {x y : PyFloat} (hx : x.unpack.isFinite = true)
    (hy : y.unpack.isFinite = true) (h : strFloat x = strFloat y) : x = y := by
  have hread := readFloat_strFloat hx
  rw [h, readFloat_strFloat hy] at hread
  exact (Option.some.inj hread).symm

end FlexQuery
