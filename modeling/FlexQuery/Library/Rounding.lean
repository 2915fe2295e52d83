import Mathlib

/-!
# Rounding to a binary floating-point format

The float model of the standard library, told in exact values.

* `truncation v` — the extended mantissa of an exact value; shifting a bit out halves the value
  (`shiftRight_truncation`).
* `nearest spec sign v` — the float a value rounds to; `roundWithAccuracy_eq` and
  `ofScientific_eq` say that what is computed depends on the exact value alone.
* `Canonical` — a mantissa and an exponent as the format has them; `Canonical.nearest_eq` says
  which values round to them.
* `pack_unpack`, `unpack_pack` — a finite word and what is read of it, either way.
-/

set_option autoImplicit false

namespace Rounding

open Float.Model Float.Model.UnpackedFloat

/-! ## Truncation -/

/-- The integer part of a value, and the residual bits that tell how far the value is from it. -/
def truncation (v : ℚ) : ExtendedMantissa where
  mantissa := ⌊v⌋₊
  roundBit := 1 / 2 ≤ v - ⌊v⌋₊
  stickyBit := v - ⌊v⌋₊ ≠ 0 ∧ v - ⌊v⌋₊ ≠ 1 / 2

theorem fract_nonneg {v : ℚ} (hv : 0 ≤ v) : 0 ≤ v - ⌊v⌋₊ := sub_nonneg.mpr (Nat.floor_le hv)

theorem fract_lt_one (v : ℚ) : v - ⌊v⌋₊ < 1 := by
  have := Nat.lt_floor_add_one v
  linarith

/-- The round bit and the sticky bit together tell whether there is a rest. -/
theorem residual_bits {f : ℚ} (hf : 0 ≤ f) :
    (decide (1 / 2 ≤ f) || decide (f ≠ 0 ∧ f ≠ 1 / 2)) = decide (f ≠ 0) := by
  rw [← Bool.decide_or]
  refine decide_eq_decide.mpr ⟨?_, fun hne => ?_⟩
  · rintro (h | h) rfl
    · norm_num at h
    · exact h.1 rfl
  · by_cases hhalf : 1 / 2 ≤ f
    · exact Or.inl hhalf
    · exact Or.inr ⟨hne, fun h => hhalf h.ge⟩

/-- Shifting out one bit halves the value. -/
theorem shiftRightOne_truncation {v : ℚ} (hv : 0 ≤ v) :
    (truncation v).shiftRightOne = truncation (v / 2) := by
  have hfloor : ⌊v / 2⌋₊ = ⌊v⌋₊ / 2 := by
    simpa using Nat.floor_div_natCast v 2
  have hlow := fract_nonneg hv
  have hhigh := fract_lt_one v
  have hsplit : (⌊v⌋₊ : ℚ) = 2 * ((⌊v⌋₊ / 2 : ℕ) : ℚ) + ((⌊v⌋₊ % 2 : ℕ) : ℚ) := by
    exact_mod_cast (Nat.div_add_mod ⌊v⌋₊ 2).symm
  have hrest : v / 2 - ((⌊v⌋₊ / 2 : ℕ) : ℚ) = (((⌊v⌋₊ % 2 : ℕ) : ℚ) + (v - ⌊v⌋₊)) / 2 := by
    linarith
  unfold ExtendedMantissa.shiftRightOne truncation
  rw [hfloor, hrest]
  generalize v - ⌊v⌋₊ = f at hlow hhigh
  rw [residual_bits hlow]
  rcases Nat.mod_two_eq_zero_or_one ⌊v⌋₊ with hmod | hmod
  · rw [hmod, Nat.cast_zero, zero_add]
    refine congrArg₂ (ExtendedMantissa.mk _) ?_ (decide_eq_decide.mpr ⟨fun h => ⟨?_, ?_⟩, ?_⟩)
    · rw [eq_comm, bne_self_eq_false, decide_eq_false_iff_not]
      linarith
    · exact div_ne_zero h two_ne_zero
    · linarith
    · rintro ⟨h, _⟩ rfl
      exact h (zero_div 2)
  · rw [hmod, Nat.cast_one]
    refine congrArg₂ (ExtendedMantissa.mk _) ?_ (decide_eq_decide.mpr ⟨fun h => ⟨?_, ?_⟩, ?_⟩)
    · rw [eq_comm]
      refine decide_eq_true ?_
      linarith
    · linarith
    · intro hhalf
      exact h (by linarith)
    · rintro ⟨_, h⟩ rfl
      exact h (by norm_num)

theorem shiftRight_truncation {v : ℚ} (hv : 0 ≤ v) (n : ℕ) :
    truncation v >>> n = truncation (v / 2 ^ n) := by
  show Nat.repeat ExtendedMantissa.shiftRightOne n (truncation v) = _
  induction n with
  | zero => simp [Nat.repeat]
  | succ n ih =>
    rw [Nat.repeat, ih, shiftRightOne_truncation (by positivity), div_div, pow_succ]

/-- A quotient with its remainder. -/
theorem ofFraction_truncation {q num den : ℕ} (h : num < den) :
    ExtendedMantissa.ofMantissaAndAccuracy q (accuracyOfFraction num den) =
      truncation (q + num / den) := by
  have hden : (0 : ℚ) < den := by exact_mod_cast (Nat.zero_le num).trans_lt h
  have hfrac : (num : ℚ) / den < 1 := by
    rw [div_lt_one hden]
    exact_mod_cast h
  have hfloor : ⌊(q : ℚ) + num / den⌋₊ = q := by
    rw [Nat.floor_eq_iff (by positivity)]
    constructor
    · have : (0 : ℚ) ≤ num / den := by positivity
      linarith
    · linarith
  unfold truncation
  rw [hfloor, add_sub_cancel_left]
  unfold accuracyOfFraction
  by_cases hzero : num = 0
  · rw [if_pos hzero, hzero]
    norm_num [ExtendedMantissa.ofMantissaAndAccuracy]
  · rw [if_neg hzero]
    have hne : (num : ℚ) / den ≠ 0 := by
      have : (num : ℚ) ≠ 0 := by exact_mod_cast hzero
      positivity
    have hround : (1 / 2 ≤ (num : ℚ) / den) ↔ den ≤ 2 * num := by
      rw [le_div_iff₀ hden]
      constructor
      · intro hle
        have : (den : ℚ) ≤ 2 * num := by linarith
        exact_mod_cast this
      · intro hle
        have : (den : ℚ) ≤ 2 * num := by exact_mod_cast hle
        linarith
    have htie : (num : ℚ) / den = 1 / 2 ↔ 2 * num = den := by
      rw [div_eq_div_iff hden.ne' two_ne_zero]
      constructor
      · intro heq
        have : (2 * num : ℚ) = den := by linarith
        exact_mod_cast this
      · intro heq
        have : (2 * num : ℚ) = den := by exact_mod_cast heq
        linarith
    simp only [hround, ne_eq, hne, not_false_eq_true, true_and, htie]
    rcases lt_trichotomy (2 * num) den with hcmp | hcmp | hcmp
    · rw [compare_lt_iff_lt.mpr hcmp]
      simp [ExtendedMantissa.ofMantissaAndAccuracy, hcmp, hcmp.ne]
    · rw [compare_eq_iff_eq.mpr hcmp]
      simp [ExtendedMantissa.ofMantissaAndAccuracy, hcmp]
    · rw [compare_gt_iff_gt.mpr hcmp]
      simp [ExtendedMantissa.ofMantissaAndAccuracy, hcmp.le, hcmp.ne']

/-- An integer has no rest. -/
theorem ofExact_truncation (q : ℕ) :
    ExtendedMantissa.ofMantissaAndAccuracy q .exact = truncation q := by
  have h := @ofFraction_truncation q 0 1 Nat.one_pos
  simpa [accuracyOfFraction] using h

/-! ## The float a value rounds to -/

variable (spec : Format)

/-- The exponent of the mantissa of a value. -/
def targetOf (v : ℚ) : ℤ := spec.targetExponent (Int.log 2 v + 1)

def ofParts (sign : Sign) (mantissa : ℕ) (exponent : ℤ) : UnpackedFloat :=
  if h : mantissa = 0 then .zero sign
  else .finite sign mantissa exponent (Nat.pos_of_ne_zero h)

/-- A rounded mantissa with its exponent: one more shift when rounding made it too long. -/
def settle (sign : Sign) (mantissa : ℕ) (exponent : ℤ) : UnpackedFloat :=
  let final := shiftToTargetExponent spec mantissa exponent .exact
  ofParts sign final.1.mantissa final.2

/-- The float a positive value rounds to. -/
def nearest (sign : Sign) (v : ℚ) : UnpackedFloat :=
  settle spec sign (truncation (v / 2 ^ targetOf spec v)).roundedMantissa (targetOf spec v)

/-- The integer part of a value and the value itself have the same length. -/
theorem log_of_floor {v : ℚ} {e : ℤ} (hv : 0 < v) (h : ⌊v / 2 ^ e⌋₊ ≠ 0) :
    Int.log 2 v = (⌊v / 2 ^ e⌋₊.log2 : ℤ) + e := by
  have hpow : (0 : ℚ) < 2 ^ e := by positivity
  have hsplit : ∀ n : ℕ, (2 : ℚ) ^ ((n : ℤ) + e) = (2 ^ n : ℕ) * 2 ^ e := by
    intro n
    rw [zpow_add₀ two_ne_zero, zpow_natCast]
    push_cast
    rfl
  apply le_antisymm
  · rw [← Int.lt_add_one_iff]
    apply (Int.lt_zpow_iff_log_lt one_lt_two hv).mp
    rw [Nat.cast_ofNat, show (⌊v / 2 ^ e⌋₊.log2 : ℤ) + e + 1 =
      ((⌊v / 2 ^ e⌋₊.log2 + 1 : ℕ) : ℤ) + e by push_cast; ring, hsplit, ← div_lt_iff₀ hpow]
    refine (Nat.lt_floor_add_one _).trans_le ?_
    exact_mod_cast Nat.lt_log2_self
  · apply (Int.zpow_le_iff_le_log one_lt_two hv).mp
    rw [Nat.cast_ofNat, hsplit, ← le_div_iff₀ hpow]
    refine le_trans ?_ (Nat.floor_le (by positivity))
    exact_mod_cast Nat.log2_self_le h

theorem ofMantissaAndAccuracy_mantissa (mantissa : ℕ) (accuracy : Accuracy) :
    (ExtendedMantissa.ofMantissaAndAccuracy mantissa accuracy).mantissa = mantissa := by
  cases accuracy with
  | exact => rfl
  | inexact order => cases order <;> rfl

/-- The exponent is told from the integer part already. -/
theorem targetExponent_floor {spec : Format} {v : ℚ} {e : ℤ} (hv : 0 < v)
    (he : e ≤ targetOf spec v) :
    spec.targetExponent (totalExponent ⌊v / 2 ^ e⌋₊ e) = targetOf spec v := by
  have hpow : (0 : ℚ) < 2 ^ e := by positivity
  unfold targetOf totalExponent at *
  by_cases hzero : ⌊v / 2 ^ e⌋₊ = 0
  · -- The value is below one unit: both exponents are the least one.
    have hsmall : v < (2 : ℚ) ^ e := by
      rw [Nat.floor_eq_zero, div_lt_one hpow] at hzero
      exact hzero
    have hlog : Int.log 2 v < e :=
      (Int.lt_zpow_iff_log_lt one_lt_two hv).mp (by exact_mod_cast hsmall)
    rw [hzero, Nat.log2_zero]
    unfold Format.targetExponent Format.mantissaBits at *
    omega
  · rw [log_of_floor hv hzero]
    congr 1
    omega

/-- Once the exponent is low enough, the result depends on the exact value alone. -/
theorem roundWithAccuracy_eq {spec : Format} {sign : Sign} {mantissa : ℕ} {e : ℤ}
    {accuracy : Accuracy} {v : ℚ} (hv : 0 < v)
    (h : ExtendedMantissa.ofMantissaAndAccuracy mantissa accuracy = truncation (v / 2 ^ e))
    (he : e ≤ targetOf spec v) :
    roundWithAccuracy spec sign mantissa e accuracy = nearest spec sign v := by
  have hmantissa : mantissa = ⌊v / 2 ^ e⌋₊ := by
    have hm := congrArg ExtendedMantissa.mantissa h
    rw [ofMantissaAndAccuracy_mantissa] at hm
    exact hm
  have hshift : (2 : ℚ) ^ e * 2 ^ (targetOf spec v - e).toNat = 2 ^ targetOf spec v := by
    rw [← zpow_natCast, ← zpow_add₀ two_ne_zero]
    congr 1
    omega
  have hfirst : shiftToTargetExponent spec mantissa e accuracy =
      (truncation (v / 2 ^ targetOf spec v), targetOf spec v) := by
    unfold shiftToTargetExponent shiftToExponent
    simp only
    rw [hmantissa, targetExponent_floor hv he, ← hmantissa, h,
      shiftRight_truncation (by positivity), div_div, hshift]
    refine congrArg _ ?_
    omega
  unfold roundWithAccuracy nearest settle
  rw [hfirst]
  rfl

/-- A whole number of tens: an exact product. -/
theorem mul_eq_nearest {spec : Format} {m k : ℕ} (hm : 0 < m)
    (h : 0 < m <<< spec.mantissaBits) (h' : 0 < 10 ^ k) :
    mul spec (.finite .positive (m <<< spec.mantissaBits) (-spec.mantissaBits) h)
        (.finite .positive (10 ^ k) 0 h') = nearest spec .positive (m * 10 ^ k) := by
  have hvalue : (0 : ℚ) < m * 10 ^ k := by positivity
  show roundWithAccuracy spec .positive (m <<< spec.mantissaBits * 10 ^ k)
    (-spec.mantissaBits + 0) .exact = _
  rw [add_zero]
  refine roundWithAccuracy_eq hvalue ?_ ?_
  · rw [ofExact_truncation]
    congr 1
    rw [zpow_neg, zpow_natCast, div_inv_eq_mul, Nat.shiftLeft_eq]
    push_cast
    ring
  · have hlog : 0 ≤ Int.log 2 ((m : ℚ) * 10 ^ k) := by
      apply (Int.zpow_le_iff_le_log one_lt_two hvalue).mp
      rw [zpow_zero]
      have hone : 1 ≤ m * 10 ^ k := Nat.mul_pos hm (by positivity)
      exact_mod_cast hone
    unfold targetOf Format.targetExponent
    omega

theorem quotient_split {n d : ℕ} (hd : 0 < d) :
    ((n / d : ℕ) : ℚ) + ((n % d : ℕ) : ℚ) / d = n / d := by
  have hd' : (d : ℚ) ≠ 0 := by positivity
  have hsum : (d : ℚ) * ((n / d : ℕ) : ℚ) + ((n % d : ℕ) : ℚ) = n := by
    exact_mod_cast Nat.div_add_mod n d
  field_simp
  linarith

/-- A quotient is at most one bit shorter than the lengths say. -/
theorem log_quotient {m d : ℕ} (hm : 0 < m) (hd : 0 < d) :
    (m.log2 : ℤ) - d.log2 - 1 ≤ Int.log 2 ((m : ℚ) / d) := by
  have hd' : (0 : ℚ) < d := by positivity
  apply (Int.zpow_le_iff_le_log one_lt_two (by positivity)).mp
  have hmlow : (2 : ℚ) ^ m.log2 ≤ m := by exact_mod_cast Nat.log2_self_le hm.ne'
  have hdhigh : (d : ℚ) ≤ 2 ^ (d.log2 + 1) := by exact_mod_cast Nat.lt_log2_self.le
  rw [Nat.cast_ofNat, show (m.log2 : ℤ) - d.log2 - 1 = (m.log2 : ℤ) - ((d.log2 + 1 : ℕ) : ℤ) by
    push_cast; ring, zpow_sub₀ two_ne_zero, zpow_natCast, zpow_natCast,
    div_le_div_iff₀ (by positivity) hd']
  gcongr

/-- A quotient, with the remainder of the division. -/
theorem div_eq_nearest {spec : Format} {m d : ℕ} (hm : 0 < m) (hd : 0 < d) :
    div spec (.finite .positive m 0 hm) (.finite .positive d 0 hd) =
      nearest spec .positive (m / d) := by
  have hvalue : (0 : ℚ) < m / d := by positivity
  show roundWithAccuracy spec .positive (divCore spec m 0 d 0).1 (divCore spec m 0 d 0).2.1
    (divCore spec m 0 d 0).2.2 = _
  unfold divCore
  simp only [sub_zero, zero_sub]
  refine roundWithAccuracy_eq hvalue ?_ ?_
  · rw [ofFraction_truncation (Nat.mod_lt _ hd), quotient_split hd]
    congr 1
    have hle := min_le_left (0 : ℤ)
      (spec.targetExponent (totalExponent m 0 - totalExponent d 0))
    generalize min (0 : ℤ) (spec.targetExponent (totalExponent m 0 - totalExponent d 0)) = t at hle
    rw [Nat.shiftLeft_eq, Nat.cast_mul, Nat.cast_pow, Nat.cast_ofNat, ← zpow_natCast,
      Int.toNat_of_nonneg (neg_nonneg.mpr hle), zpow_neg]
    field_simp
  · have hlog := log_quotient hm hd
    unfold targetOf totalExponent Format.targetExponent
    omega

/-- Reading a decimal gives the float its value rounds to. -/
theorem ofScientific_eq {spec : Format} {m : ℕ} {e : ℤ} (hm : m ≠ 0)
    (hlow : -((2 ^ spec.exponentBits : ℤ) + m.log2) ≤ e) (hhigh : e ≤ 2 ^ spec.exponentBits) :
    UnpackedFloat.ofScientific spec m e = nearest spec .positive (m * 10 ^ e) := by
  have hpos : 0 < m := Nat.pos_of_ne_zero hm
  unfold UnpackedFloat.ofScientific
  rw [dif_neg hm, if_neg (not_lt.mpr hhigh), if_neg (not_lt.mpr hlow)]
  by_cases hneg : 0 ≤ e
  · rw [if_pos hneg, mul_eq_nearest hpos]
    congr 2
    rw [← zpow_natCast, Int.toNat_of_nonneg hneg]
  · rw [if_neg hneg, div_eq_nearest hpos]
    congr 1
    push_cast
    rw [← zpow_natCast, Int.toNat_of_nonneg (by omega), zpow_neg, div_inv_eq_mul]

/-! ## Values next to a float -/

/-- A value less than half a unit away is rounded to the integer. -/
theorem roundedMantissa_truncation {v : ℚ} {n : ℕ} (hv : 0 ≤ v) (hlow : (n : ℚ) - 1 / 2 < v)
    (hhigh : v < n + 1 / 2) : (truncation v).roundedMantissa = n := by
  by_cases hle : (n : ℚ) ≤ v
  · have hfloor : ⌊v⌋₊ = n := by
      rw [Nat.floor_eq_iff hv]
      exact ⟨hle, by linarith⟩
    have hround : ¬ 1 / 2 ≤ v - n := by linarith
    unfold truncation ExtendedMantissa.roundedMantissa
    rw [hfloor, decide_eq_false hround]
    cases decide (v - n ≠ 0 ∧ v - n ≠ 1 / 2) <;> rfl
  · have hpos : 0 < n := by
      by_contra hzero
      have : n = 0 := by omega
      rw [this, Nat.cast_zero] at hle
      exact hle hv
    have hpred : ((n - 1 : ℕ) : ℚ) = n - 1 := by
      push_cast [Nat.cast_sub hpos]
      ring
    have hfloor : ⌊v⌋₊ = n - 1 := by
      rw [Nat.floor_eq_iff hv, hpred]
      constructor <;> linarith
    have hround : 1 / 2 ≤ v - ((n - 1 : ℕ) : ℚ) := by linarith
    have hsticky : v - ((n - 1 : ℕ) : ℚ) ≠ 0 ∧ v - ((n - 1 : ℕ) : ℚ) ≠ 1 / 2 := by
      rw [hpred]
      constructor <;> intro heq <;> linarith
    unfold truncation ExtendedMantissa.roundedMantissa
    rw [hfloor, decide_eq_true hround, decide_eq_true hsticky]
    exact Nat.sub_add_cancel hpos

/-- A mantissa and an exponent as the format has them: the mantissa is of full length, unless the
exponent is the least one. -/
structure Canonical (m : ℕ) (e : ℤ) : Prop where
  pos : 0 < m
  short : m < 2 ^ spec.mantissaBits
  full : 2 ^ spec.mantissaBitsWithoutImplicit ≤ m ∨ e = spec.minExponent
  low : spec.minExponent ≤ e

variable {spec}

theorem mantissaBits_eq : spec.mantissaBits = spec.mantissaBitsWithoutImplicit + 1 :=
  Nat.add_comm 1 _

theorem settle_of_shift {sign : Sign} {n m : ℕ} {t e : ℤ} (hm : 0 < m)
    (h : shiftToTargetExponent spec n t .exact = (truncation m, e)) :
    settle spec sign n t = .finite sign m e hm := by
  have hmantissa : (truncation m).mantissa = m := Nat.floor_natCast m
  unfold settle
  rw [h]
  show ofParts sign (truncation m).mantissa e = _
  rw [hmantissa]
  exact dif_neg hm.ne'

theorem shift_exact (n k : ℕ) : ExtendedMantissa.ofMantissaAndAccuracy n .exact >>> k =
    truncation (n / 2 ^ k) := by
  rw [ofExact_truncation, shiftRight_truncation (Nat.cast_nonneg n)]

namespace Canonical

variable {m : ℕ} {e : ℤ}

theorem targetExponent (h : Canonical spec m e) :
    spec.targetExponent (totalExponent m e) = e := by
  have hlog : m.log2 < spec.mantissaBits := (Nat.log2_lt h.pos.ne').mpr h.short
  have hlow := h.low
  unfold Format.targetExponent totalExponent
  rcases h.full with hfull | hmin
  · have := (Nat.le_log2 h.pos.ne').mpr hfull
    have hbits := @mantissaBits_eq spec
    omega
  · omega

theorem settle_self (h : Canonical spec m e) (sign : Sign) :
    settle spec sign m e = .finite sign m e h.pos := by
  apply settle_of_shift
  unfold shiftToTargetExponent shiftToExponent
  simp only
  rw [h.targetExponent, sub_self, shift_exact]
  simp

/-- Rounding up to the next length gives the shortest mantissa of full length. -/
theorem settle_carry (h : Canonical spec (2 ^ spec.mantissaBitsWithoutImplicit) e)
    (hlow : spec.minExponent < e) (sign : Sign) :
    settle spec sign (2 ^ spec.mantissaBits) (e - 1) =
      .finite sign (2 ^ spec.mantissaBitsWithoutImplicit) e h.pos := by
  have htarget : spec.targetExponent (totalExponent (2 ^ spec.mantissaBits) (e - 1)) = e := by
    unfold Format.targetExponent totalExponent
    rw [Nat.log2_two_pow]
    omega
  have hhalf : ((2 ^ spec.mantissaBits : ℕ) : ℚ) / 2 ^ 1 =
      (2 ^ spec.mantissaBitsWithoutImplicit : ℕ) := by
    rw [mantissaBits_eq]
    push_cast
    ring
  apply settle_of_shift
  unfold shiftToTargetExponent shiftToExponent
  simp only
  rw [htarget, sub_sub_cancel, Int.toNat_one, shift_exact, hhalf]
  refine congrArg _ ?_
  omega

/-- A value that is closer to a float than any other float is rounded to it: less than half a unit
away, and less than a quarter where the units below are half as long. -/
theorem nearest_eq (h : Canonical spec m e) {v : ℚ} (hlow : m * 2 ^ e - 2 ^ e / 2 < v)
    (hhigh : v < m * 2 ^ e + 2 ^ e / 2)
    (hedge : m = 2 ^ spec.mantissaBitsWithoutImplicit → m * 2 ^ e - 2 ^ e / 4 < v) (sign : Sign) :
    nearest spec sign v = .finite sign m e h.pos := by
  have hunit : (0 : ℚ) < 2 ^ e := by positivity
  have hone : (1 : ℚ) ≤ m := by exact_mod_cast h.pos
  have hpos : 0 < v := by nlinarith
  have hmin := h.low
  have hbits := @mantissaBits_eq spec
  have hlogHigh : Int.log 2 v < spec.mantissaBits + e := by
    apply (Int.lt_zpow_iff_log_lt one_lt_two hpos).mp
    have hshort : (m : ℚ) + 1 ≤ 2 ^ spec.mantissaBits := by exact_mod_cast h.short
    rw [Nat.cast_ofNat, zpow_add₀ two_ne_zero, zpow_natCast]
    nlinarith
  by_cases hsame : targetOf spec v = e
  · have hrounded : (truncation (v / 2 ^ e)).roundedMantissa = m := by
      apply roundedMantissa_truncation (by positivity)
      · rw [lt_div_iff₀ hunit]
        linarith
      · rw [div_lt_iff₀ hunit]
        linarith
    unfold nearest
    rw [hsame, hrounded, h.settle_self]
  · -- The value lies below the shortest mantissa of full length, among units half as long.
    have hfull : 2 ^ spec.mantissaBitsWithoutImplicit ≤ m ∧ spec.minExponent < e := by
      rcases h.full with hfull | hleast
      · refine ⟨hfull, hmin.lt_of_ne ?_⟩
        rintro rfl
        apply hsame
        unfold targetOf Format.targetExponent
        omega
      · exfalso
        apply hsame
        unfold targetOf Format.targetExponent
        omega
    have hbelow : Int.log 2 v < spec.mantissaBitsWithoutImplicit + e := by
      by_contra hno
      apply hsame
      unfold targetOf Format.targetExponent
      omega
    have hvalue : v < 2 ^ spec.mantissaBitsWithoutImplicit * 2 ^ e := by
      have := (Int.lt_zpow_iff_log_lt one_lt_two hpos).mpr hbelow
      rwa [Nat.cast_ofNat, zpow_add₀ two_ne_zero, zpow_natCast] at this
    have hm : m = 2 ^ spec.mantissaBitsWithoutImplicit := by
      refine le_antisymm ?_ hfull.1
      by_contra hno
      have hmore : (2 : ℚ) ^ spec.mantissaBitsWithoutImplicit + 1 ≤ m := by
        exact_mod_cast (not_le.mp hno)
      nlinarith
    have hedge := hedge hm
    subst hm
    push_cast at hedge hlow
    have hlogLow : spec.mantissaBitsWithoutImplicit + e - 1 ≤ Int.log 2 v := by
      apply (Int.zpow_le_iff_le_log one_lt_two hpos).mp
      rw [Nat.cast_ofNat, zpow_sub_one₀ two_ne_zero, zpow_add₀ two_ne_zero, zpow_natCast]
      have : (1 : ℚ) ≤ 2 ^ spec.mantissaBitsWithoutImplicit := one_le_pow₀ one_le_two
      nlinarith
    have htarget : targetOf spec v = e - 1 := by
      unfold targetOf Format.targetExponent
      omega
    have hhalf : (2 : ℚ) ^ (e - 1) = 2 ^ e / 2 := by
      rw [zpow_sub_one₀ two_ne_zero, div_eq_mul_inv]
    have hrounded : (truncation (v / 2 ^ (e - 1))).roundedMantissa = 2 ^ spec.mantissaBits := by
      apply roundedMantissa_truncation (by positivity)
      · rw [lt_div_iff₀ (by positivity), hhalf, mantissaBits_eq]
        push_cast
        rw [pow_succ]
        linarith
      · rw [div_lt_iff₀ (by positivity), hhalf, mantissaBits_eq]
        push_cast
        rw [pow_succ]
        nlinarith
    unfold nearest
    rw [htarget, hrounded, h.settle_carry hfull.2]

end Canonical

/-! ## Packing -/

theorem ofBitVec_toBitVec (s : Sign) : Sign.ofBitVec s.toBitVec = s := by
  cases s <;> rfl

theorem toBitVec_ofBitVec (b : BitVec 1) : (Sign.ofBitVec b).toBitVec = b := by
  revert b
  decide

theorem unpackSign_packComponents {s : Sign} {e : BitVec 11} {m : BitVec 52} :
    unpackSign (packComponents Format.binary64 s e m) = s.toBitVec := by
  unfold unpackSign packComponents
  ext i hi
  simp only [BitVec.getElem_cast]
  grind

/-- The fields of a word give it back. -/
theorem packComponents_unpack (b : BitVec Format.binary64.numBits) :
    packComponents Format.binary64 (Sign.ofBitVec (unpackSign b)) (unpackExponent b)
      (unpackMantissa b) = b := by
  unfold packComponents
  rw [toBitVec_ofBitVec]
  unfold unpackSign unpackExponent unpackMantissa
  ext i hi
  simp only [BitVec.getElem_append, BitVec.getElem_cast]
  grind

theorem one_append_toNat (m : BitVec 52) : (1#1 ++ m).toNat = 2 ^ 52 + m.toNat := by
  rw [BitVec.toNat_append, ← Nat.shiftLeft_add_eq_or_of_lt m.isLt]
  rfl

/-- What a word of a finite float holds. -/
theorem unpack_finite {b : BitVec Format.binary64.numBits} {s : Sign} {m : ℕ} {e : ℤ} {h : 0 < m}
    (hb : unpack Format.binary64 b = .finite s m e h) :
    s = Sign.ofBitVec (unpackSign b) ∧
      (((unpackExponent b).toNat = 0 ∧ m = (unpackMantissa b).toNat ∧ e = -1074) ∨
        (0 < (unpackExponent b).toNat ∧ (unpackExponent b).toNat < 2047 ∧
          m = 2 ^ 52 + (unpackMantissa b).toNat ∧ e = (unpackExponent b).toNat - 1075)) := by
  have hbits : (@unpackExponent Format.binary64 b).toNat < 2 ^ 11 :=
    (@unpackExponent Format.binary64 b).isLt
  have hbias : (Format.binary64.exponentBias : ℤ) = 1023 := rfl
  unfold UnpackedFloat.unpack at hb
  dsimp only at hb
  split at hb
  · split at hb <;> cases hb
  · rename_i hinf
    split at hb
    · rename_i hzero
      split at hb
      · cases hb
      · cases hb
        refine ⟨rfl, Or.inl ⟨?_, rfl, ?_⟩⟩
        · rw [hzero]
          rfl
        · rw [hzero, hbias]
          rfl
    · rename_i hzero
      cases hb
      refine ⟨rfl, Or.inr ⟨?_, ?_, one_append_toNat _, ?_⟩⟩
      · by_contra hno
        exact hzero (BitVec.eq_of_toNat_eq (by simpa using hno))
      · have hne : (@unpackExponent Format.binary64 b).toNat ≠ 2047 := fun h =>
          hinf (BitVec.eq_of_toNat_eq (by simpa using h))
        omega
      · rw [hbias]
        push_cast
        omega

theorem Canonical.of_unpack {b : BitVec Format.binary64.numBits} {s : Sign} {m : ℕ} {e : ℤ}
    {h : 0 < m} (hb : unpack Format.binary64 b = .finite s m e h) :
    Canonical Format.binary64 m e ∧ e ≤ 971 := by
  have hmantissa : (@unpackMantissa Format.binary64 b).toNat < 2 ^ 52 :=
    (@unpackMantissa Format.binary64 b).isLt
  have hmin : Format.binary64.minExponent = -1074 := rfl
  have hbits : Format.binary64.mantissaBits = 53 := rfl
  obtain ⟨_, ⟨_, hm, he⟩ | ⟨hpos, hmax, hm, he⟩⟩ := unpack_finite hb
  · refine ⟨⟨h, ?_, Or.inr (he.trans hmin.symm), by omega⟩, by omega⟩
    rw [hbits]
    omega
  · refine ⟨⟨h, ?_, Or.inl ?_, by omega⟩, by omega⟩
    · rw [hbits]
      omega
    · show 2 ^ 52 ≤ m
      omega

/-- A word of a zero is one of the two zeros. -/
theorem unpack_zero {b : BitVec Format.binary64.numBits} {s : Sign}
    (hb : unpack Format.binary64 b = .zero s) : b = packedZero Format.binary64 s := by
  unfold UnpackedFloat.unpack at hb
  dsimp only at hb
  split at hb
  · split at hb <;> cases hb
  · split at hb
    · rename_i hexponent
      split at hb
      · rename_i hmantissa
        cases hb
        have hfields := packComponents_unpack b
        rw [hexponent, hmantissa] at hfields
        exact hfields.symm
      · cases hb
    · cases hb

/-- The same float with a sign is packed into the same fields. -/
theorem pack_finite {b : BitVec Format.binary64.numBits} {s : Sign} {m : ℕ} {e : ℤ} {h : 0 < m}
    (hb : unpack Format.binary64 b = .finite s m e h) (s' : Sign) :
    UnpackedFloat.pack Format.binary64 (.finite s' m e h) =
      packComponents Format.binary64 s' (unpackExponent b) (unpackMantissa b) := by
  have hmantissa : (@unpackMantissa Format.binary64 b).toNat < 2 ^ 52 :=
    (@unpackMantissa Format.binary64 b).isLt
  have hbias : (Format.binary64.exponentBias : ℤ) = 1023 := rfl
  have hbits : Format.binary64.mantissaBits = 53 := rfl
  have hword : (2 : ℕ) ^ Format.binary64.exponentBits = 2048 := rfl
  obtain ⟨_, ⟨hexp, hm, he⟩ | ⟨hpos, hmax, hm, he⟩⟩ := unpack_finite hb
  · have hbiased : (e + Format.binary64.exponentBias +
        Format.binary64.mantissaBitsWithoutImplicit).toNat = 1 := by
      rw [he, hbias]
      rfl
    have hlog : m.log2 < 52 := (Nat.log2_lt h.ne').mpr (hm ▸ hmantissa)
    have hzero : @unpackExponent Format.binary64 b = 0#11 :=
      BitVec.eq_of_toNat_eq (by simpa using hexp)
    unfold UnpackedFloat.pack
    dsimp only
    rw [hbiased, hword, hbits, if_neg (by omega), if_neg (by omega), hzero, hm,
      BitVec.ofNat_toNat, BitVec.setWidth_eq]
  · have hbiased : (e + Format.binary64.exponentBias +
        Format.binary64.mantissaBitsWithoutImplicit).toNat =
          (@unpackExponent Format.binary64 b).toNat := by
      rw [he, hbias]
      push_cast
      omega
    have hlog : m.log2 = 52 := (Nat.log2_eq_iff h.ne').mpr ⟨by omega, by omega⟩
    have hrest : BitVec.ofNat 52 m = @unpackMantissa Format.binary64 b := by
      apply BitVec.eq_of_toNat_eq
      rw [BitVec.toNat_ofNat, hm, Nat.add_mod_left, Nat.mod_eq_of_lt hmantissa]
    unfold UnpackedFloat.pack
    dsimp only
    rw [hbiased, hword, hbits, if_neg (by omega), if_pos (by omega), hrest,
      BitVec.ofNat_toNat, BitVec.setWidth_eq]

theorem unpack_sign {b : BitVec Format.binary64.numBits} {s : Sign} {m : ℕ} {e : ℤ} {h : 0 < m}
    (hb : unpack Format.binary64 b = .finite s m e h) (s' : Sign) :
    unpack Format.binary64 (packComponents Format.binary64 s' (unpackExponent b)
      (unpackMantissa b)) = .finite s' m e h := by
  unfold UnpackedFloat.unpack at hb ⊢
  simp only [unpackMantissa_packComponents, unpackExponent_packComponents,
    unpackSign_packComponents, ofBitVec_toBitVec] at hb ⊢
  split at hb
  · split at hb <;> cases hb
  · rename_i hinf
    rw [if_neg hinf]
    split at hb
    · rename_i hzero
      rw [if_pos hzero]
      split at hb
      · cases hb
      · rename_i hne
        cases hb
        exact dif_neg hne
    · rename_i hzero
      rw [if_neg hzero]
      cases hb
      rfl

/-- A finite float, packed with either sign, is unpacked to itself. -/
theorem unpack_pack {x : Float.Model} {s : Sign} {m : ℕ} {e : ℤ} {h : 0 < m}
    (hx : x.unpack = .finite s m e h) (s' : Sign) :
    (Float.Model.pack (.finite s' m e h)).unpack = .finite s' m e h := by
  show unpack Format.binary64 (UnpackedFloat.pack Format.binary64 (.finite s' m e h)) = _
  rw [pack_finite hx s', unpack_sign hx s']

/-- A word of a finite float or of a zero is packed to itself. -/
theorem pack_unpack {b : BitVec Format.binary64.numBits}
    (hb : (unpack Format.binary64 b).isFinite = true) :
    UnpackedFloat.pack Format.binary64 (unpack Format.binary64 b) = b := by
  cases hu : unpack Format.binary64 b with
  | notANumber =>
    rw [hu] at hb
    cases hb
  | infinity s =>
    rw [hu] at hb
    cases hb
  | zero s => exact (unpack_zero hu).symm
  | finite s m e h => rw [pack_finite hu s, (unpack_finite hu).1, packComponents_unpack]

theorem pack_unpack_model {x : Float.Model} (hx : x.unpack.isFinite = true) :
    Float.Model.pack x.unpack = x := by
  obtain ⟨bits, valid⟩ := x
  have hbits : UInt64.ofBitVec (UnpackedFloat.pack Format.binary64
      (unpack Format.binary64 bits.toBitVec)) = bits :=
    congrArg UInt64.ofBitVec (pack_unpack hx)
  show Float.Model.mk _ _ = Float.Model.mk _ _
  simp only [Float.Model.mk.injEq]
  exact hbits

/-- The bits of a finite float are kept. -/
theorem toBits_ofBits {bits : UInt64} (h : (Float.Model.ofBits bits).unpack.isFinite = true) :
    (Float.Model.ofBits bits).toBits = bits := by
  have hfinite : (unpack Format.binary64 bits.toBitVec).isFinite = true := by
    unfold Float.Model.ofBits at h
    cases hu : unpack Format.binary64 bits.toBitVec with
    | notANumber =>
      rw [hu] at h
      cases h
    | infinity s =>
      rw [hu] at h
      cases s <;> cases h
    | zero s => rfl
    | finite s m e hm => rfl
  exact congrArg UInt64.ofBitVec (pack_unpack hfinite)

end Rounding
