import Mathlib

/-!
# A clock that is set forward and back

A clock shows `t + off t` at the instant `t`; where `off` changes, the clock is set.

* `Steps` — the clock is set by at most `jump`, and at most once in a stretch of length `apart`.
* `Skipped`, `Repeated` — the readings a setting leaves out, and those it brings a second time.
* `shown_iff` — a reading is shown unless it is skipped.
* `shown_once_iff` — a reading is shown exactly once unless it is skipped or repeated.
* `Resolves`, `Resolves.round_trip` — the instant a reading is taken for, and what it shows.
* `Steps.coarsen` — the same clock, read in a coarser unit.
-/

set_option autoImplicit false

namespace WallClock

/-- At most one change in a stretch of length `apart`, and by at most `jump`. -/
structure Steps (off : ℤ → ℤ) (jump apart : ℤ) : Prop where
  jump_nonneg : 0 ≤ jump
  jump_lt : 2 * jump < apart
  once : ∀ s t u, s ≤ t → t ≤ u → u ≤ s + apart → off s = off t ∨ off t = off u
  small : ∀ s t, s ≤ t → t ≤ s + apart → off s - off t ≤ jump ∧ off t - off s ≤ jump

/-- The clock is set forward over the reading. -/
def Skipped (off : ℤ → ℤ) (w : ℤ) : Prop := ∃ T, T + off (T - 1) ≤ w ∧ w < T + off T

/-- The clock is set back over the reading. -/
def Repeated (off : ℤ → ℤ) (w : ℤ) : Prop := ∃ T, T + off T ≤ w ∧ w < T + off (T - 1)

section Readings
variable {off : ℤ → ℤ} {jump apart w : ℤ}

/-! ## Far apart -/

/-- Over a long stretch the clock goes forward, however it is set. -/
theorem Steps.forward (h : Steps off jump apart) {s t : ℤ} (hst : s + apart ≤ t) :
    s + off s < t + off t := by
  obtain ⟨hnonneg, hlt, _, hsmall⟩ := h
  obtain ⟨n, hn⟩ : ∃ n : ℕ, n = (t - s).toNat := ⟨_, rfl⟩
  induction n using Nat.strong_induction_on generalizing t with
  | _ n ih =>
    have hlast := (hsmall (t - apart) t (by omega) (by omega)).1
    by_cases hfar : s + apart ≤ t - apart
    · have hrest := ih (t - apart - s).toNat (by omega) hfar rfl
      omega
    · have hfirst := (hsmall s (t - apart) (by omega) (by omega)).1
      omega

/-- The offset of every instant near a setting is the one on its side of it. -/
theorem Steps.before (h : Steps off jump apart) {T t : ℤ} (hset : off (T - 1) ≠ off T)
    (ht : t < T) (hnear : T ≤ t + apart) : off t = off (T - 1) :=
  (h.once t (T - 1) T (by omega) (by omega) hnear).resolve_right hset

theorem Steps.after (h : Steps off jump apart) {T t : ℤ} (hset : off (T - 1) ≠ off T)
    (ht : T ≤ t) (hnear : t < T + apart) : off t = off T :=
  ((h.once (T - 1) T t (by omega) ht (by omega)).resolve_left hset).symm

/-! ## Skipped readings -/

/-- A clock that goes from before a reading to after it without showing it is set over it. -/
theorem exists_skip {n : ℕ} {s : ℤ} (hs : s + off s < w) (ht : w < s + n + off (s + n))
    (hnever : ∀ t, t + off t ≠ w) : Skipped off w := by
  induction n with
  | zero =>
    simp only [Nat.cast_zero, add_zero] at ht
    omega
  | succ n ih =>
    by_cases hmid : w < s + n + off (s + n)
    · exact ih hmid
    · have hnot := hnever (s + n)
      have hprev : s + (n + 1 : ℕ) - 1 = s + n := by omega
      refine ⟨s + (n + 1 : ℕ), ?_, ht⟩
      rw [hprev]
      omega

theorem Steps.unbounded (h : Steps off jump apart) (t : ℤ) (n : ℕ) :
    t + off t + n ≤ t + n * apart + off (t + n * apart) ∧
      t - n * apart + off (t - n * apart) + n ≤ t + off t := by
  induction n with
  | zero => simp
  | succ n ih =>
    have happart : (n + 1 : ℕ) * apart = n * apart + apart := by
      push_cast
      ring
    have hup := @Steps.forward _ _ _ h (t + n * apart) (t + (n + 1 : ℕ) * apart) (by omega)
    have hdown := @Steps.forward _ _ _ h (t - (n + 1 : ℕ) * apart) (t - n * apart) (by omega)
    omega

/-- **Readings shown.** -/
theorem shown_iff (h : Steps off jump apart) : (∃ t, t + off t = w) ↔ ¬ Skipped off w := by
  constructor
  · rintro ⟨t, rfl⟩ ⟨T, hlow, hhigh⟩
    have hset : off (T - 1) ≠ off T := by omega
    by_cases hside : t < T
    · by_cases hnear : T ≤ t + apart
      · have := h.before hset hside hnear
        omega
      · have := @Steps.forward _ _ _ h t (T - 1) (by omega)
        omega
    · by_cases hnear : t < T + apart
      · have := h.after hset (by omega) hnear
        omega
      · have := @Steps.forward _ _ _ h T t (by omega)
        omega
  · intro hskip
    by_contra hnever
    rw [not_exists] at hnever
    obtain ⟨n, hn⟩ : ∃ n : ℕ, n = (w - off 0).natAbs + 1 := ⟨_, rfl⟩
    obtain ⟨hup, hdown⟩ := h.unbounded 0 n
    have happart : 0 ≤ apart := by
      have := h.jump_lt
      have := h.jump_nonneg
      omega
    have hpos : 0 ≤ n * apart := Int.mul_nonneg (by omega) happart
    apply hskip
    refine @exists_skip off w (2 * n * apart).toNat (0 - n * apart) (by omega) ?_ hnever
    have hlast : 0 - n * apart + ((2 * n * apart).toNat : ℤ) = 0 + n * apart := by
      rw [mul_assoc]
      omega
    rw [hlast]
    omega

/-! ## Repeated readings -/

/-- The first instant after `s` at which the offset is another one. -/
theorem exists_setting {n : ℕ} {s : ℤ} (hne : off (s + n) ≠ off s) :
    ∃ T, s < T ∧ T ≤ s + n ∧ off (T - 1) = off s ∧ off T ≠ off s := by
  induction n with
  | zero => simp at hne
  | succ n ih =>
    by_cases hmid : off (s + n) = off s
    · have hprev : s + (n + 1 : ℕ) - 1 = s + n := by omega
      exact ⟨s + (n + 1 : ℕ), by omega, le_rfl, by rw [hprev, hmid], hne⟩
    · obtain ⟨T, hlt, hle, hbefore, hset⟩ := ih hmid
      exact ⟨T, hlt, by omega, hbefore, hset⟩

/-- Two instants that show the same reading have a setting between them. -/
theorem Steps.repeated_of_lt (h : Steps off jump apart) {s t : ℤ} (hlt : s < t)
    (hs : s + off s = w) (ht : t + off t = w) : Repeated off w := by
  have hnear : t < s + apart := by
    by_contra hfar
    have := @Steps.forward _ _ _ h s t (by omega)
    omega
  have hend : s + ((t - s).toNat : ℤ) = t := by omega
  obtain ⟨T, hsT, hTt, hbefore, hset⟩ := @exists_setting off (t - s).toNat s (by rw [hend]; omega)
  have hafter := h.after (by rw [hbefore]; exact hset.symm) (by omega : T ≤ t) (by omega)
  exact ⟨T, by omega, by omega⟩

/-- **Readings shown once.** -/
theorem shown_once_iff (h : Steps off jump apart) :
    (∃! t, t + off t = w) ↔ ¬ Skipped off w ∧ ¬ Repeated off w := by
  rw [← shown_iff h]
  constructor
  · rintro ⟨t, ht, hall⟩
    refine ⟨⟨t, ht⟩, ?_⟩
    rintro ⟨T, hlow, hhigh⟩
    -- The reading is shown once before the setting and once from it on.
    have hset : off (T - 1) ≠ off T := by omega
    have hjump := h.jump_lt
    have hnonneg := h.jump_nonneg
    have hback := (h.small (T - 1) T (by omega) (by omega)).1
    have hbefore := @Steps.before _ _ _ h T (w - off (T - 1)) hset (by omega) (by omega)
    have hafter := @Steps.after _ _ _ h T (w - off T) hset (by omega) (by omega)
    have hs := hall (w - off (T - 1)) (by simp only [hbefore]; omega)
    have ht := hall (w - off T) (by simp only [hafter]; omega)
    omega
  · rintro ⟨⟨t, ht⟩, hrepeat⟩
    refine ⟨t, ht, ?_⟩
    intro s hs
    rcases lt_trichotomy s t with hlt | heq | hlt
    · exact absurd (h.repeated_of_lt hlt hs ht) hrepeat
    · exact heq
    · exact absurd (h.repeated_of_lt hlt ht hs) hrepeat

/-! ## From a reading to an instant -/

/-- `loc` gives a reading the offset of the instant that shows it; one that is skipped or repeated
takes the offset before the setting. -/
structure Resolves (off loc : ℤ → ℤ) : Prop where
  shown : ∀ t, ¬ Repeated off (t + off t) → loc (t + off t) = off t
  skipped : ∀ T w, T + off (T - 1) ≤ w → w < T + off T → loc w = off (T - 1)
  repeated : ∀ T w, T + off T ≤ w → w < T + off (T - 1) → loc w = off (T - 1)

/-- **Round trip.**  The instant of a reading that is not skipped shows it. -/
theorem Resolves.round_trip {loc : ℤ → ℤ} (hloc : Resolves off loc) (h : Steps off jump apart)
    (hw : ¬ Skipped off w) : w - loc w + off (w - loc w) = w := by
  obtain ⟨t, rfl⟩ := (shown_iff h).mpr hw
  by_cases hrep : Repeated off (t + off t)
  · obtain ⟨T, hlow, hhigh⟩ := hrep
    have hset : off (T - 1) ≠ off T := by omega
    have hjump := h.jump_lt
    have hnonneg := h.jump_nonneg
    have hback := (h.small (T - 1) T (by omega) (by omega)).1
    rw [hloc.repeated T _ hlow hhigh]
    have hbefore := @Steps.before _ _ _ h T (t + off t - off (T - 1)) hset (by omega) (by omega)
    omega
  · rw [hloc.shown t hrep, add_sub_cancel_right]

/-- A reading that is skipped comes out late by what the clock is set forward. -/
theorem Resolves.late {loc : ℤ → ℤ} (hloc : Resolves off loc) (h : Steps off jump apart) {T : ℤ}
    (hlow : T + off (T - 1) ≤ w) (hhigh : w < T + off T) :
    w - loc w + off (w - loc w) = w + (off T - off (T - 1)) := by
  have hset : off (T - 1) ≠ off T := by omega
  have hjump := h.jump_lt
  have hnonneg := h.jump_nonneg
  have hforth := (h.small (T - 1) T (by omega) (by omega)).2
  rw [hloc.skipped T w hlow hhigh]
  have hafter := @Steps.after _ _ _ h T (w - off (T - 1)) hset (by omega) (by omega)
  omega

/-! ## A coarser unit -/

/-- The clock read in units of `n`, at the whole units. -/
theorem Steps.coarsen (h : Steps off jump apart) {n : ℤ} (hn : 0 < n)
    (hfar : 2 * (jump / n + 1) < apart / n) :
    Steps (fun k => off (n * k) / n) (jump / n + 1) (apart / n) := by
  have hscale : ∀ s t, t ≤ s + apart / n → n * t ≤ n * s + apart := by
    intro s t hst
    have hmul := mul_le_mul_of_nonneg_left hst hn.le
    have hdiv := Int.mul_ediv_self_le (x := apart) hn.ne'
    rw [mul_add] at hmul
    omega
  have hdiff : ∀ a b, a - b ≤ jump → a / n - b / n ≤ jump / n + 1 := by
    intro a b hab
    have hle : a / n ≤ (b + jump) / n := Int.ediv_le_ediv hn (by omega)
    have hsplit : (b + jump) / n ≤ b / n + (jump / n + 1) := by
      rw [← Int.lt_add_one_iff, Int.ediv_lt_iff_lt_mul hn]
      have hb := Int.lt_ediv_add_one_mul_self b hn
      have hj := Int.lt_ediv_add_one_mul_self jump hn
      linarith
    omega
  refine ⟨?_, hfar, ?_, ?_⟩
  · have := Int.ediv_nonneg h.jump_nonneg hn.le
    omega
  · intro s t u hst htu hus
    have honce := h.once (n * s) (n * t) (n * u) (mul_le_mul_of_nonneg_left hst hn.le)
      (mul_le_mul_of_nonneg_left htu hn.le) (hscale s u hus)
    exact honce.imp (congrArg (· / n)) (congrArg (· / n))
  · intro s t hst hts
    obtain ⟨hback, hforth⟩ := h.small (n * s) (n * t) (mul_le_mul_of_nonneg_left hst hn.le)
      (hscale s t hts)
    exact ⟨hdiff _ _ hback, hdiff _ _ hforth⟩

end Readings

end WallClock
