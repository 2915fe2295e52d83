import Mathlib

/-!
# Cutting an interval of days into chunks

* `Tiles a b cs` — the chunks `cs` follow each other without gap or overlap from `a` to `b`.
* `Tiles.mem_iff` — their union is exactly `[a, b]`;
  `Tiles.pairwise_lt` — each ends before every later one starts.
* `length_bound` — intervals of at most `m + 1` days that cover `[a, b]` number at least
  `(b - a + 1) / (m + 1)`.
* `Tiles.length_le_of_full` — a tiling whose chunks are all full, the last one excepted, uses
  as few chunks as any cover does.
-/

set_option autoImplicit false

namespace Interval

/-- The chunks run from `a` to `b`, each starting the day after the one before it ends. -/
def Tiles (a b : ℤ) : List (ℤ × ℤ) → Prop
  | [] => a = b + 1
  | c :: cs => c.1 = a ∧ a ≤ c.2 ∧ Tiles (c.2 + 1) b cs

/-- Every day of `[a, b]` lies in a chunk. -/
def Covers (a b : ℤ) (cs : List (ℤ × ℤ)) : Prop :=
  ∀ d, a ≤ d → d ≤ b → ∃ c ∈ cs, c.1 ≤ d ∧ d ≤ c.2

theorem Tiles.le_succ {a b : ℤ} {cs : List (ℤ × ℤ)} (h : Tiles a b cs) : a ≤ b + 1 := by
  induction cs generalizing a with
  | nil => exact le_of_eq h
  | cons c cs ih =>
    obtain ⟨_, hc, hrest⟩ := h
    have := ih hrest
    omega

theorem Tiles.bounds {a b : ℤ} {cs : List (ℤ × ℤ)} (h : Tiles a b cs) :
    ∀ c ∈ cs, a ≤ c.1 ∧ c.1 ≤ c.2 ∧ c.2 ≤ b := by
  induction cs generalizing a with
  | nil => intro c hc; cases hc
  | cons c cs ih =>
    obtain ⟨hca, hc, hrest⟩ := h
    have hle := hrest.le_succ
    intro d hd
    rcases List.mem_cons.mp hd with rfl | hd
    · omega
    · have := ih hrest d hd
      omega

/-- The union of the chunks is exactly `[a, b]`. -/
theorem Tiles.mem_iff {a b : ℤ} {cs : List (ℤ × ℤ)} (h : Tiles a b cs) (d : ℤ) :
    (∃ c ∈ cs, c.1 ≤ d ∧ d ≤ c.2) ↔ a ≤ d ∧ d ≤ b := by
  constructor
  · rintro ⟨c, hc, h₁, h₂⟩
    have := h.bounds c hc
    omega
  · intro hd
    induction cs generalizing a with
    | nil =>
      have : a = b + 1 := h
      omega
    | cons c cs ih =>
      obtain ⟨hca, hc, hrest⟩ := h
      by_cases hdc : d ≤ c.2
      · exact ⟨c, List.mem_cons_self, by omega, hdc⟩
      · obtain ⟨e, he, hed⟩ := ih hrest (by omega)
        exact ⟨e, List.mem_cons_of_mem _ he, hed⟩

theorem Tiles.covers {a b : ℤ} {cs : List (ℤ × ℤ)} (h : Tiles a b cs) : Covers a b cs :=
  fun d h₁ h₂ => (h.mem_iff d).mpr ⟨h₁, h₂⟩

/-- Each chunk ends before every later one starts. -/
theorem Tiles.pairwise_lt {a b : ℤ} {cs : List (ℤ × ℤ)} (h : Tiles a b cs) :
    cs.Pairwise fun c d => c.2 < d.1 := by
  induction cs generalizing a with
  | nil => exact List.Pairwise.nil
  | cons c cs ih =>
    obtain ⟨_, _, hrest⟩ := h
    refine List.Pairwise.cons (fun d hd => ?_) (ih hrest)
    have := hrest.bounds d hd
    omega

/-! ## As few chunks as possible -/

/-- Intervals of at most `m + 1` days covering `[a, b]`: their number times `m + 1` is at
least the number of days. -/
theorem length_bound {a b : ℤ} {m : ℕ} {cs : List (ℤ × ℤ)} (hcov : Covers a b cs)
    (hspan : ∀ c ∈ cs, c.2 - c.1 ≤ m) : b - a + 1 ≤ cs.length * (m + 1) := by
  have hsub : Finset.Icc a b ⊆ cs.toFinset.biUnion fun c => Finset.Icc c.1 c.2 := by
    intro d hd
    obtain ⟨h₁, h₂⟩ := Finset.mem_Icc.mp hd
    obtain ⟨c, hc, hcd⟩ := hcov d h₁ h₂
    exact Finset.mem_biUnion.mpr ⟨c, List.mem_toFinset.mpr hc, Finset.mem_Icc.mpr hcd⟩
  have hone : ∀ c ∈ cs.toFinset, (Finset.Icc c.1 c.2).card ≤ m + 1 := by
    intro c hc
    have := hspan c (List.mem_toFinset.mp hc)
    rw [Int.card_Icc]
    omega
  have hcard : (b + 1 - a).toNat ≤ cs.length * (m + 1) :=
    calc (b + 1 - a).toNat = (Finset.Icc a b).card := (Int.card_Icc a b).symm
      _ ≤ (cs.toFinset.biUnion fun c => Finset.Icc c.1 c.2).card := Finset.card_le_card hsub
      _ ≤ cs.toFinset.card * (m + 1) := Finset.card_biUnion_le_card_mul _ _ _ hone
      _ ≤ cs.length * (m + 1) := Nat.mul_le_mul_right _ cs.toFinset_card_le
  have hcast : ((b + 1 - a).toNat : ℤ) ≤ (cs.length * (m + 1) : ℕ) := by exact_mod_cast hcard
  push_cast at hcast
  omega

/-- Every chunk but the last spans exactly `m` days. -/
def Full (m : ℕ) : List (ℤ × ℤ) → Prop
  | [] => True
  | [_] => True
  | c :: d :: cs => c.2 - c.1 = m ∧ Full m (d :: cs)

theorem Tiles.lt_of_full {a b : ℤ} {m : ℕ} {cs : List (ℤ × ℤ)} (h : Tiles a b cs)
    (hfull : Full m cs) (hne : cs ≠ []) : ((cs.length : ℤ) - 1) * (m + 1) < b - a + 1 := by
  induction cs generalizing a with
  | nil => exact absurd rfl hne
  | cons c cs ih =>
    obtain ⟨hca, hc, hrest⟩ := h
    cases cs with
    | nil =>
      have hend : c.2 + 1 = b + 1 := hrest
      simp only [List.length_cons, List.length_nil]
      push_cast
      omega
    | cons d cs =>
      have hlt := ih hrest hfull.2 (by simp)
      have hspan := hfull.1
      simp only [List.length_cons] at hlt ⊢
      push_cast at hlt ⊢
      linarith

/-- **A full tiling is minimal**: no cover by intervals of at most `m + 1` days is shorter. -/
theorem Tiles.length_le_of_full {a b : ℤ} {m : ℕ} {cs ds : List (ℤ × ℤ)} (h : Tiles a b cs)
    (hfull : Full m cs) (hcov : Covers a b ds) (hspan : ∀ c ∈ ds, c.2 - c.1 ≤ m) :
    cs.length ≤ ds.length := by
  by_cases hne : cs = []
  · simp [hne]
  · have hlow := h.lt_of_full hfull hne
    have hup := length_bound hcov hspan
    have hlt : ((cs.length : ℤ) - 1) * (m + 1) < ds.length * (m + 1) := by linarith
    have := lt_of_mul_lt_mul_right hlt (by positivity)
    omega

end Interval
