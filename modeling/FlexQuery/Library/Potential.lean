import FlexQuery.Library.RowTable
import FlexQuery.Library.Transition

/-!
# Counting events with a potential

* `count` — how often an event happens along a run.
* `add_count_le` — a potential that never falls and rises at every event bounds their number.
* `sum_le_update`, `sum_lt_update` — such a potential, as a sum over the rows of a table.
-/

set_option autoImplicit false

namespace Potential

open Transition

variable {σ α : Type*} {step : σ → α → Option σ} {ev : σ → α → σ → Bool}

/-- How often the event happens. -/
def count (step : σ → α → Option σ) (ev : σ → α → σ → Bool) : σ → List α → ℕ
  | _, [] => 0
  | s, a :: as =>
    match step s a with
    | none => 0
    | some s' => (if ev s a s' then 1 else 0) + count step ev s' as

/-- **The potential pays for the events** of every run whose steps meet `P`. -/
theorem add_count_le {P : σ → α → Prop} {Inv : σ → Prop} (φ : σ → ℕ)
    (hkeep : ∀ s a s', Inv s → P s a → step s a = some s' → Inv s')
    (hpay : ∀ s a s', Inv s → P s a → step s a = some s' →
      φ s + (if ev s a s' then 1 else 0) ≤ φ s')
    {s t : σ} {as : List α} (hs : Inv s) (hP : Along step P s as) (h : exec step s as = some t) :
    φ s + count step ev s as ≤ φ t := by
  induction as generalizing s with
  | nil =>
    cases h
    exact le_refl _
  | cons a as ih =>
    obtain ⟨s', hs', ht⟩ := exec_cons.mp h
    have hstep := hpay s a s' hs hP.1 hs'
    have hrest := ih (hkeep s a s' hs hP.1 hs') (hP.2 s' hs') ht
    simp only [count, hs']
    omega

/-! ## Sums over a table -/

variable {ρ : Type*} {p : ρ → Bool} {f : ρ → ρ} {φ : ρ → ℕ} {rows : List ρ}

theorem sum_le_update (h : ∀ r ∈ rows, p r = true → φ r ≤ φ (f r)) :
    (rows.map φ).sum ≤ ((RowTable.update p f rows).map φ).sum := by
  rw [RowTable.update, List.map_map]
  apply List.sum_le_sum
  intro r hr
  simp only [Function.comp_apply]
  split
  · rename_i hp
    exact h r hr hp
  · exact le_refl _

theorem sum_lt_update (h : ∀ r ∈ rows, p r = true → φ r ≤ φ (f r)) {r : ρ} (hr : r ∈ rows)
    (hp : p r = true) (hlt : φ r < φ (f r)) :
    (rows.map φ).sum < ((RowTable.update p f rows).map φ).sum := by
  rw [RowTable.update, List.map_map]
  apply List.sum_lt_sum
  · intro x hx
    simp only [Function.comp_apply]
    split
    · rename_i hpx
      exact h x hx hpx
    · exact le_refl _
  · refine ⟨r, hr, ?_⟩
    simp only [Function.comp_apply, hp, if_true]
    exact hlt

end Potential
