import Mathlib

/-!
# Patterns in a text that is put together

* `infix_append_cons_iff` — a pattern cannot cross an element it does not contain.
* `infix_cons_iff_of_head`, `infix_concat_iff_of_last` — nor reach out over an element it does not
  begin or end with.
* `not_infix_of_not_mem` — a pattern needs each of its elements.
-/

set_option autoImplicit false

namespace Infix

variable {α : Type*} {k a b : List α} {x : α}

theorem infix_append_cons_iff (hk : k ≠ []) (hx : x ∉ k) :
    k <:+: a ++ x :: b ↔ k <:+: a ∨ k <:+: b := by
  rw [List.infix_append_iff, List.infix_cons_iff]
  constructor
  · rintro (h | (h | h) | ⟨p, s, rfl, hp, hs⟩)
    · exact Or.inl h
    · obtain rfl | ⟨t, rfl, _⟩ := List.prefix_cons_iff.mp h
      · exact absurd rfl hk
      · exact absurd List.mem_cons_self hx
    · exact Or.inr h
    · obtain rfl | ⟨t, rfl, _⟩ := List.prefix_cons_iff.mp hs
      · rw [List.append_nil]
        exact Or.inl hp.isInfix
      · exact absurd (List.mem_append_right p List.mem_cons_self) hx
  · rintro (h | h)
    · exact Or.inl h
    · exact Or.inr (Or.inl (Or.inr h))

theorem infix_cons_iff_of_head (hk : k ≠ []) (hx : k.head? ≠ some x) :
    k <:+: x :: b ↔ k <:+: b := by
  rw [List.infix_cons_iff]
  constructor
  · rintro (h | h)
    · obtain rfl | ⟨t, rfl, _⟩ := List.prefix_cons_iff.mp h
      · exact absurd rfl hk
      · exact absurd rfl hx
    · exact h
  · exact Or.inr

theorem infix_concat_iff_of_last (hk : k ≠ []) (hx : k.getLast? ≠ some x) :
    k <:+: a ++ [x] ↔ k <:+: a := by
  rw [List.infix_concat_iff]
  constructor
  · rintro (h | h)
    · obtain rfl | ⟨t, rfl, _⟩ := List.suffix_concat_iff.mp h
      · exact absurd rfl hk
      · exact absurd List.getLast?_concat hx
    · exact h
  · exact Or.inr

theorem not_infix_of_not_mem (hk : x ∈ k) (ha : x ∉ a) : ¬ k <:+: a :=
  fun h => ha (h.subset hk)

end Infix
