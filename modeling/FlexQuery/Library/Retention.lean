import Mathlib

/-!
# Keeping the first `n` of a table's rows

`DELETE … WHERE key IN (SELECT key … ORDER BY r OFFSET n)`.

* `overflow` — the rows after the first `n` in the order.
* `kept` — the rows whose key is not among theirs.
* `kept_perm` — when no two rows share a key, exactly the first `n` are kept.
* `kept_before_overflow` — so each row that goes has `n` kept ones before it.
-/

set_option autoImplicit false

namespace Retention

variable {ρ κ : Type*} (r : ρ → ρ → Prop) [DecidableRel r] (key : ρ → κ) [DecidableEq κ]

/-- `ORDER BY r OFFSET n`. -/
def overflow (n : ℕ) (rows : List ρ) : List ρ := (rows.insertionSort r).drop n

/-- The rows that are not deleted. -/
def kept (n : ℕ) (rows : List ρ) : List ρ :=
  rows.filter fun x => key x ∉ (overflow r n rows).map key

variable {r key} {n : ℕ} {rows : List ρ}

theorem overflow_eq_nil (h : rows.length ≤ n) : overflow r n rows = [] := by
  apply List.drop_eq_nil_of_le
  rw [List.length_insertionSort]
  exact h

theorem kept_perm (hkey : (rows.map key).Nodup) :
    (kept r key n rows).Perm ((rows.insertionSort r).take n) := by
  have hperm := List.perm_insertionSort r rows
  have hnodup : ((rows.insertionSort r).map key).Nodup := (hperm.map key).nodup_iff.mpr hkey
  have hsplit : (rows.insertionSort r).take n ++ overflow r n rows = rows.insertionSort r :=
    List.take_append_drop n _
  rw [← hsplit, List.map_append, List.nodup_append] at hnodup
  obtain ⟨_, _, hapart⟩ := hnodup
  have hfilter : (rows.insertionSort r).filter
      (fun x => key x ∉ (overflow r n rows).map key) = (rows.insertionSort r).take n := by
    conv_lhs => rw [← hsplit]
    rw [List.filter_append]
    have htake : ((rows.insertionSort r).take n).filter
        (fun x => key x ∉ (overflow r n rows).map key) = (rows.insertionSort r).take n := by
      rw [List.filter_eq_self]
      intro x hx
      apply decide_eq_true
      intro hmem
      exact hapart _ (List.mem_map_of_mem hx) _ hmem rfl
    have hdrop : (overflow r n rows).filter
        (fun x => key x ∉ (overflow r n rows).map key) = [] := by
      rw [List.filter_eq_nil_iff]
      intro x hx
      simpa using List.mem_map_of_mem hx
    rw [htake, hdrop, List.append_nil]
  rw [← hfilter]
  exact (hperm.symm.filter _)

/-- At most `n` rows are kept, and all of them when there are no more. -/
theorem length_kept (hkey : (rows.map key).Nodup) :
    (kept r key n rows).length = min n rows.length := by
  rw [(kept_perm hkey).length_eq, List.length_take, List.length_insertionSort]

/-- Every row that goes is outranked by every row that stays. -/
theorem kept_before_overflow [Std.Total r] [IsTrans ρ r] (hkey : (rows.map key).Nodup) {x y : ρ}
    (hx : x ∈ kept r key n rows) (hy : y ∈ overflow r n rows) : r x y := by
  have hsorted := List.pairwise_insertionSort r rows
  rw [← List.take_append_drop n (rows.insertionSort r), List.pairwise_append] at hsorted
  exact hsorted.2.2 x ((kept_perm hkey).mem_iff.mp hx) y hy

theorem length_kept_of_overflow (hkey : (rows.map key).Nodup) {y : ρ}
    (hy : y ∈ overflow r n rows) : (kept r key n rows).length = n := by
  have hlt : n < rows.length := by
    by_contra hle
    rw [overflow_eq_nil (Nat.le_of_not_lt hle)] at hy
    cases hy
  rw [length_kept hkey]
  omega

end Retention
