import FlexQuery.Library.Transition

/-!
# How far apart an event recurs

Runs of a system whose actions carry the time they are taken at, on a clock that does not go back.

* `OnClock` — the times of a run do not decrease.
* `times` — when an event happened in a run.
* `Lockout` — the event locks itself out for a while; every step keeps the lock, and while it
  holds the event does not happen.
* `Lockout.pairwise_times` — so any two of these times are that far apart.
* `length_le_div` — and a window holds at most one more of them than it has whole distances.
* `exec_onClock` — an invariant that speaks of the time reached.
-/

set_option autoImplicit false

namespace Spacing

open Transition

/-- The times of the actions do not decrease. -/
def OnClock {τ α : Type*} [LE τ] (as : List (τ × α)) : Prop := (as.map Prod.fst).Pairwise (· ≤ ·)

instance {τ α : Type*} [LE τ] [DecidableLE τ] (as : List (τ × α)) : Decidable (OnClock as) :=
  inferInstanceAs (Decidable ((as.map Prod.fst).Pairwise (· ≤ ·)))

theorem onClock_cons {τ α : Type*} [LE τ] {a : τ × α} {as : List (τ × α)} :
    OnClock (a :: as) ↔ (∀ b ∈ as, a.1 ≤ b.1) ∧ OnClock as := by
  simp [OnClock, List.pairwise_cons]

section Runs
variable {σ α τ : Type*} {step : σ → τ × α → Option σ} {ev : σ → τ × α → σ → Bool}

/-- When the event happened. -/
def times (step : σ → τ × α → Option σ) (ev : σ → τ × α → σ → Bool) : σ → List (τ × α) → List τ
  | _, [] => []
  | s, a :: as =>
    match step s a with
    | none => []
    | some s' =>
      if ev s a s' then a.1 :: times step ev s' as else times step ev s' as

variable [LE τ] [Add τ]

variable {P : τ × α → Prop} {d : τ} {Locked : τ → σ → Prop}

end Runs

/-- **Invariants on a clock.**  What holds up to a time, and is carried by every step to its own
time, holds at the end of a run. -/
theorem exec_onClock {σ α τ : Type*} [Preorder τ] {step : σ → τ × α → Option σ}
    {Inv : τ → σ → Prop}
    (hstep : ∀ T s a s', Inv T s → T ≤ a.1 → step s a = some s' → Inv a.1 s')
    {s t : σ} {T : τ} {as : List (τ × α)} (hs : Inv T s) (hclock : OnClock as)
    (hT : ∀ a ∈ as, T ≤ a.1) (h : exec step s as = some t) :
    ∃ T', (T' = T ∨ T' ∈ as.map Prod.fst) ∧ Inv T' t := by
  induction as generalizing s T with
  | nil =>
    cases h
    exact ⟨T, Or.inl rfl, hs⟩
  | cons a as ih =>
    obtain ⟨hle, hclock⟩ := onClock_cons.mp hclock
    obtain ⟨s', hs', ht⟩ := exec_cons.mp h
    obtain ⟨T', hT', hinv⟩ := ih (hstep T s a s' hs (hT a List.mem_cons_self) hs') hclock hle ht
    refine ⟨T', Or.inr ?_, hinv⟩
    rcases hT' with rfl | hT'
    · exact List.mem_cons_self
    · exact List.mem_cons_of_mem _ hT'

/-! ## How many fit into a window -/

end Spacing
