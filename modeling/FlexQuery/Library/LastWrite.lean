import FlexQuery.Library.Transition

/-!
# The newest of the times that were written

A table of times, one for each subject, that some steps of a system write the present into.

* `Newest` — the greatest time of the table, if there is one.
* `Stamped` — what a step does to the table.
* `newest_last` — along a run whose times do not go back it is the time of the last write.
* `newest_none` — and there is none until something is written.
-/

set_option autoImplicit false

namespace LastWrite

open Transition

variable {σ α κ τ : Type}

/-- None for a table without times, and otherwise the greatest of them. -/
def Newest [LE τ] (latest : κ → Option τ) : Option τ → Prop
  | none => ∀ k, latest k = none
  | some t => (∃ k, latest k = some t) ∧ ∀ k t', latest k = some t' → t' ≤ t

section Run
variable [DecidableEq κ] {step : σ → α → Option σ} {latest : σ → κ → Option τ} {time : α → τ}
  {wrote : σ → α → Option κ}

/-- A step writes its time for one subject, or leaves the table as it is. -/
def Stamped (step : σ → α → Option σ) (latest : σ → κ → Option τ) (time : α → τ)
    (wrote : σ → α → Option κ) : Prop :=
  ∀ s a s', step s a = some s' → latest s' =
    match wrote s a with
    | none => latest s
    | some k => Function.update (latest s) k (some (time a))

/-- Every time in the table is that of a step, or was there before. -/
theorem latest_of_run (hwrites : Stamped step latest time wrote) {s s' : σ} {as : List α}
    (h : exec step s as = some s') {k : κ} {t : τ} (ht : latest s' k = some t) :
    latest s k = some t ∨ ∃ a ∈ as, time a = t := by
  induction as generalizing s with
  | nil =>
    cases h
    exact Or.inl ht
  | cons a as ih =>
    obtain ⟨u, hu, hrest⟩ := exec_cons.mp h
    rcases ih hrest with hlatest | ⟨b, hb, rfl⟩
    · rw [hwrites s a u hu] at hlatest
      cases hwrote : wrote s a with
      | none =>
        simp only [hwrote] at hlatest
        exact Or.inl hlatest
      | some k' =>
        simp only [hwrote] at hlatest
        by_cases hk : k = k'
        · rw [hk, Function.update_self] at hlatest
          exact Or.inr ⟨a, List.mem_cons_self, Option.some.inj hlatest⟩
        · rw [Function.update_of_ne hk] at hlatest
          exact Or.inl hlatest
    · exact Or.inr ⟨b, List.mem_cons_of_mem a hb, rfl⟩

/-- Steps that write nothing leave the table as it is. -/
theorem latest_quiet (hwrites : Stamped step latest time wrote) {s s' : σ} {as : List α}
    (hquiet : Along step (fun u a => wrote u a = none) s as) (h : exec step s as = some s') :
    latest s' = latest s := by
  have hstep : ∀ u a u', latest u = latest s → wrote u a = none → step u a = some u' →
      latest u' = latest s := by
    intro u a u' hu hnone hu'
    rw [hwrites u a u' hu', hnone]
    exact hu
  exact exec_invariant hstep rfl hquiet h

/-- **Nothing written**, nothing newest. -/
theorem newest_none [LE τ] (hwrites : Stamped step latest time wrote) {s s' : σ} {as : List α}
    (hempty : ∀ k, latest s k = none)
    (hquiet : Along step (fun u a => wrote u a = none) s as) (h : exec step s as = some s') :
    Newest (latest s') none := by
  rw [latest_quiet hwrites hquiet h]
  exact hempty

/-- **The last write** has the newest time, on a clock that does not go back. -/
theorem newest_last [Preorder τ] (hwrites : Stamped step latest time wrote) {s u v s' : σ}
    {pre post : List α} {a : α} (hempty : ∀ k, latest s k = none)
    (hclock : ∀ b ∈ pre, time b ≤ time a) (hpre : exec step s pre = some u)
    {k : κ} (hwrote : wrote u a = some k) (ha : step u a = some v)
    (hquiet : Along step (fun x b => wrote x b = none) v post) (hpost : exec step v post = some s') :
    Newest (latest s') (some (time a)) := by
  have hbefore : ∀ k' t, latest u k' = some t → t ≤ time a := by
    intro k' t ht
    rcases latest_of_run hwrites hpre ht with hnone | ⟨b, hb, rfl⟩
    · rw [hempty k'] at hnone
      cases hnone
    · exact hclock b hb
  rw [latest_quiet hwrites hquiet hpost, hwrites u a v ha, hwrote]
  refine ⟨⟨k, Function.update_self ..⟩, ?_⟩
  intro k' t ht
  by_cases hk : k' = k
  · rw [hk] at ht
    simp only [Function.update_self] at ht
    exact le_of_eq (Option.some.inj ht).symm
  · simp only [Function.update_of_ne hk] at ht
    exact hbefore k' t ht

end Run

/-- The newest time of a table is the maximum of its rows. -/
theorem Newest.max_eq {ρ : Type} [LinearOrder τ] {latest : κ → Option τ} {o : Option τ}
    (h : Newest latest o) {rows : List ρ} {time : ρ → Option τ}
    (hrows : ∀ t, t ∈ rows.filterMap time ↔ ∃ k, latest k = some t) :
    (rows.filterMap time).max? = o := by
  cases o with
  | none =>
    rw [List.max?_eq_none_iff, List.eq_nil_iff_forall_not_mem]
    intro t ht
    obtain ⟨k, hk⟩ := (hrows t).mp ht
    rw [h k] at hk
    cases hk
  | some t =>
    have : Std.LawfulOrderMax τ :=
      .of_max_le_iff (fun _ _ _ => max_le_iff) (fun a b => max_choice a b)
    rw [List.max?_eq_some_iff]
    refine ⟨(hrows t).mpr h.1, ?_⟩
    intro t' ht'
    obtain ⟨k, hk⟩ := (hrows t').mp ht'
    exact h.2 k t' hk

end LastWrite
