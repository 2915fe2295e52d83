import Mathlib

/-!
# Runs of a partial, labelled step function

A system is a function `step : σ → α → Option σ`; `none` says the action is not enabled.

* `exec` — take a list of actions in order.
* `Along P` — every step of the run meets `P`, a condition on the action **and on the state
  it is taken in**.
* `along_congr` — two conditions that agree wherever an invariant holds.
* `exec_invariant` — an invariant kept by every step that meets the condition holds at the end.
* `exec_kept` — the same for an invariant that every step keeps.
* `exec_relation` — a reflexive transitive relation kept by every step relates both ends.
* `along_iff_invariant` — when the condition is exactly what keeps the invariant.
-/

set_option autoImplicit false

namespace Transition

variable {σ α : Type*} {step : σ → α → Option σ}

/-- Take the actions in order; `none` as soon as one of them is not enabled. -/
def exec (step : σ → α → Option σ) : σ → List α → Option σ
  | s, [] => some s
  | s, a :: as =>
    match step s a with
    | none => none
    | some s' => exec step s' as

/-- Every step of the run meets `P` in the state it is taken in. -/
def Along (step : σ → α → Option σ) (P : σ → α → Prop) : σ → List α → Prop
  | _, [] => True
  | s, a :: as => P s a ∧ ∀ s', step s a = some s' → Along step P s' as

theorem exec_cons {s t : σ} {a : α} {as : List α} :
    exec step s (a :: as) = some t ↔ ∃ s', step s a = some s' ∧ exec step s' as = some t := by
  simp only [exec]
  cases hs : step s a <;> simp

theorem exec_append {s t : σ} {as bs : List α} :
    exec step s (as ++ bs) = some t ↔ ∃ u, exec step s as = some u ∧ exec step u bs = some t := by
  induction as generalizing s with
  | nil => simp [exec]
  | cons a as ih =>
    simp only [List.cons_append, exec_cons, ih]
    constructor
    · rintro ⟨s', hs, u, hu, ht⟩; exact ⟨u, ⟨s', hs, hu⟩, ht⟩
    · rintro ⟨u, ⟨s', hs, hu⟩, ht⟩; exact ⟨s', hs, u, hu, ht⟩

/-- A condition that the actions meet in whatever state. -/
theorem Along.of_forall {P : σ → α → Prop} (s : σ) {as : List α} (h : ∀ a ∈ as, ∀ u, P u a) :
    Along step P s as := by
  induction as generalizing s with
  | nil => trivial
  | cons a as ih =>
    exact ⟨h a List.mem_cons_self s,
      fun s' _ => ih s' fun b hb => h b (List.mem_cons_of_mem _ hb)⟩

theorem Along.append {P : σ → α → Prop} {s : σ} {as bs : List α} :
    Along step P s (as ++ bs) ↔
      Along step P s as ∧ ∀ u, exec step s as = some u → Along step P u bs := by
  induction as generalizing s with
  | nil => simp [Along, exec]
  | cons a as ih =>
    simp only [List.cons_append, Along, ih, exec_cons]
    constructor
    · rintro ⟨ha, h⟩
      exact ⟨⟨ha, fun s' hs => (h s' hs).1⟩, fun u ⟨s', hs, hu⟩ => (h s' hs).2 u hu⟩
    · rintro ⟨⟨ha, h₁⟩, h₂⟩
      exact ⟨ha, fun s' hs => ⟨h₁ s' hs, fun u hu => h₂ u ⟨s', hs, hu⟩⟩⟩

/-- **Two conditions** that say the same wherever the invariant holds, if the first one keeps it. -/
theorem along_congr {P Q : σ → α → Prop} {Inv : σ → Prop}
    (hiff : ∀ s a, Inv s → (P s a ↔ Q s a))
    (hstep : ∀ s a s', Inv s → P s a → step s a = some s' → Inv s') {s : σ} {as : List α}
    (hs : Inv s) : Along step P s as ↔ Along step Q s as := by
  induction as generalizing s with
  | nil => exact Iff.rfl
  | cons a as ih =>
    constructor
    · rintro ⟨hP, hrest⟩
      exact ⟨(hiff s a hs).mp hP, fun s' hs' => (ih (hstep s a s' hs hP hs')).mp (hrest s' hs')⟩
    · rintro ⟨hQ, hrest⟩
      have hP := (hiff s a hs).mpr hQ
      exact ⟨hP, fun s' hs' => (ih (hstep s a s' hs hP hs')).mpr (hrest s' hs')⟩

/-- **Invariants.** What every step meeting `P` keeps holds after a run meeting `P`. -/
theorem exec_invariant {P : σ → α → Prop} {Inv : σ → Prop}
    (hstep : ∀ s a s', Inv s → P s a → step s a = some s' → Inv s') {s t : σ} {as : List α}
    (hs : Inv s) (hP : Along step P s as) (h : exec step s as = some t) : Inv t := by
  induction as generalizing s with
  | nil => cases h; exact hs
  | cons a as ih =>
    obtain ⟨s', hs', ht⟩ := exec_cons.mp h
    exact ih (hstep s a s' hs hP.1 hs') (hP.2 s' hs') ht

/-- The same where every step keeps it, whatever the action. -/
theorem exec_kept (Inv : σ → Prop) (hstep : ∀ s a s', Inv s → step s a = some s' → Inv s')
    {s t : σ} {as : List α} (hs : Inv s) (h : exec step s as = some t) : Inv t := by
  have hall : Along step (fun _ _ => True) s as := Along.of_forall s fun _ _ _ => trivial
  exact exec_invariant (fun s a s' hinv _ hs' => hstep s a s' hinv hs') hs hall h

/-- **Relations.** A reflexive transitive relation that every step keeps (where the invariant
and the condition hold) relates the two ends of a run. -/
theorem exec_relation {P : σ → α → Prop} {Inv : σ → Prop} {R : σ → σ → Prop}
    (hstep : ∀ s a s', Inv s → P s a → step s a = some s' → Inv s' ∧ R s s')
    (hrefl : ∀ s, R s s) (htrans : ∀ s t u, R s t → R t u → R s u) {s t : σ} {as : List α}
    (hs : Inv s) (hP : Along step P s as) (h : exec step s as = some t) : R s t := by
  induction as generalizing s with
  | nil => cases h; exact hrefl _
  | cons a as ih =>
    obtain ⟨s', hs', ht⟩ := exec_cons.mp h
    obtain ⟨hi, hr⟩ := hstep s a s' hs hP.1 hs'
    exact htrans s s' t hr (ih hi (hP.2 s' hs') ht)

/-- **Exact conditions.**  If a step from a state with `Inv` keeps `Inv` exactly when it meets
`P`, then a run stays inside `Inv` exactly when all its steps meet `P`. -/
theorem along_iff_invariant {P : σ → α → Prop} {Inv : σ → Prop}
    {as : List α} (hstep : ∀ s a s', a ∈ as → Inv s → step s a = some s' → (Inv s' ↔ P s a))
    {s t : σ} (hs : Inv s) (h : exec step s as = some t) :
    (∀ pre post u, as = pre ++ post → exec step s pre = some u → Inv u) ↔ Along step P s as := by
  induction as generalizing s with
  | nil =>
    refine ⟨fun _ => trivial, fun _ pre post u hsplit hu => ?_⟩
    obtain ⟨rfl, _⟩ := List.append_eq_nil_iff.mp hsplit.symm
    cases hu
    exact hs
  | cons a as ih =>
    obtain ⟨s', hs', ht⟩ := exec_cons.mp h
    have hrest := fun hs₁ : Inv s' =>
      ih (fun u b u' hb => hstep u b u' (List.mem_cons_of_mem _ hb)) hs₁ ht
    constructor
    · intro hall
      have hnext : Inv s' := hall [a] as s' rfl (exec_cons.mpr ⟨s', hs', rfl⟩)
      refine ⟨(hstep s a s' List.mem_cons_self hs hs').mp hnext, ?_⟩
      intro u hu
      rw [hs'] at hu
      cases hu
      apply (hrest hnext).mp
      rintro pre post u rfl hu
      exact hall (a :: pre) post u rfl (exec_cons.mpr ⟨s', hs', hu⟩)
    · rintro ⟨hP, halong⟩ pre post u hsplit hu
      have hnext : Inv s' := (hstep s a s' List.mem_cons_self hs hs').mpr hP
      cases pre with
      | nil =>
        cases hu
        exact hs
      | cons b pre =>
        obtain ⟨rfl, rfl⟩ := List.cons.inj hsplit
        obtain ⟨v, hv, hu⟩ := exec_cons.mp hu
        rw [hs'] at hv
        cases hv
        exact (hrest hnext).mpr (halong s' hs') pre post u rfl hu

end Transition
