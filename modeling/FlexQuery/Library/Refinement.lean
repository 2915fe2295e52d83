import FlexQuery.Library.Transition

/-!
# A step function that refines another

Two systems given by partial, labelled step functions: a program, and what it is a program for.

* `Simulates` — a step of the program is a short run of the other, allowed by its label.
* `Simulates.exec` — so a run of the program is a run of the other, label by label.
* `labels_sublist` — what the labels of both show stays in order.
-/

set_option autoImplicit false

namespace Refinement

open Transition

variable {σ α τ β γ : Type*}

/-- From related states, what the program does is done by a run that its label allows, up to
related states. -/
def Simulates (prog : σ → α → Option σ) (spec : τ → β → Option τ) (R : σ → τ → Prop)
    (allows : α → List β → Prop) : Prop :=
  ∀ s a s' t, R s t → prog s a = some s' →
    ∃ bs t', allows a bs ∧ exec spec t bs = some t' ∧ R s' t'

/-- **Runs.** -/
theorem Simulates.exec {prog : σ → α → Option σ} {spec : τ → β → Option τ} {R : σ → τ → Prop}
    {allows : α → List β → Prop} (hsim : Simulates prog spec R allows) {s s' : σ} {t : τ}
    {as : List α} (hR : R s t) (h : Transition.exec prog s as = some s') :
    ∃ bss t', List.Forall₂ allows as bss ∧ Transition.exec spec t bss.flatten = some t' ∧
      R s' t' := by
  induction as generalizing s t with
  | nil =>
    cases h
    exact ⟨[], t, .nil, rfl, hR⟩
  | cons a as ih =>
    obtain ⟨u, hu, hrest⟩ := exec_cons.mp h
    obtain ⟨bs, v, hbs, hv, hRu⟩ := hsim s a u t hR hu
    obtain ⟨bss, t', hbss, ht', hR'⟩ := ih hRu hrest
    refine ⟨bs :: bss, t', .cons hbs hbss, ?_, hR'⟩
    rw [List.flatten_cons, exec_append]
    exact ⟨v, hv, ht'⟩

/-- Where a label allows at most one that shows the same, the run shows a part of what the program
shows. -/
theorem labels_sublist {allows : α → List β → Prop} {f : α → γ} {g : β → γ}
    (hallows : ∀ a bs, allows a bs → (bs.map g).Sublist [f a]) {as : List α} {bss : List (List β)}
    (h : List.Forall₂ allows as bss) : (bss.flatten.map g).Sublist (as.map f) := by
  induction h with
  | nil => exact List.Sublist.refl _
  | cons hab _ ih =>
    rw [List.flatten_cons, List.map_append, List.map_cons]
    exact (hallows _ _ hab).append ih

end Refinement
