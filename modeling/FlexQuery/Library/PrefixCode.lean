import Mathlib

/-!
# Texts that end where they end

A `code` writes values as texts, and a text may be followed by another.  `Splits`: from the text
of a value with what follows it, both can be told.

* `run_inj` — a run of symbols ends at the first symbol that is not one of them.
* `flatMap_inj` — values written one after the other up to a closing symbol.
* `bracketed_inj` — values between brackets, with a separator.
-/

set_option autoImplicit false

namespace PrefixCode

variable {α χ : Type*}

/-- A text that starts like that of `a` is that of a value like `a`, followed by the same. -/
def Splits (code : α → List χ) (Follows : List χ → Prop) (Valid : α → Prop)
    (Same : α → α → Prop) (a : α) : Prop :=
  ∀ b, Valid b → ∀ r r', Follows r → Follows r' → code a ++ r = code b ++ r' →
    Same a b ∧ r = r'

/-- Two runs, each ended by a symbol that cannot be part of it. -/
theorem run_inj {p : χ → Bool} {a b r r' : List χ} (ha : ∀ c ∈ a, p c = true)
    (hb : ∀ c ∈ b, p c = true) (hr : ∀ c ∈ r.head?, p c = false)
    (hr' : ∀ c ∈ r'.head?, p c = false) (h : a ++ r = b ++ r') : a = b ∧ r = r' := by
  induction a generalizing b with
  | nil =>
    cases b with
    | nil => exact ⟨rfl, h⟩
    | cons y b =>
      have hstop := hr y (by rw [List.nil_append] at h; rw [h]; rfl)
      rw [hb y List.mem_cons_self] at hstop
      cases hstop
  | cons x a ih =>
    cases b with
    | nil =>
      have hstop := hr' x (by rw [List.nil_append] at h; rw [← h]; rfl)
      rw [ha x List.mem_cons_self] at hstop
      cases hstop
    | cons y b =>
      rw [List.cons_append, List.cons_append, List.cons.injEq] at h
      obtain ⟨rfl, hrest⟩ := h
      obtain ⟨rfl, hsame⟩ := ih (fun c hc => ha c (List.mem_cons_of_mem _ hc))
        (fun c hc => hb c (List.mem_cons_of_mem _ hc)) hrest
      exact ⟨rfl, hsame⟩

section Lists
variable {code : α → List χ} {Follows : List χ → Prop} {Valid : α → Prop} {Same : α → α → Prop}
  {sep stop : χ}

/-- The text of a value does not start with the symbol. -/
def NeverOpens (code : α → List χ) (stop : χ) (a : α) : Prop :=
  ∃ c text, code a = c :: text ∧ c ≠ stop

theorem NeverOpens.ne {a : α} {text r r' : List χ} (h : NeverOpens code stop a) :
    code a ++ text ++ r ≠ stop :: r' := by
  obtain ⟨c, body, hcode, hne⟩ := h
  rw [hcode]
  intro hsame
  exact hne (List.cons.inj hsame).1

/-- Values one after the other, up to the closing symbol. -/
theorem flatMap_inj (hopens : ∀ a, NeverOpens code stop a)
    (hsplits : ∀ a, Splits code (fun _ => True) (fun _ => True) Eq a) {l l' : List α}
    {r r' : List χ} (h : l.flatMap code ++ stop :: r = l'.flatMap code ++ stop :: r') :
    l = l' ∧ r = r' := by
  induction l generalizing l' with
  | nil =>
    cases l' with
    | nil => exact ⟨rfl, (List.cons.inj h).2⟩
    | cons b l' =>
      rw [List.flatMap_cons] at h
      exact absurd h.symm (hopens b).ne
  | cons a l ih =>
    cases l' with
    | nil =>
      rw [List.flatMap_cons] at h
      exact absurd h (hopens a).ne
    | cons b l' =>
      rw [List.flatMap_cons, List.flatMap_cons, List.append_assoc, List.append_assoc] at h
      obtain ⟨rfl, hrest⟩ := hsplits a b trivial _ _ trivial trivial h
      obtain ⟨rfl, hsame⟩ := ih hrest
      exact ⟨rfl, hsame⟩

/-! ## Bracketed lists -/

/-- The texts between two brackets, separated. -/
def bracketed (start sep stop : χ) (texts : List (List χ)) : List χ :=
  start :: ([sep].intercalate texts ++ [stop])

theorem intercalate_cons (sep : χ) (a : α) (l : List α) :
    [sep].intercalate ((a :: l).map code) = code a ++ l.flatMap fun x => sep :: code x := by
  induction l generalizing a with
  | nil => simp
  | cons b l ih => rw [List.map_cons, List.map_cons, List.intercalate_cons_cons, ← List.map_cons,
      ih, List.flatMap_cons, List.append_assoc, List.cons_append, List.cons_append, List.nil_append]

/-- What follows a value of a list: the values after it, each behind a separator. -/
def following (code : α → List χ) (sep stop : χ) (l : List α) (r : List χ) : List χ :=
  (l.flatMap fun x => sep :: code x) ++ stop :: r

theorem following_cons (a : α) (l : List α) (r : List χ) :
    following code sep stop (a :: l) r = sep :: (code a ++ following code sep stop l r) := by
  simp [following, List.flatMap_cons]

theorem following_follows (hsep : ∀ r, Follows (sep :: r)) (hstop : ∀ r, Follows (stop :: r))
    (l : List α) (r : List χ) : Follows (following code sep stop l r) := by
  cases l with
  | nil => exact hstop r
  | cons a l => exact hsep _

theorem following_inj (hne : sep ≠ stop) (hsep : ∀ r, Follows (sep :: r))
    (hstop : ∀ r, Follows (stop :: r)) {l l' : List α} {r r' : List χ}
    (hl : ∀ a ∈ l, Splits code Follows Valid Same a) (hl' : ∀ b ∈ l', Valid b)
    (h : following code sep stop l r = following code sep stop l' r') :
    List.Forall₂ Same l l' ∧ r = r' := by
  induction l generalizing l' with
  | nil =>
    cases l' with
    | nil => exact ⟨List.Forall₂.nil, (List.cons.inj h).2⟩
    | cons b l' => exact absurd (List.cons.inj h).1.symm hne
  | cons a l ih =>
    cases l' with
    | nil => exact absurd (List.cons.inj h).1 hne
    | cons b l' =>
      rw [following_cons, following_cons] at h
      obtain ⟨hsame, hrest⟩ := hl a List.mem_cons_self b (hl' b List.mem_cons_self) _ _
        (following_follows hsep hstop l r) (following_follows hsep hstop l' r') (List.cons.inj h).2
      obtain ⟨hall, hr⟩ := ih (fun x hx => hl x (List.mem_cons_of_mem _ hx))
        (fun x hx => hl' x (List.mem_cons_of_mem _ hx)) hrest
      exact ⟨List.Forall₂.cons hsame hall, hr⟩

/-- Two bracketed lists with the same text, followed by anything. -/
theorem bracketed_inj {start : χ} (hne : sep ≠ stop) (hsep : ∀ r, Follows (sep :: r))
    (hstop : ∀ r, Follows (stop :: r)) (hopens : ∀ a, Valid a → NeverOpens code stop a)
    {l l' : List α} {r r' : List χ} (hl : ∀ a ∈ l, Valid a ∧ Splits code Follows Valid Same a)
    (hl' : ∀ b ∈ l', Valid b)
    (h : bracketed start sep stop (l.map code) ++ r =
      bracketed start sep stop (l'.map code) ++ r') :
    List.Forall₂ Same l l' ∧ r = r' := by
  have htexts : [sep].intercalate (l.map code) ++ stop :: r =
      [sep].intercalate (l'.map code) ++ stop :: r' := by
    simpa [bracketed] using h
  cases l with
  | nil =>
    cases l' with
    | nil => exact ⟨List.Forall₂.nil, (List.cons.inj htexts).2⟩
    | cons b l' =>
      rw [intercalate_cons] at htexts
      exact absurd htexts.symm (hopens b (hl' b List.mem_cons_self)).ne
  | cons a l =>
    cases l' with
    | nil =>
      rw [intercalate_cons] at htexts
      exact absurd htexts (hopens a (hl a List.mem_cons_self).1).ne
    | cons b l' =>
      -- a separator in front makes both lists what follows a value
      have hfollowing : following code sep stop (a :: l) r =
          following code sep stop (b :: l') r' := by
        rw [intercalate_cons, intercalate_cons] at htexts
        simpa [following] using htexts
      exact following_inj hne hsep hstop (fun x hx => (hl x hx).2) hl' hfollowing

end Lists

end PrefixCode
