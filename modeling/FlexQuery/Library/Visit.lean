import Mathlib

/-!
# A loop over requests that share a log

* `visit` — one turn after the other; a failure is recorded and the loop goes on, an exception
  that escapes ends it.
* `visit_turns` — every turn is the body run at its own key, from the log as it found it.
* `visit_keys` — the keys come in order, and all of them do unless an exception escaped.
* `visit_reaches` — a key without a turn comes after one whose exception escaped.
* `visit_log` — if the body only appends, the log is what it was and then each turn's own part.
* `visit_related` — two loops whose bodies agree on related keys and logs agree.
-/

set_option autoImplicit false

namespace Visit

variable {κ α ε σ : Type}

/-- What one turn came to. -/
inductive Outcome (α ε : Type) where
  | ok (a : α)
  | failed (text : String)
  | escaped (e : ε)
  deriving DecidableEq, Repr

namespace Outcome

def ok? : Outcome α ε → Option α
  | ok a => some a
  | _ => none

def failed? : Outcome α ε → Option String
  | failed text => some text
  | _ => none

def escaped? : Outcome α ε → Option ε
  | escaped e => some e
  | _ => none

end Outcome

/-- One turn: what was asked, the log before and after, and what it came to. -/
structure Turn (κ α ε σ : Type) where
  key : κ
  before : List σ
  after : List σ
  outcome : Outcome α ε

/-- The part of the log the turn wrote. -/
def Turn.part (t : Turn κ α ε σ) : List σ := t.after.drop t.before.length

def visit (body : κ → List σ → Outcome α ε × List σ) :
    List κ → List σ → List (Turn κ α ε σ) × List σ
  | [], log => ([], log)
  | k :: ks, log =>
    match body k log with
    | (.escaped e, log') => ([⟨k, log, log', .escaped e⟩], log')
    | (o, log') => (⟨k, log, log', o⟩ :: (visit body ks log').1, (visit body ks log').2)

/-- The exception that ended the loop. -/
def escapedOf (turns : List (Turn κ α ε σ)) : Option ε :=
  turns.findSome? fun t => t.outcome.escaped?

/-- A turn by its place in the list of keys and outcomes. -/
theorem exists_turn {turns : List (Turn κ α ε σ)} {l : List (κ × Outcome α ε)} {k : κ}
    {o : Outcome α ε} (h : turns.map (fun t => (t.key, t.outcome)) = l) (hmem : (k, o) ∈ l) :
    ∃ t ∈ turns, t.key = k ∧ t.outcome = o := by
  rw [← h] at hmem
  obtain ⟨t, ht, hpair⟩ := List.mem_map.mp hmem
  exact ⟨t, ht, (Prod.mk.inj hpair).1, (Prod.mk.inj hpair).2⟩

variable {body : κ → List σ → Outcome α ε × List σ}

/-- One round of the loop. -/
theorem visit_cons (k : κ) (ks : List κ) (log : List σ) :
    visit body (k :: ks) log =
      if (body k log).1.escaped?.isSome then
        ([⟨k, log, (body k log).2, (body k log).1⟩], (body k log).2)
      else (⟨k, log, (body k log).2, (body k log).1⟩ :: (visit body ks (body k log).2).1,
        (visit body ks (body k log).2).2) := by
  simp only [visit]
  cases hb : body k log with
  | mk o log' => cases o <;> rfl

theorem visit_turns {ks : List κ} {log : List σ} :
    ∀ t ∈ (visit body ks log).1, t.key ∈ ks ∧ body t.key t.before = (t.outcome, t.after) := by
  induction ks generalizing log with
  | nil => nofun
  | cons k ks ih =>
    intro t ht
    rw [visit_cons] at ht
    split at ht
    · rw [List.mem_singleton] at ht
      rw [ht]
      exact ⟨List.mem_cons_self, rfl⟩
    · rcases List.mem_cons.mp ht with h | h
      · rw [h]
        exact ⟨List.mem_cons_self, rfl⟩
      · obtain ⟨hkey, hbody⟩ := ih t h
        exact ⟨List.mem_cons_of_mem _ hkey, hbody⟩

theorem visit_keys (ks : List κ) (log : List σ) :
    (visit body ks log).1.map Turn.key <+: ks ∧
      (escapedOf (visit body ks log).1 = none → (visit body ks log).1.map Turn.key = ks) := by
  induction ks generalizing log with
  | nil => exact ⟨List.prefix_rfl, fun _ => rfl⟩
  | cons k ks ih =>
    obtain ⟨hpre, hall⟩ := ih (body k log).2
    rw [visit_cons]
    split
    · rename_i h
      obtain ⟨e, he⟩ := Option.isSome_iff_exists.mp h
      refine ⟨⟨ks, rfl⟩, ?_⟩
      intro hnone
      simp [escapedOf, he] at hnone
    · rename_i h
      rw [Option.not_isSome_iff_eq_none] at h
      refine ⟨(List.prefix_cons_inj k).mpr hpre, ?_⟩
      intro hnone
      simp only [escapedOf, List.findSome?_cons, h] at hnone
      rw [List.map_cons, hall hnone]

/-- What a turn wrote, if its body only appends. -/
theorem part_eq {t : Turn κ α ε σ} {part : List σ} (ht : body t.key t.before = (t.outcome, t.after))
    (h : (body t.key t.before).2 = t.before ++ part) : t.part = part := by
  rw [ht] at h
  unfold Turn.part
  rw [show t.after = t.before ++ part from h, List.drop_left]

/-- Each key has its turn, unless an exception escaped from an earlier one. -/
theorem visit_reaches {ks : List κ} {log : List σ} {k : κ} (h : k ∈ ks) :
    (∃ t ∈ (visit body ks log).1, t.key = k) ∨
      ∃ t ∈ (visit body ks log).1, (∃ e, t.outcome = .escaped e) ∧ [t.key, k].Sublist ks := by
  induction ks generalizing log with
  | nil => cases h
  | cons k' ks ih =>
    rw [visit_cons]
    split
    · rename_i hesc
      rcases List.mem_cons.mp h with hk | hk
      · exact Or.inl ⟨_, List.mem_cons_self, hk.symm⟩
      · refine Or.inr ⟨_, List.mem_cons_self, ?_, (List.singleton_sublist.mpr hk).cons_cons k'⟩
        cases ho : (body k' log).1 with
        | ok a =>
          rw [ho] at hesc
          cases hesc
        | failed text =>
          rw [ho] at hesc
          cases hesc
        | escaped e => exact ⟨e, rfl⟩
    · rcases List.mem_cons.mp h with hk | hk
      · exact Or.inl ⟨_, List.mem_cons_self, hk.symm⟩
      · rcases ih hk with ⟨t, ht, hkey⟩ | ⟨t, ht, hesc, hsub⟩
        · exact Or.inl ⟨t, List.mem_cons_of_mem _ ht, hkey⟩
        · exact Or.inr ⟨t, List.mem_cons_of_mem _ ht, hesc, hsub.cons k'⟩

theorem visit_log (happend : ∀ k log, log <+: (body k log).2) (ks : List κ) (log : List σ) :
    (visit body ks log).2 = log ++ (visit body ks log).1.flatMap Turn.part := by
  induction ks generalizing log with
  | nil => exact (List.append_nil log).symm
  | cons k ks ih =>
    obtain ⟨part, hpart⟩ := happend k log
    have hdrop : (body k log).2.drop log.length = part := by
      rw [← hpart]
      exact List.drop_left
    rw [visit_cons]
    split
    · simp only [List.flatMap_cons, List.flatMap_nil, Turn.part, hdrop, List.append_nil]
      exact hpart.symm
    · simp only [List.flatMap_cons]
      rw [ih]
      simp only [Turn.part, hdrop]
      rw [← List.append_assoc, hpart]

/-! ## Two loops -/

section Related
variable {κ' : Type} {body' : κ' → List σ → Outcome α ε × List σ} {keys : κ → κ' → Prop}
  {logs : List σ → List σ → Prop}

/-- Turns with related keys that came to the same. -/
def Same (keys : κ → κ' → Prop) (t : Turn κ α ε σ) (t' : Turn κ' α ε σ) : Prop :=
  keys t.key t'.key ∧ t.outcome = t'.outcome

/-- If one turn comes to the same for related keys and logs, the loop does. -/
theorem visit_related (hbody : ∀ k k' l l', keys k k' → logs l l' →
      (body k l).1 = (body' k' l').1 ∧ logs (body k l).2 (body' k' l').2)
    {ks : List κ} {ks' : List κ'} (hks : List.Forall₂ keys ks ks') {l l' : List σ}
    (hl : logs l l') :
    List.Forall₂ (Same keys) (visit body ks l).1 (visit body' ks' l').1 ∧
      logs (visit body ks l).2 (visit body' ks' l').2 := by
  induction hks generalizing l l' with
  | nil => exact ⟨.nil, hl⟩
  | cons hk _ ih =>
    obtain ⟨ho, hlogs⟩ := hbody _ _ _ _ hk hl
    rw [visit_cons, visit_cons, ← ho]
    split
    · exact ⟨.cons ⟨hk, rfl⟩ .nil, hlogs⟩
    · obtain ⟨hturns, hrest⟩ := ih hlogs
      exact ⟨.cons ⟨hk, rfl⟩ hturns, hrest⟩

theorem escapedOf_related {ts : List (Turn κ α ε σ)} {ts' : List (Turn κ' α ε σ)}
    (h : List.Forall₂ (Same keys) ts ts') : escapedOf ts = escapedOf ts' := by
  induction h with
  | nil => rfl
  | cons hsame _ ih =>
    simp only [escapedOf, List.findSome?_cons, hsame.2]
    cases Outcome.escaped? _ with
    | none => exact ih
    | some e => rfl

/-- What is put together from the turns' keys and outcomes, the same for related ones. -/
theorem filterMap_related {β : Type} {f : Turn κ α ε σ → Option β} {f' : Turn κ' α ε σ → Option β}
    (hf : ∀ t t', Same keys t t' → f t = f' t') {ts : List (Turn κ α ε σ)}
    {ts' : List (Turn κ' α ε σ)} (h : List.Forall₂ (Same keys) ts ts') :
    ts.filterMap f = ts'.filterMap f' := by
  induction h with
  | nil => rfl
  | cons hsame _ ih => rw [List.filterMap_cons, List.filterMap_cons, hf _ _ hsame, ih]

theorem map_related {β : Type} {f : Turn κ α ε σ → β} {f' : Turn κ' α ε σ → β}
    (hf : ∀ t t', Same keys t t' → f t = f' t') {ts : List (Turn κ α ε σ)}
    {ts' : List (Turn κ' α ε σ)} (h : List.Forall₂ (Same keys) ts ts') : ts.map f = ts'.map f' := by
  induction h with
  | nil => rfl
  | cons hsame _ ih => rw [List.map_cons, List.map_cons, hf _ _ hsame, ih]

end Related

end Visit
