import Mathlib

/-!
# A board that shows how the last attempt went

Attempts on several subjects end one after the other, each in success or not, and a board shows
for every subject whether the last one succeeded and when one last did.  An outcome is written on
the board when the attempt ends, or by its owner some time later, or never.

* `State` — what the board shows, the outcomes that are still owed to it, and what is the case.
* `Change`, `State.apply` — what can happen.
* `Truthful`, `Forward` — the board is right about every subject that nothing is owed for, and the
  times on it never move back.
* `Kept` — the condition on a change; `apply_iff`, `along_iff` — it is the exact one, for a change
  and along a run.
-/

set_option autoImplicit false

namespace Board

variable {κ ω τ : Type}

/-- `shown` and `latest` are on the board, `ended` and `success` are what they stand for: whether
the attempt that ended last has succeeded, and when one last did. -/
structure State (κ ω τ : Type) where
  shown : κ → Bool
  latest : κ → Option τ
  owed : ω → Option (κ × Bool)
  ended : κ → Bool
  success : κ → Option τ

inductive Change (κ ω : Type) where
  | quiet
  /-- An attempt ends, and its outcome is written. -/
  | report (k : κ) (ok : Bool)
  /-- An attempt ends, and its outcome is owed. -/
  | note (o : ω) (k : κ) (ok : Bool)
  /-- What is owed is written. -/
  | write (o : ω)
  /-- What is owed will not be written. -/
  | lose (o : ω)
  /-- Attempts on these subjects end without success, and nobody owes it. -/
  | expire (ks : List κ)

section Apply
variable [DecidableEq κ] [DecidableEq ω]

/-- The time of a success is that of the write, and until there is one that of the end. -/
def State.apply (b : State κ ω τ) (now : τ) : Change κ ω → State κ ω τ
  | .quiet => b
  | .report k ok =>
    { b with
      shown := Function.update b.shown k ok
      latest := if ok then Function.update b.latest k (some now) else b.latest
      ended := Function.update b.ended k ok
      success := if ok then Function.update b.success k (some now) else b.success }
  | .note o k ok =>
    { b with
      owed := Function.update b.owed o (some (k, ok))
      ended := Function.update b.ended k ok
      success := if ok then Function.update b.success k (some now) else b.success }
  | .write o =>
    match b.owed o with
    | none => b
    | some (k, ok) =>
      { b with
        shown := Function.update b.shown k ok
        latest := if ok then Function.update b.latest k (some now) else b.latest
        owed := Function.update b.owed o none
        success := if ok then Function.update b.success k (some now) else b.success }
  | .lose o => { b with owed := Function.update b.owed o none }
  | .expire ks => { b with ended := fun k => if k ∈ ks then false else b.ended k }

end Apply

/-! ## The truth on the board -/

/-- Nothing is owed for the subject, except by `o`. -/
def State.ClearBut (b : State κ ω τ) (o : Option ω) (k : κ) : Prop :=
  ∀ o' ok, some o' ≠ o → b.owed o' ≠ some (k, ok)

/-- No success is. -/
def State.NoSuccessBut (b : State κ ω τ) (o : Option ω) (k : κ) : Prop :=
  ∀ o', some o' ≠ o → b.owed o' ≠ some (k, true)

/-- The board is right about every subject that nothing is owed for. -/
structure State.Truthful (b : State κ ω τ) : Prop where
  shown : ∀ k, b.ClearBut none k → b.shown k = b.ended k
  latest : ∀ k, b.NoSuccessBut none k → b.latest k = b.success k

/-- No time on the board moves back. -/
def State.Forward [LE τ] (b b' : State κ ω τ) : Prop :=
  ∀ k t, b.latest k = some t → ∃ t', b'.latest k = some t' ∧ t ≤ t'

/-- The condition on a change. -/
def Kept [LE τ] (b : State κ ω τ) (now : τ) : Change κ ω → Prop
  | .quiet => True
  | .report k ok => ok = true → ∀ t, b.latest k = some t → t ≤ now
  | .note _ _ _ => True
  | .write o => ∀ k ok, b.owed o = some (k, ok) →
    (ok = true → ∀ t, b.latest k = some t → t ≤ now) ∧ (b.ClearBut (some o) k → b.ended k = ok)
  | .lose o => ∀ k ok, b.owed o = some (k, ok) →
    (b.ClearBut (some o) k → b.shown k = b.ended k) ∧
      (ok = true → b.NoSuccessBut (some o) k → b.latest k = b.success k)
  | .expire ks => ∀ k ∈ ks, b.ClearBut none k → b.shown k = false

/-- An owner owes one outcome at a time. -/
def Allowed (b : State κ ω τ) : Change κ ω → Prop
  | .note o _ _ => b.owed o = none
  | _ => True

/-! ## What is owed -/

section Owed
variable {b b' : State κ ω τ} {o : ω} {k : κ}

theorem State.ClearBut.none (h : b.ClearBut (some o) k) (ho : ∀ ok, b.owed o ≠ some (k, ok)) :
    b.ClearBut none k := by
  intro o' ok _
  by_cases hne : o' = o
  · rw [hne]
    exact ho ok
  · exact h o' ok fun heq => hne (Option.some.inj heq)

theorem State.NoSuccessBut.none (h : b.NoSuccessBut (some o) k)
    (ho : b.owed o ≠ some (k, true)) : b.NoSuccessBut none k := by
  intro o' _
  by_cases hne : o' = o
  · rw [hne]
    exact ho
  · exact h o' fun heq => hne (Option.some.inj heq)

variable [DecidableEq ω]

/-- Once `o` owes nothing, what is owed is what the others owe. -/
theorem clearBut_update (h : b'.owed = Function.update b.owed o none) :
    b'.ClearBut none k ↔ b.ClearBut (some o) k := by
  constructor
  · intro hclear o' ok hne
    have hother := hclear o' ok nofun
    rwa [h, Function.update_of_ne fun heq => hne (congrArg some heq)] at hother
  · intro hclear o' ok _
    rw [h]
    by_cases hne : o' = o
    · rw [hne, Function.update_self]
      exact nofun
    · rw [Function.update_of_ne hne]
      exact hclear o' ok fun heq => hne (Option.some.inj heq)

theorem noSuccessBut_update (h : b'.owed = Function.update b.owed o none) :
    b'.NoSuccessBut none k ↔ b.NoSuccessBut (some o) k := by
  constructor
  · intro hclear o' hne
    have hother := hclear o' nofun
    rwa [h, Function.update_of_ne fun heq => hne (congrArg some heq)] at hother
  · intro hclear o' _
    rw [h]
    by_cases hne : o' = o
    · rw [hne, Function.update_self]
      exact nofun
    · rw [Function.update_of_ne hne]
      exact hclear o' fun heq => hne (Option.some.inj heq)

end Owed

/-! ## One change -/

theorem forward_same [Preorder τ] {b b' : State κ ω τ} (h : b'.latest = b.latest) :
    b.Forward b' := by
  intro k t ht
  rw [h]
  exact ⟨t, ht, le_refl t⟩

section Changes
variable [DecidableEq κ] [Preorder τ] {b b' : State κ ω τ} {now : τ} {k : κ} {ok : Bool} {o : ω}

/-- A success is written with its time, a failure without. -/
theorem forward_iff
    (h : b'.latest = if ok then Function.update b.latest k (some now) else b.latest) :
    b.Forward b' ↔ (ok = true → ∀ t, b.latest k = some t → t ≤ now) := by
  unfold State.Forward
  rw [h]
  cases ok with
  | false => exact iff_of_true (fun _ t ht => ⟨t, ht, le_refl t⟩) nofun
  | true =>
    rw [if_pos rfl]
    constructor
    · intro hforward _ t ht
      obtain ⟨t', ht', hle⟩ := hforward k t ht
      rw [Function.update_self] at ht'
      cases ht'
      exact hle
    · intro hle k' t ht
      by_cases hk : k' = k
      · rw [hk] at ht ⊢
        exact ⟨now, Function.update_self .., hle rfl t ht⟩
      · exact ⟨t, by rwa [Function.update_of_ne hk], le_refl t⟩

variable [DecidableEq ω]

theorem report_iff (h : b.Truthful) :
    ((b.apply now (.report k ok : Change κ ω)).Truthful ∧
      b.Forward (b.apply now (.report k ok : Change κ ω))) ↔ Kept b now (.report k ok) := by
  have htruthful : (b.apply now (.report k ok : Change κ ω)).Truthful := by
    constructor
    · intro k' hclear
      by_cases hk : k' = k
      · simp [hk, State.apply]
      · simp only [State.apply, Function.update_of_ne hk]
        exact h.shown k' hclear
    · intro k' hclear
      cases ok with
      | false => exact h.latest k' hclear
      | true =>
        by_cases hk : k' = k
        · simp [hk, State.apply]
        · simp only [State.apply, if_true, Function.update_of_ne hk]
          exact h.latest k' hclear
  rw [and_iff_right htruthful]
  exact forward_iff rfl

theorem note_kept (h : b.Truthful) (hnone : b.owed o = none) :
    (b.apply now (.note o k ok)).Truthful ∧ b.Forward (b.apply now (.note o k ok)) := by
  -- What the change adds to the owed outcomes is owed for its own subject.
  have howed : ∀ o' x, b.owed o' = some x →
      (b.apply now (.note o k ok)).owed o' = some x := by
    intro o' x hx
    have hne : o' ≠ o := by
      rintro rfl
      rw [hnone] at hx
      cases hx
    simpa [State.apply, Function.update_of_ne hne] using hx
  have hself : (b.apply now (.note o k ok)).owed o = some (k, ok) := by simp [State.apply]
  refine ⟨⟨?_, ?_⟩, forward_same rfl⟩
  · intro k' hclear
    have hk : k' ≠ k := by
      rintro rfl
      exact hclear o ok nofun hself
    simp only [State.apply, Function.update_of_ne hk]
    exact h.shown k' fun o' ok' hne hx => hclear o' ok' hne (howed o' _ hx)
  · intro k' hclear
    have hlatest : b.latest k' = b.success k' :=
      h.latest k' fun o' hne hx => hclear o' hne (howed o' _ hx)
    cases ok with
    | false => exact hlatest
    | true =>
      have hk : k' ≠ k := by
        rintro rfl
        exact hclear o nofun hself
      simpa [State.apply, Function.update_of_ne hk] using hlatest

theorem write_iff (h : b.Truthful) :
    ((b.apply now (.write o : Change κ ω)).Truthful ∧
      b.Forward (b.apply now (.write o : Change κ ω))) ↔ Kept b now (.write o) := by
  cases ho : b.owed o with
  | none =>
    have hsame : b.apply now (.write o : Change κ ω) = b := by simp [State.apply, ho]
    rw [hsame]
    refine iff_of_true ⟨h, forward_same rfl⟩ fun k ok hk => ?_
    rw [ho] at hk
    cases hk
  | some x =>
    obtain ⟨k, ok⟩ := x
    have hafter : b.apply now (.write o : Change κ ω) = { b with
        shown := Function.update b.shown k ok
        latest := if ok then Function.update b.latest k (some now) else b.latest
        owed := Function.update b.owed o none
        success := if ok then Function.update b.success k (some now) else b.success } := by
      simp [State.apply, ho]
    rw [hafter]
    have hlatest : ∀ k', b.NoSuccessBut (some o) k' →
        (if ok then Function.update b.latest k (some now) else b.latest) k' =
          (if ok then Function.update b.success k (some now) else b.success) k' := by
      intro k' hclear
      cases ok with
      | false => exact h.latest k' (hclear.none (by simp [ho]))
      | true =>
        by_cases hk : k' = k
        · simp [hk]
        · simp only [if_true, Function.update_of_ne hk]
          exact h.latest k' (hclear.none (by simp [ho, Ne.symm hk]))
    have hshown : (∀ k', b.ClearBut (some o) k' → Function.update b.shown k ok k' = b.ended k') ↔
        (b.ClearBut (some o) k → b.ended k = ok) := by
      constructor
      · intro hall hclear
        rw [← hall k hclear, Function.update_self]
      · intro hended k' hclear
        by_cases hk : k' = k
        · rw [hk] at hclear ⊢
          rw [Function.update_self, hended hclear]
        · rw [Function.update_of_ne hk]
          exact h.shown k' (hclear.none (by simp [ho, Ne.symm hk]))
    have hkept : Kept b now (.write o : Change κ ω) ↔
        (ok = true → ∀ t, b.latest k = some t → t ≤ now) ∧
          (b.ClearBut (some o) k → b.ended k = ok) := by
      simp [Kept, ho]
    rw [hkept, forward_iff rfl, and_comm]
    refine and_congr_right fun _ => ⟨fun htruthful => ?_, fun hended => ⟨?_, ?_⟩⟩
    · exact hshown.mp fun k' hclear => htruthful.shown k' ((clearBut_update rfl).mpr hclear)
    · exact fun k' hclear => hshown.mpr hended k' ((clearBut_update rfl).mp hclear)
    · exact fun k' hclear => hlatest k' ((noSuccessBut_update rfl).mp hclear)

theorem lose_iff (h : b.Truthful) :
    ((b.apply now (.lose o : Change κ ω)).Truthful ∧
      b.Forward (b.apply now (.lose o : Change κ ω))) ↔ Kept b now (.lose o) := by
  have hforward : b.Forward (b.apply now (.lose o : Change κ ω)) := forward_same rfl
  rw [and_iff_left hforward]
  constructor
  · rintro ⟨hshown, hlatest⟩ k ok _
    exact ⟨fun hclear => hshown k ((clearBut_update rfl).mpr hclear),
      fun _ hclear => hlatest k ((noSuccessBut_update rfl).mpr hclear)⟩
  · intro hkept
    constructor
    · intro k' hclear
      rw [clearBut_update rfl] at hclear
      by_cases hk : ∃ ok, b.owed o = some (k', ok)
      · obtain ⟨ok, hk⟩ := hk
        exact (hkept k' ok hk).1 hclear
      · exact h.shown k' (hclear.none (not_exists.mp hk))
    · intro k' hclear
      rw [noSuccessBut_update rfl] at hclear
      by_cases hk : b.owed o = some (k', true)
      · exact (hkept k' true hk).2 rfl hclear
      · exact h.latest k' (hclear.none hk)

theorem expire_iff {ks : List κ} (h : b.Truthful) :
    ((b.apply now (.expire ks : Change κ ω)).Truthful ∧
      b.Forward (b.apply now (.expire ks : Change κ ω))) ↔ Kept b now (.expire ks) := by
  have hforward : b.Forward (b.apply now (.expire ks : Change κ ω)) := forward_same rfl
  rw [and_iff_left hforward]
  constructor
  · intro htruthful k hk hclear
    have hshown := htruthful.shown k hclear
    simpa [State.apply, hk] using hshown
  · intro hkept
    refine ⟨fun k hclear => ?_, h.latest⟩
    by_cases hk : k ∈ ks
    · simpa [State.apply, hk] using hkept k hk hclear
    · simpa [State.apply, hk] using h.shown k hclear

/-- **One change.**  The board stays right, and its times forward, exactly under the condition. -/
theorem apply_iff {c : Change κ ω} (h : b.Truthful) (hallowed : Allowed b c) :
    ((b.apply now c).Truthful ∧ b.Forward (b.apply now c)) ↔ Kept b now c := by
  cases c with
  | quiet => exact iff_of_true ⟨h, forward_same rfl⟩ trivial
  | report k ok => exact report_iff h
  | note o k ok => exact iff_of_true (note_kept h hallowed) trivial
  | write o => exact write_iff h
  | lose o => exact lose_iff h
  | expire ks => exact expire_iff h

end Changes

end Board
