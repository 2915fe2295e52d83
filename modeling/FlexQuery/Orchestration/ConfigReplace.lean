import FlexQuery.Orchestration.ConfigRace

/-!
# Query rows replaced at the same time

What any interleaving of `write_flex_config` calls leaves of `raw_broker.settings_flex`.

* `RowsInv` — the table holds what the committed calls have written, but for the rows that the
  `DELETE` of a committed call has seen.
* `rows_after` — the rows after any interleaving.
* `replacement_exact_iff` — of two replacements one is left exactly when the second began its
  `DELETE` after the first had committed.
* `named_days_serialize` — calls that also name range days wait for each other.
-/

set_option autoImplicit false

namespace FlexQuery

open Transition

section System
variable {W : Type} [DecidableEq W]

/-! ## The query rows -/

/-- The stage of a call whose `DELETE` has begun. -/
def Stage.begun : Stage → Bool
  | .deleting _ => true
  | .inserting _ => true
  | _ => false

/-- The rows its `DELETE` has yet to come to. -/
def Stage.left : Stage → List ℕ
  | .deleting left => left
  | _ => []

/-- The row is committed, or a call has inserted it. -/
def ConfigSys.Known (s : ConfigSys W) (r : OwnedQuery W) : Prop :=
  r ∈ s.rows ∨ ∃ w, r.owner = some w ∧ r.stored ∈ (s.calls w).inserted

/-- The call that has written the row had committed when the `DELETE` of `w` began. -/
def ConfigSys.Sees (s : ConfigSys W) (w : W) (r : OwnedQuery W) : Prop :=
  ∀ o ∈ r.owner, o ∈ (s.calls w).seen

instance (s : ConfigSys W) (w : W) (r : OwnedQuery W) : Decidable (s.Sees w r) :=
  inferInstanceAs (Decidable (∀ o ∈ r.owner, _))

/-- A call whose `DELETE` saw the row has committed. -/
def ConfigSys.Gone (req : W → WriteRequest) (s : ConfigSys W) (r : OwnedQuery W) : Prop :=
  ∃ w ∈ s.log, (req w).accounts.isSome = true ∧ s.Sees w r

instance (req : W → WriteRequest) (s : ConfigSys W) (r : OwnedQuery W) :
    Decidable (s.Gone req r) :=
  inferInstanceAs (Decidable (∃ w ∈ s.log, _))

/-- The rows that were there at the start, and those of each call in the order of the commits. -/
def ConfigSys.written (t : ConfigTables) (s : ConfigSys W) : List (OwnedQuery W) :=
  t.settingsFlex.map (fun r => ⟨none, r⟩) ++
    s.log.flatMap fun w => (s.calls w).inserted.map fun r => ⟨some w, r⟩

/-- The table holds the written rows that are not gone, and a `DELETE` has seen what had been
committed when it began. -/
structure RowsInv (req : W → WriteRequest) (t : ConfigTables) (s : ConfigSys W) : Prop where
  logged : ∀ w, w ∈ s.log ↔ (s.calls w).stage = .committed
  seen : ∀ w o, o ∈ (s.calls w).seen → o ∈ s.log
  fresh : ∀ r, s.Known r → r.stored.id < s.nextId
  past : ∀ w, ∀ id ∈ (s.calls w).snapshot, id < s.nextId
  owned : ∀ r r', s.Known r → s.Known r' → r.stored.id = r'.stored.id → r.owner = r'.owner
  owners : ∀ r ∈ s.rows, ∀ o ∈ r.owner, o ∈ s.log
  unseen : ∀ w r, s.Known r → r.stored.id ∈ (s.calls w).snapshot → s.Sees w r
  sight : ∀ w, (s.calls w).stage.begun = true → ∀ r ∈ s.rows, s.Sees w r →
    r.stored.id ∈ (s.calls w).snapshot
  visited : ∀ w, (s.calls w).stage.begun = true → ∀ id ∈ (s.calls w).snapshot,
    id ∈ (s.calls w).stage.left ∨ id ∈ (s.calls w).deleted ∨ id ∉ s.ids
  left : ∀ w, ∀ id ∈ (s.calls w).stage.left, id ∈ (s.calls w).snapshot
  deleted : ∀ w, ∀ id ∈ (s.calls w).deleted, id ∈ (s.calls w).snapshot
  replaces : ∀ w, (s.calls w).stage.begun = true → (req w).accounts.isSome = true
  waiting : ∀ w, (s.calls w).stage.begun = false → (s.calls w).stage ≠ .committed →
    (s.calls w).stage ≠ .aborted → (s.calls w).deleted = [] ∧ (s.calls w).inserted = []
  self : ∀ w, w ∉ (s.calls w).seen
  order : s.log.Pairwise fun o w => o ≠ w ∧ w ∉ (s.calls o).seen
  table : s.rows = (s.written t).filter fun r => ¬ s.Gone req r

section Same
variable {req : W → WriteRequest} {t : ConfigTables} {s s' : ConfigSys W}
  (hins : ∀ w, (s'.calls w).inserted = (s.calls w).inserted)
  (hseen : ∀ w, (s'.calls w).seen = (s.calls w).seen)

include hins in
omit [DecidableEq W] in
theorem known_congr (hrows : s'.rows = s.rows) (r : OwnedQuery W) : s'.Known r ↔ s.Known r := by
  simp [ConfigSys.Known, hins, hrows]

include hseen in
omit [DecidableEq W] in
theorem sees_congr (w : W) (r : OwnedQuery W) : s'.Sees w r ↔ s.Sees w r := by
  simp [ConfigSys.Sees, hseen]

include hseen in
omit [DecidableEq W] in
theorem gone_congr (hlog : s'.log = s.log) (r : OwnedQuery W) : s'.Gone req r ↔ s.Gone req r := by
  simp [ConfigSys.Gone, sees_congr hseen, hlog]

include hins hseen in
theorem table_congr (hlog : s'.log = s.log) :
    ((s'.written t).filter fun r => ¬ s'.Gone req r) =
      (s.written t).filter fun r => ¬ s.Gone req r := by
  have hwritten : s'.written t = s.written t := by
    simp [ConfigSys.written, hins, hlog]
  rw [hwritten]
  exact List.filter_congr fun r _ => by simp [gone_congr hseen hlog]

end Same

/-- A step of a call that neither begins its `DELETE` nor inserts nor commits. -/
theorem RowsInv.moved {req : W → WriteRequest} {t : ConfigTables} {s s' : ConfigSys W} {w : W}
    {c : Call W} (h : RowsInv req t s) (hrows : s'.rows = s.rows) (hlog : s'.log = s.log)
    (hnext : s'.nextId = s.nextId) (hcalls : s'.calls = (s.setCall w c).calls)
    (hsnapshot : c.snapshot = (s.calls w).snapshot) (hinserted : c.inserted = (s.calls w).inserted)
    (hseen : c.seen = (s.calls w).seen) (hold : (s.calls w).stage ≠ .committed)
    (hnew : c.stage ≠ .committed)
    (hbegun : c.stage.begun = true → (s.calls w).stage.begun = true)
    (hvisited : c.stage.begun = true →
      ∀ id ∈ c.snapshot, id ∈ c.stage.left ∨ id ∈ c.deleted ∨ id ∉ s.ids)
    (hleft : ∀ id ∈ c.stage.left, id ∈ c.snapshot) (hdeleted : ∀ id ∈ c.deleted, id ∈ c.snapshot)
    (hwaiting : c.stage.begun = false → c.stage ≠ .aborted → c.deleted = [] ∧ c.inserted = []) :
    RowsInv req t s' := by
  have hcall : ∀ w', s'.calls w' = if w' = w then c else s.calls w' := by
    intro w'
    rw [hcalls, setCall_calls]
  have hins := calls_same Call.inserted hcalls hinserted
  have hseen' := calls_same Call.seen hcalls hseen
  have hsnap := calls_same Call.snapshot hcalls hsnapshot
  have hids : s'.ids = s.ids := by rw [ConfigSys.ids, hrows]; rfl
  have hstarted : ∀ w', (s'.calls w').stage.begun = true → (s.calls w').stage.begun = true := by
    intro w' hw'
    rw [hcall] at hw'
    split at hw'
    · rename_i hw
      exact hw ▸ hbegun hw'
    · exact hw'
  constructor
  · intro w'
    rw [hlog, h.logged, hcall]
    split
    · rename_i hw
      rw [hw]
      exact iff_of_false hold hnew
    · rfl
  · intro w' o
    rw [hseen', hlog]
    exact h.seen w' o
  · intro r
    rw [known_congr hins hrows, hnext]
    exact h.fresh r
  · intro w'
    rw [hsnap, hnext]
    exact h.past w'
  · intro r r'
    rw [known_congr hins hrows, known_congr hins hrows]
    exact h.owned r r'
  · rw [hrows, hlog]
    exact h.owners
  · intro w' r
    rw [known_congr hins hrows, hsnap, sees_congr hseen']
    exact h.unseen w' r
  · intro w' hw' r
    rw [hrows, hsnap, sees_congr hseen']
    exact h.sight w' (hstarted w' hw') r
  · intro w' hw' id
    rw [hids]
    rw [hcall] at hw' ⊢
    split
    · rename_i hw
      rw [if_pos hw] at hw'
      exact hvisited hw' id
    · rename_i hw
      rw [if_neg hw] at hw'
      exact h.visited w' hw' id
  · intro w'
    rw [hcall]
    split
    · exact hleft
    · exact h.left w'
  · intro w'
    rw [hcall]
    split
    · exact hdeleted
    · exact h.deleted w'
  · intro w' hw'
    exact h.replaces w' (hstarted w' hw')
  · intro w'
    rw [hcall]
    split
    · exact fun hb _ ha => hwaiting hb ha
    · exact h.waiting w'
  · intro w'
    rw [hseen']
    exact h.self w'
  · simp only [hlog, hseen']
    exact h.order
  · rw [hrows, table_congr hins hseen' hlog]
    exact h.table

theorem RowsInv.insert {req : W → WriteRequest} {t : ConfigTables} {s : ConfigSys W} {w : W}
    {place : ℕ} {row : QueryRow} {left : List QueryStatement} (h : RowsInv req t s)
    (hstage : (s.calls w).stage = .inserting (.insert place row :: left)) :
    RowsInv req t { s.setCall w { s.calls w with
        stage := .inserting left
        inserted := (s.calls w).inserted ++ [⟨s.nextId, some place, row⟩] } with
      nextId := s.nextId + 1 } := by
  generalize hc : ({ s.calls w with
    stage := .inserting left
    inserted := (s.calls w).inserted ++ [⟨s.nextId, some place, row⟩] } : Call W) = c
  generalize hs' : ({ s.setCall w c with nextId := s.nextId + 1 } : ConfigSys W) = s'
  have hcalls : s'.calls = (s.setCall w c).calls := by rw [← hs']
  have hcall : ∀ w', s'.calls w' = if w' = w then c else s.calls w' := by
    intro w'
    rw [hcalls, setCall_calls]
  have hseen := calls_same Call.seen hcalls (by rw [← hc])
  have hsnap := calls_same Call.snapshot hcalls (by rw [← hc])
  have hbegun := calls_same (fun c => c.stage.begun) hcalls (by rw [← hc, hstage]; rfl)
  have hnot : w ∉ s.log := by
    rw [h.logged, hstage]
    nofun
  have hlog : s'.log = s.log := by rw [← hs']; rfl
  have hrows : s'.rows = s.rows := by rw [← hs']; rfl
  have hids : s'.ids = s.ids := by rw [ConfigSys.ids, hrows]; rfl
  have hnext : s'.nextId = s.nextId + 1 := by rw [← hs']
  have hknown : ∀ r, s'.Known r → s.Known r ∨ r = ⟨some w, ⟨s.nextId, some place, row⟩⟩ := by
    rintro ⟨owner, stored⟩ (hr | ⟨w', howner, hr⟩)
    · exact Or.inl (Or.inl (hrows ▸ hr))
    · rw [hcall] at hr
      split at hr
      · rename_i hw
        rw [← hc] at hr
        rcases List.mem_append.mp hr with hr | hr
        · exact Or.inl (Or.inr ⟨w', howner, hw ▸ hr⟩)
        · have howner' : owner = some w := hw ▸ howner
          rw [howner', show stored = _ from List.mem_singleton.mp hr]
          exact Or.inr rfl
      · exact Or.inl (Or.inr ⟨w', howner, hr⟩)
  constructor
  · intro w'
    rw [hlog, h.logged, hcall]
    split
    · rename_i hw
      rw [hw, hstage, ← hc]
      exact iff_of_false nofun nofun
    · rfl
  · intro w' o
    rw [hseen, hlog]
    exact h.seen w' o
  · intro r hr
    rw [hnext]
    rcases hknown r hr with hr | rfl
    · exact (h.fresh r hr).trans (Nat.lt_succ_self _)
    · exact Nat.lt_succ_self _
  · intro w' id hid
    rw [hsnap] at hid
    rw [hnext]
    exact (h.past w' id hid).trans (Nat.lt_succ_self _)
  · intro r r' hr hr' hid
    -- The sequence has not given this id before.
    rcases hknown r hr with hr | rfl <;> rcases hknown r' hr' with hr' | rfl
    · exact h.owned r r' hr hr' hid
    · exact absurd hid (h.fresh r hr).ne
    · exact absurd hid (h.fresh r' hr').ne'
    · rfl
  · rw [hrows, hlog]
    exact h.owners
  · intro w' r hr hid
    rw [sees_congr hseen]
    rw [hsnap] at hid
    rcases hknown r hr with hr | rfl
    · exact h.unseen w' r hr hid
    · exact absurd (h.past w' _ hid) (lt_irrefl _)
  · intro w' hw' r
    rw [hrows, hsnap, sees_congr hseen]
    exact h.sight w' (hbegun w' ▸ hw') r
  · intro w' hw' id
    rw [hids]
    have hvisited := h.visited w' (hbegun w' ▸ hw') id
    rw [hcall]
    split
    · rename_i hw
      rw [hw, hstage] at hvisited
      rw [← hc]
      exact hvisited
    · exact hvisited
  · intro w'
    rw [hcall]
    split
    · rw [← hc]
      nofun
    · exact h.left w'
  · intro w'
    rw [hcall]
    split
    · rw [← hc]
      exact h.deleted w
    · exact h.deleted w'
  · intro w' hw'
    exact h.replaces w' (hbegun w' ▸ hw')
  · intro w'
    rw [hcall]
    split
    · rw [← hc]
      nofun
    · exact h.waiting w'
  · intro w'
    rw [hseen]
    exact h.self w'
  · simp only [hlog, hseen]
    exact h.order
  · have hwritten : s'.written t = s.written t := by
      unfold ConfigSys.written
      rw [hlog]
      refine congrArg _ (List.flatMap_congr fun o ho => ?_)
      have hne : o ≠ w := by
        rintro rfl
        exact hnot ho
      rw [hcall, if_neg hne]
    rw [hrows, hwritten]
    refine h.table.trans (List.filter_congr fun r _ => ?_)
    simp [gone_congr hseen hlog]

theorem RowsInv.beginDelete {req : W → WriteRequest} {t : ConfigTables} {s : ConfigSys W} {w : W}
    (h : RowsInv req t s) (haccounts : (req w).accounts.isSome = true)
    (hold : (s.calls w).stage = .start ∨ (s.calls w).stage = .upserted) :
    RowsInv req t (s.setCall w { s.calls w with
      stage := .deleting s.ids, snapshot := s.ids, seen := s.log }) := by
  generalize hc : ({ s.calls w with
    stage := .deleting s.ids, snapshot := s.ids, seen := s.log } : Call W) = c
  generalize hs' : s.setCall w c = s'
  have hcalls : s'.calls = (s.setCall w c).calls := by rw [← hs']
  have hcall : ∀ w', s'.calls w' = if w' = w then c else s.calls w' := by
    intro w'
    rw [hcalls, setCall_calls]
  have hrows : s'.rows = s.rows := by rw [← hs']; rfl
  have hlog : s'.log = s.log := by rw [← hs']; rfl
  have hnext : s'.nextId = s.nextId := by rw [← hs']; rfl
  have hids : s'.ids = s.ids := by rw [ConfigSys.ids, hrows]; rfl
  have hins := calls_same Call.inserted hcalls (by rw [← hc])
  have hnot : w ∉ s.log := by
    rw [h.logged]
    rcases hold with hold | hold <;> rw [hold] <;> nofun
  obtain ⟨hdeleted, _⟩ : (s.calls w).deleted = [] ∧ (s.calls w).inserted = [] := by
    rcases hold with hold | hold <;>
      exact h.waiting w (by rw [hold]; rfl) (by rw [hold]; nofun) (by rw [hold]; nofun)
  have hrow : ∀ id ∈ s.ids, ∃ r ∈ s.rows, r.stored.id = id := fun id hid => List.mem_map.mp hid
  have hothers : ∀ o ∈ s.log, ∀ r, s'.Sees o r ↔ s.Sees o r := by
    intro o ho r
    have hne : o ≠ w := by
      rintro rfl
      exact hnot ho
    simp [ConfigSys.Sees, hcall, hne]
  constructor
  · intro w'
    rw [hlog, h.logged, hcall]
    split
    · rename_i hw
      rw [hw, ← hc]
      rcases hold with hold | hold <;> rw [hold] <;> exact iff_of_false nofun nofun
    · rfl
  · intro w' o
    rw [hlog, hcall]
    split
    · rw [← hc]
      exact id
    · exact h.seen w' o
  · intro r
    rw [known_congr hins hrows, hnext]
    exact h.fresh r
  · intro w' id
    rw [hnext, hcall]
    split
    · rw [← hc]
      intro hid
      obtain ⟨r, hr, rfl⟩ := hrow id hid
      exact h.fresh r (Or.inl hr)
    · exact h.past w' id
  · intro r r'
    rw [known_congr hins hrows, known_congr hins hrows]
    exact h.owned r r'
  · rw [hrows, hlog]
    exact h.owners
  · intro w' r
    rw [known_congr hins hrows, ConfigSys.Sees, hcall]
    split
    · rw [← hc]
      intro hr hid o ho
      obtain ⟨r', hr', hsame⟩ := hrow r.stored.id hid
      rw [← h.owned r' r (Or.inl hr') hr hsame] at ho
      exact h.owners r' hr' o ho
    · exact h.unseen w' r
  · intro w' hw' r
    rw [hrows, ConfigSys.Sees]
    rw [hcall] at hw' ⊢
    split
    · rw [← hc]
      exact fun hr _ => List.mem_map_of_mem hr
    · rename_i hw
      rw [if_neg hw] at hw'
      exact h.sight w' hw' r
  · intro w' hw' id
    rw [hids]
    rw [hcall] at hw' ⊢
    split
    · rw [← hc]
      exact Or.inl
    · rename_i hw
      rw [if_neg hw] at hw'
      exact h.visited w' hw' id
  · intro w' id
    rw [hcall]
    split
    · rw [← hc]
      exact fun hid => hid
    · exact h.left w' id
  · intro w' id
    rw [hcall]
    split
    · rw [← hc]
      simp only [hdeleted]
      nofun
    · exact h.deleted w' id
  · intro w' hw'
    rw [hcall] at hw'
    split at hw'
    · rename_i hw
      rw [hw]
      exact haccounts
    · exact h.replaces w' hw'
  · intro w'
    rw [hcall]
    split
    · rw [← hc]
      nofun
    · exact h.waiting w'
  · intro w'
    rw [hcall]
    split
    · rename_i hw
      rw [hw, ← hc]
      exact hnot
    · exact h.self w'
  · rw [hlog]
    refine h.order.imp_of_mem fun {o w'} ho _ hpair => ⟨hpair.1, ?_⟩
    have hne : o ≠ w := by
      rintro rfl
      exact hnot ho
    rw [hcall, if_neg hne]
    exact hpair.2
  · have hwritten : s'.written t = s.written t := by
      simp [ConfigSys.written, hins, hlog]
    have hgone : ∀ r, s'.Gone req r ↔ s.Gone req r := by
      intro r
      unfold ConfigSys.Gone
      rw [hlog]
      exact exists_congr fun o => and_congr_right fun ho => by rw [hothers o ho]
    rw [hrows, hwritten]
    exact h.table.trans (List.filter_congr fun r _ => by simp [hgone])

/-- The rows its `DELETE` has deleted are those it sees. -/
theorem RowsInv.deleted_iff {req : W → WriteRequest} {t : ConfigTables} {s : ConfigSys W} {w : W}
    (h : RowsInv req t s) (hstage : (s.calls w).stage = .upserted ∧ (req w).accounts = none ∨
      (s.calls w).stage = .inserting []) {r : OwnedQuery W} (hr : r ∈ s.rows) :
    r.stored.id ∈ (s.calls w).deleted ↔ (req w).accounts.isSome = true ∧ s.Sees w r := by
  rcases hstage with ⟨hstage, hnone⟩ | hstage
  · obtain ⟨hdeleted, _⟩ := h.waiting w (by rw [hstage]; rfl) (by rw [hstage]; nofun)
      (by rw [hstage]; nofun)
    rw [hdeleted, hnone]
    exact iff_of_false nofun nofun
  · have hbegun : (s.calls w).stage.begun = true := by rw [hstage]; rfl
    constructor
    · intro hid
      exact ⟨h.replaces w hbegun, h.unseen w r (Or.inl hr) (h.deleted w _ hid)⟩
    · rintro ⟨_, hsees⟩
      rcases h.visited w hbegun _ (h.sight w hbegun r hr hsees) with hleft | hid | hgone
      · rw [hstage] at hleft
        cases hleft
      · exact hid
      · exact absurd (List.mem_map_of_mem hr) hgone

theorem RowsInv.done {req : W → WriteRequest} {t : ConfigTables} {s : ConfigSys W} {w : W}
    (h : RowsInv req t s) (hstage : (s.calls w).stage = .upserted ∧ (req w).accounts = none ∨
      (s.calls w).stage = .inserting []) : RowsInv req t (s.done w) := by
  have hdeleted : ∀ r ∈ s.rows, r.stored.id ∈ (s.calls w).deleted ↔
      (req w).accounts.isSome = true ∧ s.Sees w r := fun r hr => h.deleted_iff hstage hr
  have hnot : w ∉ s.log := by
    rw [h.logged]
    rcases hstage with ⟨hstage, _⟩ | hstage <;> rw [hstage] <;> nofun
  generalize hs' : s.done w = s'
  have hcalls : s'.calls = (s.setCall w { s.calls w with stage := .committed }).calls := by
    rw [← hs']
    rfl
  have hcall : ∀ w', s'.calls w' = if w' = w then { s.calls w with stage := .committed }
      else s.calls w' := by
    intro w'
    rw [hcalls, setCall_calls]
  have hins := calls_same Call.inserted hcalls rfl
  have hseen := calls_same Call.seen hcalls rfl
  have hsnap := calls_same Call.snapshot hcalls rfl
  have hlog : s'.log = s.log ++ [w] := by rw [← hs']; rfl
  have hnext : s'.nextId = s.nextId := by rw [← hs']; rfl
  have hrows : s'.rows = (s.rows.filter fun r => r.stored.id ∉ (s.calls w).deleted) ++
      (s.calls w).inserted.map fun r => ⟨some w, r⟩ := by rw [← hs']; rfl
  have hrow : ∀ r ∈ s'.rows, r ∈ s.rows ∨ r.owner = some w ∧ r.stored ∈ (s.calls w).inserted := by
    intro r hr
    rw [hrows] at hr
    rcases List.mem_append.mp hr with hr | hr
    · exact Or.inl (List.mem_filter.mp hr).1
    · obtain ⟨x, hx, rfl⟩ := List.mem_map.mp hr
      exact Or.inr ⟨rfl, hx⟩
  have hknown : ∀ r, s'.Known r → s.Known r := by
    rintro r (hr | ⟨w', howner, hr⟩)
    · rcases hrow r hr with hr | ⟨howner, hr⟩
      · exact Or.inl hr
      · exact Or.inr ⟨w, howner, hr⟩
    · exact Or.inr ⟨w', howner, hins w' ▸ hr⟩
  -- No other call's `DELETE` has seen a row of this one.
  have hblind : ∀ w' r, r.owner = some w → ¬ s.Sees w' r :=
    fun w' r howner hsees => hnot (h.seen w' w (hsees w howner))
  have hother : ∀ w', (s'.calls w').stage.begun = true → w' ≠ w ∧ s'.calls w' = s.calls w' := by
    intro w' hbegun
    rw [hcall] at hbegun ⊢
    split at hbegun
    · cases hbegun
    · rename_i hw
      exact ⟨hw, if_neg hw⟩
  constructor
  · intro w'
    rw [hlog, List.mem_append, List.mem_singleton, h.logged, hcall]
    split
    · rename_i hw
      exact iff_of_true (Or.inr hw) rfl
    · rename_i hw
      simp [hw]
  · intro w' o
    rw [hseen, hlog]
    exact fun ho => List.mem_append_left _ (h.seen w' o ho)
  · intro r hr
    rw [hnext]
    exact h.fresh r (hknown r hr)
  · intro w'
    rw [hsnap, hnext]
    exact h.past w'
  · intro r r' hr hr'
    exact h.owned r r' (hknown r hr) (hknown r' hr')
  · intro r hr o ho
    rw [hlog]
    rcases hrow r hr with hr | ⟨howner, _⟩
    · exact List.mem_append_left _ (h.owners r hr o ho)
    · rw [howner] at ho
      cases ho
      exact List.mem_append_right _ (List.mem_singleton_self w)
  · intro w' r hr
    rw [hsnap, sees_congr hseen]
    exact h.unseen w' r (hknown r hr)
  · intro w' hbegun r hr
    rw [hsnap, sees_congr hseen]
    intro hsees
    rcases hrow r hr with hr | ⟨howner, _⟩
    · exact h.sight w' ((hother w' hbegun).2 ▸ hbegun) r hr hsees
    · exact absurd hsees (hblind w' r howner)
  · intro w' hbegun id hid
    obtain ⟨_, hsame⟩ := hother w' hbegun
    rw [hsame] at hbegun hid ⊢
    refine (h.visited w' hbegun id hid).imp_right (Or.imp_right ?_)
    intro hgone hmem
    obtain ⟨r, hr, rfl⟩ := List.mem_map.mp hmem
    rcases hrow r hr with hr | ⟨howner, hr⟩
    · exact hgone (List.mem_map_of_mem hr)
    · exact hblind w' r howner (h.unseen w' r (Or.inr ⟨w, howner, hr⟩) hid)
  · intro w'
    rw [hcall]
    split
    · nofun
    · exact h.left w'
  · intro w'
    rw [hcall]
    split
    · exact h.deleted w
    · exact h.deleted w'
  · intro w' hbegun
    exact h.replaces w' ((hother w' hbegun).2 ▸ hbegun)
  · intro w'
    rw [hcall]
    split
    · exact fun _ hne => absurd rfl hne
    · exact h.waiting w'
  · intro w'
    rw [hseen]
    exact h.self w'
  · simp only [hlog, hseen, List.pairwise_append]
    refine ⟨h.order, List.pairwise_singleton _ _, fun o ho w' hw' => ?_⟩
    rw [List.mem_singleton.mp hw']
    refine ⟨?_, fun hsees => hnot (h.seen o w hsees)⟩
    rintro rfl
    exact hnot ho
  · have hwritten : s'.written t = s.written t ++ (s.calls w).inserted.map fun r => ⟨some w, r⟩ := by
      simp [ConfigSys.written, hlog, hins]
    have hgone : ∀ r, s'.Gone req r ↔
        s.Gone req r ∨ (req w).accounts.isSome = true ∧ s.Sees w r := by
      intro r
      simp [ConfigSys.Gone, hlog, sees_congr hseen, or_and_right, exists_or]
    have hold : (s.rows.filter fun r => r.stored.id ∉ (s.calls w).deleted) =
        (s.written t).filter fun r => ¬ s'.Gone req r := by
      have hfilter : (s.rows.filter fun r => r.stored.id ∉ (s.calls w).deleted) =
          s.rows.filter fun r => ¬ ((req w).accounts.isSome = true ∧ s.Sees w r) :=
        List.filter_congr fun r hr => by simp only [hdeleted r hr]
      rw [hfilter, h.table, List.filter_filter]
      refine List.filter_congr fun r _ => ?_
      simp only [hgone, ← Bool.decide_and]
      exact decide_eq_decide.mpr (by tauto)
    have hnew : ((s.calls w).inserted.map fun r => (⟨some w, r⟩ : OwnedQuery W)).filter
        (fun r => ¬ s'.Gone req r) = (s.calls w).inserted.map fun r => ⟨some w, r⟩ := by
      rw [List.filter_eq_self]
      intro r hr
      obtain ⟨x, _, rfl⟩ := List.mem_map.mp hr
      refine decide_eq_true ?_
      rw [hgone]
      rintro (⟨w', _, _, hsees⟩ | ⟨_, hsees⟩)
      · exact hblind w' _ rfl hsees
      · exact hblind w _ rfl hsees
    rw [hrows, hwritten, List.filter_append, hold, hnew]

theorem RowsInv.start (req : W → WriteRequest) (t : ConfigTables) (gap : ℕ) :
    RowsInv req t (.start t gap) where
  logged := fun w => iff_of_false nofun nofun
  seen := nofun
  fresh := by
    rintro r (hr | ⟨_, _, hr⟩)
    · obtain ⟨x, hx, rfl⟩ := List.mem_map.mp hr
      have hmax : ∀ ids : List ℕ, x.id ∈ ids → x.id ≤ ids.foldr max 0 := by
        intro ids hid
        induction ids with
        | nil => cases hid
        | cons i ids ih =>
          rcases List.mem_cons.mp hid with rfl | hid
          · exact le_max_left _ _
          · exact (ih hid).trans (le_max_right _ _)
      have := hmax _ (List.mem_map_of_mem hx)
      change x.id < _ + 1 + gap
      omega
    · cases hr
  past := nofun
  owned := by
    have hnone : ∀ r, (ConfigSys.start (W := W) t gap).Known r → r.owner = none := by
      rintro r (hr | ⟨_, _, hr⟩)
      · obtain ⟨x, _, rfl⟩ := List.mem_map.mp hr
        rfl
      · cases hr
    intro r r' hr hr' _
    rw [hnone r hr, hnone r' hr']
  owners := by
    intro r hr o ho
    obtain ⟨x, _, rfl⟩ := List.mem_map.mp hr
    cases ho
  unseen := by
    intro w r _ hid
    cases hid
  sight := nofun
  visited := nofun
  left := nofun
  deleted := nofun
  replaces := nofun
  waiting := fun w _ _ _ => ⟨rfl, rfl⟩
  self := nofun
  order := List.Pairwise.nil
  table := by simp [ConfigSys.start, ConfigSys.written, ConfigSys.Gone]

/-- **Step lemma.** -/
theorem rowsInv_step {req : W → WriteRequest} {t : ConfigTables} {s s' : ConfigSys W}
    {a : RaceAction W} (h : RowsInv req t s) (hstep : raceStep req s a = some s') :
    RowsInv req t s' := by
  cases raceStep_effect hstep with
  | @read w hstage hrange =>
    have hwaiting := h.waiting w (by rw [hstage]; rfl) (by rw [hstage]; nofun)
      (by rw [hstage]; nofun)
    exact h.moved rfl rfl rfl rfl rfl rfl rfl (by rw [hstage]; nofun) nofun nofun nofun nofun
      (h.deleted w) fun _ _ => hwaiting
  | @upsert w vals hstage hfree =>
    have hwaiting := h.waiting w (by rw [hstage]; rfl) (by rw [hstage]; nofun)
      (by rw [hstage]; nofun)
    exact h.moved rfl rfl rfl rfl rfl rfl rfl (by rw [hstage]; nofun) nofun nofun nofun nofun
      (h.deleted w) fun _ _ => hwaiting
  | beginDelete haccounts hbegun => exact h.beginDelete haccounts (hbegun.imp_left And.left)
  | @endDelete w hstage =>
    have hbegun : (s.calls w).stage.begun = true := by rw [hstage]; rfl
    refine h.moved rfl rfl rfl rfl rfl rfl rfl (by rw [hstage]; nofun) nofun (fun _ => hbegun)
      (fun _ id hid => ?_) nofun (h.deleted w) nofun
    have hvisited := h.visited w hbegun id hid
    rwa [hstage] at hvisited
  | @skipRow w id left hstage hgone =>
    have hbegun : (s.calls w).stage.begun = true := by rw [hstage]; rfl
    have hleft := h.left w
    rw [hstage] at hleft
    refine h.moved rfl rfl rfl rfl rfl rfl rfl (by rw [hstage]; nofun) nofun (fun _ => hbegun)
      (fun _ id' hid => ?_) (fun id' hid => hleft id' (List.mem_cons_of_mem _ hid)) (h.deleted w)
      nofun
    have hvisited := h.visited w hbegun id' hid
    rw [hstage] at hvisited
    rcases hvisited with hleft | hrest
    · rcases List.mem_cons.mp hleft with rfl | hleft
      · exact Or.inr (Or.inr hgone)
      · exact Or.inl hleft
    · exact Or.inr hrest
  | @deleteRow w id left hstage =>
    have hbegun : (s.calls w).stage.begun = true := by rw [hstage]; rfl
    have hleft := h.left w
    rw [hstage] at hleft
    refine h.moved rfl rfl rfl rfl rfl rfl rfl (by rw [hstage]; nofun) nofun (fun _ => hbegun)
      (fun _ id' hid => ?_) (fun id' hid => hleft id' (List.mem_cons_of_mem _ hid)) ?_ nofun
    · have hvisited := h.visited w hbegun id' hid
      rw [hstage] at hvisited
      rcases hvisited with hleft | hdeleted | hgone
      · rcases List.mem_cons.mp hleft with rfl | hleft
        · exact Or.inr (Or.inl List.mem_cons_self)
        · exact Or.inl hleft
      · exact Or.inr (Or.inl (List.mem_cons_of_mem _ hdeleted))
      · exact Or.inr (Or.inr hgone)
    · intro id' hid
      rcases List.mem_cons.mp hid with rfl | hid
      · exact hleft _ List.mem_cons_self
      · exact h.deleted w id' hid
  | insert hstage => exact h.insert hstage
  | commit hstage => exact h.done hstage
  | @abort w hstage =>
    exact h.moved rfl rfl rfl rfl rfl rfl rfl hstage nofun nofun nofun nofun (h.deleted w)
      fun _ hne => absurd rfl hne

/-! ## What the calls have inserted -/

/-- A stored row without its id. -/
def StoredQuery.content (r : StoredQuery) : Option ℤ × QueryRow := (r.sortOrder, r.row)

def QueryStatement.contents : QueryStatement → List (Option ℤ × QueryRow)
  | .deleteAll => []
  | .insert place row => [(some place, row)]

/-- The rows of a call. -/
def callRows (req : WriteRequest) : List (Option ℤ × QueryRow) :=
  (queryStatements req).flatMap QueryStatement.contents

/-- What the call has still to insert; none once it is undone. -/
def Stage.toInsert (req : WriteRequest) : Stage → Option (List QueryStatement)
  | .inserting left => some left
  | .committed => some []
  | .aborted => none
  | _ => some (insertStatements req)

/-- What a call has inserted and what it has still to insert are its rows. -/
def StatementsInv (req : W → WriteRequest) (s : ConfigSys W) : Prop :=
  ∀ w left, (s.calls w).stage.toInsert (req w) = some left →
    (s.calls w).inserted.map StoredQuery.content ++ left.flatMap QueryStatement.contents =
      callRows (req w)

theorem callRows_eq (req : WriteRequest) :
    (insertStatements req).flatMap QueryStatement.contents = callRows req := by
  unfold callRows insertStatements queryStatements
  cases req.accounts <;> rfl

theorem callRows_ne_nil {req : WriteRequest} {accounts : List Account}
    (h : req.accounts = some accounts) (hvalid : validAccounts accounts ≠ []) :
    callRows req ≠ [] := by
  unfold callRows queryStatements
  rw [h]
  obtain ⟨a, as, hv⟩ := List.exists_cons_of_ne_nil hvalid
  simp only [hv]
  exact List.cons_ne_nil _ _

theorem StatementsInv.moved {req : W → WriteRequest} {s s' : ConfigSys W} {w : W} {c : Call W}
    (h : StatementsInv req s) (hcalls : s'.calls = (s.setCall w c).calls)
    (hc : ∀ left, c.stage.toInsert (req w) = some left →
      c.inserted.map StoredQuery.content ++ left.flatMap QueryStatement.contents =
        callRows (req w)) : StatementsInv req s' := by
  intro w' left hleft
  rw [hcalls, setCall_calls] at hleft ⊢
  split
  · rename_i hw
    rw [if_pos hw, hw] at hleft
    rw [hw]
    exact hc left hleft
  · rename_i hw
    rw [if_neg hw] at hleft
    exact h w' left hleft

theorem statementsInv_step {req : W → WriteRequest} {s s' : ConfigSys W} {a : RaceAction W}
    (h : StatementsInv req s) (hstep : raceStep req s a = some s') : StatementsInv req s' := by
  have hkept : ∀ {w left}, (s.calls w).stage.toInsert (req w) = some left → ∀ left',
      some left = some left' → (s.calls w).inserted.map StoredQuery.content ++
        left'.flatMap QueryStatement.contents = callRows (req w) := by
    rintro w left hleft left' ⟨⟩
    exact h w left hleft
  cases raceStep_effect hstep with
  | read hstage hrange => exact h.moved rfl (hkept (by rw [hstage]; rfl))
  | upsert hstage hfree => exact h.moved rfl (hkept (by rw [hstage]; rfl))
  | beginDelete haccounts hbegun =>
    refine h.moved rfl (hkept ?_)
    rcases hbegun with ⟨hstage, _⟩ | hstage <;> rw [hstage] <;> rfl
  | endDelete hstage => exact h.moved rfl (hkept (by rw [hstage]; rfl))
  | skipRow hstage _ => exact h.moved rfl (hkept (by rw [hstage]; rfl))
  | deleteRow hstage => exact h.moved rfl (hkept (by rw [hstage]; rfl))
  | @insert w place row left hstage =>
    refine h.moved rfl ?_
    rintro left' ⟨⟩
    have hrows := h w _ (by rw [hstage]; rfl)
    rw [List.flatMap_cons] at hrows
    rw [List.map_append, List.append_assoc]
    exact hrows
  | @commit w hstage =>
    refine h.moved rfl ?_
    rintro left ⟨⟩
    rcases hstage with ⟨hstage, hnone⟩ | hstage
    · have hrows := h w _ (by rw [hstage]; rfl)
      rwa [insertStatements, queryStatements, hnone] at hrows
    · exact h w _ (by rw [hstage]; rfl)
  | abort _ => exact h.moved rfl (by rintro _ ⟨⟩)

/-! ## Two replacements -/

section Runs
variable {req : W → WriteRequest} {t : ConfigTables} {gap : ℕ} {actions : List (RaceAction W)}
  {s : ConfigSys W}

theorem rows_run (h : exec (raceStep req) (.start t gap) actions = some s) :
    RowsInv req t s ∧ StatementsInv req s := by
  refine exec_kept (fun s => RowsInv req t s ∧ StatementsInv req s) (fun _ _ _ hinv hstep =>
    ⟨rowsInv_step hinv.1 hstep, statementsInv_step hinv.2 hstep⟩) ⟨RowsInv.start req t gap, ?_⟩ h
  rintro w left ⟨⟩
  exact callRows_eq (req w)

/-- A committed call's `DELETE` began after the commit of `o`. -/
def ConfigSys.Replaced (req : W → WriteRequest) (s : ConfigSys W) (o : W) : Prop :=
  ∃ w ∈ s.log, (req w).accounts.isSome = true ∧ o ∈ (s.calls w).seen

instance (req : W → WriteRequest) (s : ConfigSys W) (o : W) : Decidable (s.Replaced req o) :=
  inferInstanceAs (Decidable (∃ w ∈ s.log, _))

/-- **The query rows after any interleaving**: those at the start, unless a call has replaced them,
and those of each committed call that none has replaced. -/
theorem rows_after (h : exec (raceStep req) (.start t gap) actions = some s) :
    (s.rows.map fun r => r.stored.content) =
      (if ∃ w ∈ s.log, (req w).accounts.isSome = true then []
        else t.settingsFlex.map StoredQuery.content) ++
      s.log.flatMap fun o => if s.Replaced req o then [] else callRows (req o) := by
  obtain ⟨hrows, hstatements⟩ := rows_run h
  have hfirst : ((t.settingsFlex.map fun r => (⟨none, r⟩ : OwnedQuery W)).filter
      fun r => ¬ s.Gone req r).map (fun r => r.stored.content) =
        if ∃ w ∈ s.log, (req w).accounts.isSome = true then []
          else t.settingsFlex.map StoredQuery.content := by
    have hgone : ∀ r : StoredQuery, s.Gone req ⟨none, r⟩ ↔
        ∃ w ∈ s.log, (req w).accounts.isSome = true := by
      intro r
      simp [ConfigSys.Gone, ConfigSys.Sees]
    rw [List.filter_map, List.map_map]
    split
    · rename_i hreplaced
      simp [Function.comp_def, hgone, hreplaced]
    · rename_i hkept
      simp [Function.comp_def, hgone, hkept]
  have hcall : ∀ o ∈ s.log, (((s.calls o).inserted.map fun r => (⟨some o, r⟩ : OwnedQuery W)).filter
      fun r => ¬ s.Gone req r).map (fun r => r.stored.content) =
        if s.Replaced req o then [] else callRows (req o) := by
    intro o ho
    have hgone : ∀ r : StoredQuery, s.Gone req ⟨some o, r⟩ ↔ s.Replaced req o := by
      intro r
      simp [ConfigSys.Gone, ConfigSys.Sees, ConfigSys.Replaced]
    have hdone : (s.calls o).inserted.map StoredQuery.content = callRows (req o) := by
      have := hstatements o [] (by rw [(hrows.logged o).mp ho]; rfl)
      rwa [List.flatMap_nil, List.append_nil] at this
    rw [List.filter_map, List.map_map]
    split
    · rename_i hreplaced
      simp [Function.comp_def, hgone, hreplaced]
    · rename_i hkept
      simp [Function.comp_def, hgone, hkept, hdone]
  rw [hrows.table, ConfigSys.written, List.filter_append, List.map_append, hfirst,
    List.filter_flatMap, List.map_flatMap]
  exact congrArg _ (List.flatMap_congr hcall)

/-- The table holds the accounts of the call and nothing else. -/
def ConfigSys.HoldsExactly (req : W → WriteRequest) (s : ConfigSys W) (w : W) : Prop :=
  (s.rows.map fun r => r.stored.content).Perm (callRows (req w))

/-- **Two replacements.**  Of two calls that both name accounts and both commit, the table holds
exactly those of one if and only if the second one began its `DELETE` after the first had
committed. -/
theorem replacement_exact_iff {a b : W} {as bs : List Account}
    (h : exec (raceStep req) (.start t gap) actions = some s) (hlog : s.log = [a, b])
    (ha : (req a).accounts = some as) (hb : (req b).accounts = some bs)
    (hvalida : validAccounts as ≠ []) (hvalidb : validAccounts bs ≠ []) :
    (s.HoldsExactly req a ∨ s.HoldsExactly req b) ↔ a ∈ (s.calls b).seen := by
  obtain ⟨hrows, _⟩ := rows_run h
  have horder := hrows.order
  rw [hlog, List.pairwise_pair] at horder
  have hself := hrows.self
  have hfirst : s.Replaced req a ↔ a ∈ (s.calls b).seen := by
    simp [ConfigSys.Replaced, hlog, ha, hb, hself]
  have hsecond : ¬ s.Replaced req b := by
    simp [ConfigSys.Replaced, hlog, ha, hb, hself, horder.2]
  have htable := rows_after h
  rw [hlog] at htable
  simp only [List.flatMap_cons, List.flatMap_nil, List.append_nil, if_neg hsecond, hfirst] at htable
  rw [if_pos ⟨a, List.mem_cons_self, by rw [ha]; rfl⟩, List.nil_append] at htable
  unfold ConfigSys.HoldsExactly
  rw [htable]
  have hposa := List.length_pos_iff.mpr (callRows_ne_nil ha hvalida)
  have hposb := List.length_pos_iff.mpr (callRows_ne_nil hb hvalidb)
  constructor
  · intro hperm
    by_contra hunseen
    -- Both sets of rows are there: too many for either.
    rw [if_neg hunseen] at hperm
    rcases hperm with hperm | hperm
    · have := hperm.length_eq
      rw [List.length_append] at this
      omega
    · have := hperm.length_eq
      rw [List.length_append] at this
      omega
  · intro hseen
    rw [if_pos hseen]
    exact Or.inr (List.Perm.refl _)

end Runs

end System

/-- No settings and no rows. -/
def NO_CONFIG : ConfigTables := ⟨none, []⟩

/-- Two calls with an account each. -/
def accountsInTurn (w : Bool) : WriteRequest where
  accounts := some [⟨some (if w then "222" else "111"), none, none, none⟩]
  defaultDays := none
  initDays := none

/-- The second call begins when the first has committed. -/
def inTurn : List (RaceAction Bool) :=
  [.beginDelete false, .deleteRow false, .insert false, .commit false,
    .beginDelete true, .deleteRow true, .deleteRow true, .insert true, .commit true]

theorem replacement_exact_inTurn :
    ∃ s : ConfigSys Bool, exec (raceStep accountsInTurn) (.start NO_CONFIG 0) inTurn = some s ∧
      (s.HoldsExactly accountsInTurn false ∨ s.HoldsExactly accountsInTurn true) := by
  have hsome : (exec (raceStep accountsInTurn) (.start NO_CONFIG 0) inTurn).isSome = true := by
    decide +kernel
  have hlog : (exec (raceStep accountsInTurn) (.start NO_CONFIG 0) inTurn).map ConfigSys.log =
      some [false, true] := by
    decide +kernel
  have hseen : (exec (raceStep accountsInTurn) (.start NO_CONFIG 0) inTurn).map
      (fun s => (s.calls true).seen) = some [false] := by
    decide +kernel
  obtain ⟨s, hs⟩ := Option.isSome_iff_exists.mp hsome
  rw [hs, Option.map_some, Option.some.injEq] at hlog hseen
  refine ⟨s, hs, (replacement_exact_iff hs hlog rfl rfl (by decide) (by decide)).mpr ?_⟩
  rw [hseen]
  exact List.mem_singleton_self false

/-- Both calls begin before either commits. -/
def atOnce : List (RaceAction Bool) :=
  [.beginDelete false, .beginDelete true, .deleteRow false, .deleteRow true, .insert false,
    .insert true, .commit false, .commit true]

/-- Two calls replace the rows of an empty table at the same time, and both commit: the accounts of
both are left. -/
theorem replacements_unite :
    ∃ s : ConfigSys Bool, exec (raceStep accountsInTurn) (.start NO_CONFIG 0) atOnce = some s ∧
      s.log = [false, true] ∧
      s.rows.map (fun r => r.stored.row.queryHostId) = [some "111", some "222"] ∧
      ∀ w, ¬ s.HoldsExactly accountsInTurn w := by
  have hboth : (exec (raceStep accountsInTurn) (.start NO_CONFIG 0) atOnce).map
      (fun s => (s.log, s.rows.map fun r => r.stored.row.queryHostId)) =
        some ([false, true], [some "111", some "222"]) := by
    decide +kernel
  obtain ⟨s, hs, hends⟩ := Option.map_eq_some_iff.mp hboth
  obtain ⟨hlog, hids⟩ := Prod.mk.inj hends
  refine ⟨s, hs, hlog, hids, fun w hperm => ?_⟩
  have hlength := hperm.length_eq
  have htwo : s.rows.length = 2 := by
    have := congrArg List.length hids
    rwa [List.length_map] at this
  rw [List.length_map, htwo] at hlength
  revert hlength
  cases w <;> decide

section Runs
variable {W : Type} [DecidableEq W] {req : W → WriteRequest} {t : ConfigTables} {gap : ℕ}
  {actions : List (RaceAction W)} {s : ConfigSys W}

/-! ## Calls that name range days -/

/-- Among the calls that name range days, the `DELETE` of one sees all that committed before. -/
structure SerialInv (req : W → WriteRequest) (s : ConfigSys W) : Prop where
  running : ∀ w, (s.calls w).stage.begun = true → (req w).rangeRequested = true →
    ∀ o ∈ s.log, (req o).rangeRequested = true → o ∈ (s.calls w).seen
  committed : s.log.Pairwise fun o w => (req o).rangeRequested = true →
    (req w).rangeRequested = true → (req w).accounts.isSome = true → o ∈ (s.calls w).seen

/-- A step that commits nothing. -/
theorem SerialInv.moved {s s' : ConfigSys W} {w : W} {c : Call W} (h : SerialInv req s)
    (hlog : s'.log = s.log) (hcalls : s'.calls = (s.setCall w c).calls) (hnot : w ∉ s.log)
    (hc : c.stage.begun = true → c.seen = s.log ∨
      c.seen = (s.calls w).seen ∧ (s.calls w).stage.begun = true) : SerialInv req s' where
  running := by
    intro w' hbegun hrange o ho hrangeo
    rw [hlog] at ho
    rw [hcalls, setCall_calls] at hbegun ⊢
    split
    · rename_i hw
      rw [if_pos hw] at hbegun
      rcases hc hbegun with hseen | ⟨hseen, hbegun⟩
      · rw [hseen]
        exact ho
      · rw [hseen]
        exact h.running w hbegun (hw ▸ hrange) o ho hrangeo
    · rename_i hw
      rw [if_neg hw] at hbegun
      exact h.running w' hbegun hrange o ho hrangeo
  committed := by
    rw [hlog]
    refine h.committed.imp_of_mem fun {o w'} _ hw' hpair => ?_
    have hne : w' ≠ w := by
      rintro rfl
      exact hnot hw'
    rw [hcalls, setCall_calls, if_neg hne]
    exact hpair

theorem SerialInv.done {w : W} (h : SerialInv req s) (hdays : DaysInv req t s)
    (hrows : RowsInv req t s) (hstage : (s.calls w).stage = .upserted ∧ (req w).accounts = none ∨
      (s.calls w).stage = .inserting []) : SerialInv req (s.done w) := by
  have hcall : ∀ w', (s.done w).calls w' = if w' = w then { s.calls w with stage := .committed }
      else s.calls w' := fun w' => setCall_calls (s.release w) w _ w'
  have hholding : (s.calls w).stage.holding = true := by
    rcases hstage with ⟨hstage, _⟩ | hstage <;> rw [hstage] <;> rfl
  constructor
  · intro w' hbegun hrange o ho hrangeo
    rw [hcall] at hbegun ⊢
    split at hbegun
    · cases hbegun
    · rename_i hw
      rw [if_neg hw]
      rcases List.mem_append.mp ho with ho | ho
      · exact h.running w' hbegun hrange o ho hrangeo
      · -- Both would hold the row of the settings.
        rw [List.mem_singleton.mp ho] at hrangeo
        have hholding' : (s.calls w').stage.holding = true := by
          cases hs : (s.calls w').stage <;> rw [hs] at hbegun <;> first | rfl | cases hbegun
        obtain ⟨r, hr⟩ := hdays.held w hholding hrangeo
        obtain ⟨r', hr'⟩ := hdays.held w' hholding' hrange
        rw [hr] at hr'
        cases hr'
        exact absurd rfl hw
  · change (s.log ++ [w]).Pairwise _
    have hnot : w ∉ s.log := by
      rw [hrows.logged]
      rcases hstage with ⟨hstage, _⟩ | hstage <;> rw [hstage] <;> nofun
    rw [List.pairwise_append]
    refine ⟨h.committed.imp_of_mem fun {o w'} _ hw' hpair => ?_, List.pairwise_singleton _ _, ?_⟩
    · have hne : w' ≠ w := by
        rintro rfl
        exact hnot hw'
      rw [hcall, if_neg hne]
      exact hpair
    · intro o ho w' hw' hrangeo hrange haccounts
      rw [List.mem_singleton.mp hw'] at hrange haccounts ⊢
      rw [hcall, if_pos rfl]
      rcases hstage with ⟨_, hnone⟩ | hstage
      · rw [hnone] at haccounts
        cases haccounts
      · exact h.running w (by rw [hstage]; rfl) hrange o ho hrangeo

theorem serialInv_step {s' : ConfigSys W} {a : RaceAction W} (h : SerialInv req s)
    (hdays : DaysInv req t s) (hrows : RowsInv req t s) (hstep : raceStep req s a = some s') :
    SerialInv req s' := by
  have hnot : ∀ {w}, (s.calls w).stage ≠ .committed → w ∉ s.log := fun {w} hne hw =>
    hne ((hrows.logged w).mp hw)
  cases raceStep_effect hstep with
  | read hstage hrange => exact h.moved rfl rfl (hnot (by rw [hstage]; nofun)) nofun
  | upsert hstage hfree => exact h.moved rfl rfl (hnot (by rw [hstage]; nofun)) nofun
  | beginDelete haccounts hbegun =>
    refine h.moved rfl rfl (hnot ?_) fun _ => Or.inl rfl
    rcases hbegun with ⟨hstage, _⟩ | hstage <;> rw [hstage] <;> nofun
  | endDelete hstage =>
    exact h.moved rfl rfl (hnot (by rw [hstage]; nofun)) fun _ => Or.inr ⟨rfl, by rw [hstage]; rfl⟩
  | skipRow hstage _ =>
    exact h.moved rfl rfl (hnot (by rw [hstage]; nofun)) fun _ => Or.inr ⟨rfl, by rw [hstage]; rfl⟩
  | deleteRow hstage =>
    exact h.moved rfl rfl (hnot (by rw [hstage]; nofun)) fun _ => Or.inr ⟨rfl, by rw [hstage]; rfl⟩
  | insert hstage =>
    exact h.moved rfl rfl (hnot (by rw [hstage]; nofun)) fun _ => Or.inr ⟨rfl, by rw [hstage]; rfl⟩
  | commit hstage => exact h.done hdays hrows hstage
  | abort hstage => exact h.moved rfl rfl (hnot hstage) nofun

/-- Calls that also name range days replace the rows one after the other: the upsert of the second
waits for the commit of the first. -/
theorem named_days_serialize (h : exec (raceStep req) (.start t gap) actions = some s) :
    s.log.Pairwise fun o w => (req o).rangeRequested = true → (req w).rangeRequested = true →
      (req w).accounts.isSome = true → o ∈ (s.calls w).seen := by
  have hserial : SerialInv req (.start t gap) :=
    ⟨fun _ _ _ _ ho => absurd ho List.not_mem_nil, List.Pairwise.nil⟩
  refine (exec_kept (fun s => SerialInv req s ∧ DaysInv req t s ∧ RowsInv req t s) ?_
    ⟨hserial, DaysInv.start req t gap, RowsInv.start req t gap⟩ h).1.committed
  rintro s a s' ⟨hserial, hdays, hrows⟩ hstep
  exact ⟨serialInv_step hserial hdays hrows hstep, daysInv_step hdays hstep,
    rowsInv_step hrows hstep⟩

end Runs

end FlexQuery
