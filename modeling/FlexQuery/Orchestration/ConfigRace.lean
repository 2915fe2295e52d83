import FlexQuery.Library.Transition
import FlexQuery.Orchestration.ConfigWrite

/-!
# Configuration writes at the same time

The statements of any number of `write_flex_config` calls on the two tables, in any order that
`READ COMMITTED` allows: a statement sees what was committed before it began, an upsert waits for
the row of the settings, a `DELETE` for each row that another call has deleted.

* `ConfigSys`, `raceStep` — the committed tables, the locks, and where each call stands.
* `RaceEffect` — what a step can do.
* `days_not_lost` — each half of the range days is the one of the last call that named it.
-/

set_option autoImplicit false

namespace FlexQuery

open Transition

/-! ## The system -/

/-- Where a call stands. -/
inductive Stage where
  | start
  /-- The current range days are read, in a transaction of their own. -/
  | ready (vals : RangeDays)
  | upserted
  /-- The `DELETE` runs: the rows it has seen and not come to yet. -/
  | deleting (left : List ℕ)
  | inserting (left : List QueryStatement)
  | committed
  | aborted

/-- The transaction holds the row of the settings, if the call names range days. -/
def Stage.holding : Stage → Bool
  | .upserted => true
  | .deleting _ => true
  | .inserting _ => true
  | _ => false

/-- A call.  Which rows its `DELETE` has seen, and which calls had committed when it began, are kept
for the record. -/
structure Call (W : Type) where
  stage : Stage
  snapshot : List ℕ
  deleted : List ℕ
  inserted : List StoredQuery
  seen : List W

/-- A committed query row, with the call that has written it. -/
structure OwnedQuery (W : Type) where
  owner : Option W
  stored : StoredQuery

/-- What is committed, the row of the settings that a call holds with its new version, the query
rows that are deleted but not committed, and the calls in the order of their commits. -/
structure ConfigSys (W : Type) where
  settings : Option RangeDays
  holder : Option (W × RangeDays)
  rows : List (OwnedQuery W)
  locks : List (ℕ × W)
  nextId : ℕ
  calls : W → Call W
  log : List W

inductive RaceAction (W : Type) where
  | read (w : W)
  | upsert (w : W)
  | beginDelete (w : W)
  /-- The next row of the `DELETE`, or its end. -/
  | deleteRow (w : W)
  | insert (w : W)
  | commit (w : W)
  | abort (w : W)

section System
variable {W : Type}

/-- No call has begun; the sequence is past the rows that are there. -/
def ConfigSys.start (t : ConfigTables) (gap : ℕ) : ConfigSys W where
  settings := t.flexSettings
  holder := none
  rows := t.settingsFlex.map fun r => ⟨none, r⟩
  locks := []
  nextId := (t.settingsFlex.map StoredQuery.id).foldr max 0 + 1 + gap
  calls := fun _ => ⟨.start, [], [], [], []⟩
  log := []

variable [DecidableEq W]

def ConfigSys.setCall (s : ConfigSys W) (w : W) (c : Call W) : ConfigSys W :=
  { s with calls := Function.update s.calls w c }

def ConfigSys.ids (s : ConfigSys W) : List ℕ := s.rows.map fun r => r.stored.id

/-- Another call holds the row. -/
def ConfigSys.locked (s : ConfigSys W) (w : W) (id : ℕ) : Bool :=
  s.locks.any fun l => l.1 = id && l.2 ≠ w

/-- What the call releases when it ends. -/
def ConfigSys.release (s : ConfigSys W) (w : W) : ConfigSys W :=
  { s with
    holder := s.holder.filter fun h => h.1 ≠ w
    locks := s.locks.filter fun l => l.2 ≠ w }

/-- The settings once the call has committed. -/
def ConfigSys.settingsAfter (s : ConfigSys W) (w : W) : Option RangeDays :=
  match s.holder with
  | some (w', r) => if w' = w then some r else s.settings
  | none => s.settings

/-- The call has committed. -/
def ConfigSys.done (s : ConfigSys W) (w : W) : ConfigSys W :=
  { (s.release w).setCall w { s.calls w with stage := .committed } with
    settings := s.settingsAfter w
    rows := (s.rows.filter fun r => r.stored.id ∉ (s.calls w).deleted) ++
      (s.calls w).inserted.map fun r => ⟨some w, r⟩
    log := s.log ++ [w] }

/-- The `INSERT`s of a call. -/
def insertStatements (req : WriteRequest) : List QueryStatement := (queryStatements req).tail

def raceStep (req : W → WriteRequest) (s : ConfigSys W) : RaceAction W → Option (ConfigSys W)
  | .read w =>
    match (s.calls w).stage with
    | .start =>
      if (req w).rangeRequested then
        some (s.setCall w { s.calls w with
          stage := .ready (insertVals (req w) (effectiveDays s.settings)) })
      else none
    | _ => none
  | .upsert w =>
    match (s.calls w).stage with
    | .ready vals =>
      if s.holder.isNone then
        some { s.setCall w { s.calls w with stage := .upserted } with
          holder := some (w, upsertDays (req w) vals s.settings) }
      else none
    | _ => none
  | .beginDelete w =>
    let begun := s.setCall w { s.calls w with
      stage := .deleting s.ids, snapshot := s.ids, seen := s.log }
    match (s.calls w).stage with
    | .start => if !(req w).rangeRequested && (req w).accounts.isSome then some begun else none
    | .upserted => if (req w).accounts.isSome then some begun else none
    | _ => none
  | .deleteRow w =>
    match (s.calls w).stage with
    | .deleting [] =>
      some (s.setCall w { s.calls w with stage := .inserting (insertStatements (req w)) })
    | .deleting (id :: left) =>
      if id ∉ s.ids then some (s.setCall w { s.calls w with stage := .deleting left })
      else if s.locked w id then none
      else
        some { s.setCall w { s.calls w with
            stage := .deleting left, deleted := id :: (s.calls w).deleted } with
          locks := (id, w) :: s.locks }
    | _ => none
  | .insert w =>
    match (s.calls w).stage with
    | .inserting (.insert place row :: left) =>
      some { s.setCall w { s.calls w with
          stage := .inserting left
          inserted := (s.calls w).inserted ++ [⟨s.nextId, some place, row⟩] } with
        nextId := s.nextId + 1 }
    | _ => none
  | .commit w =>
    match (s.calls w).stage with
    | .upserted => if (req w).accounts.isNone then some (s.done w) else none
    | .inserting [] => some (s.done w)
    | _ => none
  | .abort w =>
    match (s.calls w).stage with
    | .committed => none
    | _ => some ((s.release w).setCall w { s.calls w with stage := .aborted })

/-! ## What a step can do -/

/-- The step of a call, by the stage the call is in. -/
inductive RaceEffect (req : W → WriteRequest) (s : ConfigSys W) : ConfigSys W → Prop
  | read {w : W} (hstage : (s.calls w).stage = .start) (hrange : (req w).rangeRequested = true) :
      RaceEffect req s (s.setCall w { s.calls w with
        stage := .ready (insertVals (req w) (effectiveDays s.settings)) })
  | upsert {w : W} {vals : RangeDays} (hstage : (s.calls w).stage = .ready vals)
      (hfree : s.holder = none) :
      RaceEffect req s { s.setCall w { s.calls w with stage := .upserted } with
        holder := some (w, upsertDays (req w) vals s.settings) }
  | beginDelete {w : W} (haccounts : (req w).accounts.isSome = true)
      (hstage : (s.calls w).stage = .start ∧ (req w).rangeRequested = false ∨
        (s.calls w).stage = .upserted) :
      RaceEffect req s (s.setCall w { s.calls w with
        stage := .deleting s.ids, snapshot := s.ids, seen := s.log })
  | endDelete {w : W} (hstage : (s.calls w).stage = .deleting []) :
      RaceEffect req s (s.setCall w { s.calls w with
        stage := .inserting (insertStatements (req w)) })
  | skipRow {w : W} {id : ℕ} {left : List ℕ} (hstage : (s.calls w).stage = .deleting (id :: left))
      (hgone : id ∉ s.ids) :
      RaceEffect req s (s.setCall w { s.calls w with stage := .deleting left })
  | deleteRow {w : W} {id : ℕ} {left : List ℕ}
      (hstage : (s.calls w).stage = .deleting (id :: left)) :
      RaceEffect req s { s.setCall w { s.calls w with
          stage := .deleting left, deleted := id :: (s.calls w).deleted } with
        locks := (id, w) :: s.locks }
  | insert {w : W} {place : ℕ} {row : QueryRow} {left : List QueryStatement}
      (hstage : (s.calls w).stage = .inserting (.insert place row :: left)) :
      RaceEffect req s { s.setCall w { s.calls w with
          stage := .inserting left
          inserted := (s.calls w).inserted ++ [⟨s.nextId, some place, row⟩] } with
        nextId := s.nextId + 1 }
  | commit {w : W} (hstage : (s.calls w).stage = .upserted ∧ (req w).accounts = none ∨
        (s.calls w).stage = .inserting []) :
      RaceEffect req s (s.done w)
  | abort {w : W} (hstage : (s.calls w).stage ≠ .committed) :
      RaceEffect req s ((s.release w).setCall w { s.calls w with stage := .aborted })

theorem raceStep_effect {req : W → WriteRequest} {s s' : ConfigSys W} {a : RaceAction W}
    (h : raceStep req s a = some s') : RaceEffect req s s' := by
  cases a with
  | read w =>
    simp only [raceStep] at h
    split at h
    · rename_i hstage
      split at h
      · rename_i hrange
        cases h
        exact .read hstage hrange
      · cases h
    · cases h
  | upsert w =>
    simp only [raceStep] at h
    split at h
    · rename_i vals hstage
      split at h
      · rename_i hfree
        cases h
        exact .upsert hstage (Option.isNone_iff_eq_none.mp hfree)
      · cases h
    · cases h
  | beginDelete w =>
    simp only [raceStep] at h
    split at h
    · rename_i hstage
      split at h
      · rename_i hboth
        cases h
        simp only [Bool.and_eq_true, Bool.not_eq_true'] at hboth
        exact .beginDelete hboth.2 (Or.inl ⟨hstage, hboth.1⟩)
      · cases h
    · rename_i hstage
      split at h
      · rename_i haccounts
        cases h
        exact .beginDelete haccounts (Or.inr hstage)
      · cases h
    · cases h
  | deleteRow w =>
    simp only [raceStep] at h
    split at h
    · rename_i hstage
      cases h
      exact .endDelete hstage
    · rename_i id left hstage
      split at h
      · rename_i hgone
        cases h
        exact .skipRow hstage hgone
      · split at h
        · cases h
        · cases h
          exact .deleteRow hstage
    · cases h
  | insert w =>
    simp only [raceStep] at h
    split at h
    · rename_i place row left hstage
      cases h
      exact .insert hstage
    · cases h
  | commit w =>
    simp only [raceStep] at h
    split at h
    · rename_i hstage
      split at h
      · rename_i haccounts
        cases h
        exact .commit (Or.inl ⟨hstage, Option.isNone_iff_eq_none.mp haccounts⟩)
      · cases h
    · rename_i hstage
      cases h
      exact .commit (Or.inr hstage)
    · cases h
  | abort w =>
    simp only [raceStep] at h
    split at h
    · cases h
    · rename_i hstage
      cases h
      exact .abort hstage

@[simp] theorem setCall_calls (s : ConfigSys W) (w : W) (c : Call W) (w' : W) :
    (s.setCall w c).calls w' = if w' = w then c else s.calls w' := by
  simp [ConfigSys.setCall, Function.update_apply]

/-- What a step of one call does not change, it changes of no call. -/
theorem calls_same {β : Type} (f : Call W → β) {s s' : ConfigSys W} {w : W} {c : Call W}
    (hcalls : s'.calls = (s.setCall w c).calls) (h : f c = f (s.calls w)) (w' : W) :
    f (s'.calls w') = f (s.calls w') := by
  rw [hcalls, setCall_calls]
  split
  · rename_i hw
    rw [hw, h]
  · rfl

/-! ## The range days -/

/-- The half as the last of the calls that name it leaves it. -/
def lastNamed (asked : W → Option ℤ) (log : List W) (initial : ℤ) : ℤ :=
  halfAfter (log.filterMap asked).getLast? initial

omit [DecidableEq W] in
theorem lastNamed_concat (asked : W → Option ℤ) (log : List W) (w : W) (initial : ℤ) :
    lastNamed asked (log ++ [w]) initial = halfAfter (asked w) (lastNamed asked log initial) := by
  unfold lastNamed
  cases hw : asked w <;> simp [hw, halfAfter]

/-- The two halves, as the calls that have committed leave them. -/
def namedDays (req : W → WriteRequest) (log : List W) (initial : ℤ × ℤ) : ℤ × ℤ :=
  (lastNamed (fun w => (req w).defaultDays) log initial.1,
    lastNamed (fun w => (req w).initDays) log initial.2)

/-- The settings show what the commits so far have left.  What a call has read is used only where
there is no row yet, and then it has read the defaults. -/
structure DaysInv (req : W → WriteRequest) (t : ConfigTables) (s : ConfigSys W) : Prop where
  shown : effectiveDays s.settings = namedDays req s.log (effectiveDays t.flexSettings)
  read : ∀ w vals, (s.calls w).stage = .ready vals → s.settings = none →
    vals = insertVals (req w) (effectiveDays none)
  pending : ∀ w r, s.holder = some (w, r) → effectiveDays (some r) =
    (halfAfter (req w).defaultDays (effectiveDays s.settings).1,
      halfAfter (req w).initDays (effectiveDays s.settings).2)
  held : ∀ w, (s.calls w).stage.holding = true → (req w).rangeRequested = true →
    ∃ r, s.holder = some (w, r)

omit [DecidableEq W] in
theorem DaysInv.start (req : W → WriteRequest) (t : ConfigTables) (gap : ℕ) :
    DaysInv req t (.start t gap) where
  shown := rfl
  read := nofun
  pending := nofun
  held := nofun

/-- A step of a call that leaves the settings and their row alone. -/
theorem DaysInv.moved {req : W → WriteRequest} {t : ConfigTables} {s s' : ConfigSys W} {w : W}
    {c : Call W} (h : DaysInv req t s) (hsettings : s'.settings = s.settings)
    (hholder : s'.holder = s.holder) (hlog : s'.log = s.log)
    (hcalls : s'.calls = (s.setCall w c).calls)
    (hread : ∀ vals, c.stage = .ready vals → s.settings = none →
      vals = insertVals (req w) (effectiveDays none))
    (hheld : c.stage.holding = true → (req w).rangeRequested = true →
      (s.calls w).stage.holding = true) : DaysInv req t s' where
  shown := by
    rw [hsettings, hlog]
    exact h.shown
  read := by
    intro w' vals hstage hnone
    rw [hsettings] at hnone
    rw [hcalls, setCall_calls] at hstage
    split at hstage
    · rename_i hw
      exact hw ▸ hread vals hstage hnone
    · exact h.read w' vals hstage hnone
  pending := by
    rw [hholder, hsettings]
    exact h.pending
  held := by
    intro w' hstage hrange
    rw [hholder]
    rw [hcalls, setCall_calls] at hstage
    split at hstage
    · rename_i hw
      subst hw
      exact h.held w' (hheld hstage hrange) hrange
    · exact h.held w' hstage hrange

omit [DecidableEq W] in
theorem namedDays_concat (req : W → WriteRequest) (log : List W) (w : W) (initial : ℤ × ℤ) :
    namedDays req (log ++ [w]) initial =
      (halfAfter (req w).defaultDays (namedDays req log initial).1,
        halfAfter (req w).initDays (namedDays req log initial).2) := by
  simp only [namedDays, lastNamed_concat]

/-- What the ends of a call leave of the lock on the settings. -/
theorem holder_release {s : ConfigSys W} {w w' : W} {r : RangeDays}
    (h : (s.release w).holder = some (w', r)) : s.holder = some (w', r) ∧ w' ≠ w := by
  simpa [ConfigSys.release, Option.filter_eq_some_iff] using h

theorem holder_release_of_ne {s : ConfigSys W} {w w' : W} {r : RangeDays}
    (h : s.holder = some (w', r)) (hw : w' ≠ w) : (s.release w).holder = some (w', r) := by
  simp [ConfigSys.release, h, hw]

/-- The settings when a call commits: its own version, or as they are for a call that names no range
days. -/
theorem settingsAfter_days {req : W → WriteRequest} {t : ConfigTables} {s : ConfigSys W} {w : W}
    (h : DaysInv req t s) (hstage : (s.calls w).stage.holding = true) :
    effectiveDays (s.settingsAfter w) =
      (halfAfter (req w).defaultDays (effectiveDays s.settings).1,
        halfAfter (req w).initDays (effectiveDays s.settings).2) := by
  by_cases hrange : (req w).rangeRequested = true
  · obtain ⟨r, hr⟩ := h.held w hstage hrange
    rw [ConfigSys.settingsAfter, hr]
    simp only [if_true]
    exact h.pending w r hr
  · have hnone : (req w).defaultDays = none ∧ (req w).initDays = none := by
      simpa [WriteRequest.rangeRequested] using hrange
    rw [hnone.1, hnone.2]
    unfold ConfigSys.settingsAfter
    split
    · rename_i w' r hr
      split
      · rename_i hw
        have hpending := h.pending w' r hr
        rwa [hw, hnone.1, hnone.2] at hpending
      · rfl
    · rfl

theorem DaysInv.done {req : W → WriteRequest} {t : ConfigTables} {s : ConfigSys W} {w : W}
    (h : DaysInv req t s) (hstage : (s.calls w).stage.holding = true) : DaysInv req t (s.done w) where
  shown := by
    change effectiveDays (s.settingsAfter w) = namedDays req (s.log ++ [w]) _
    rw [settingsAfter_days h hstage, namedDays_concat, h.shown]
  read := by
    intro w' vals hready hnone
    have hcall : w' ≠ w := by
      rintro rfl
      simp [ConfigSys.done] at hready
    have hsettings : s.settings = none := by
      change s.settingsAfter w = none at hnone
      unfold ConfigSys.settingsAfter at hnone
      split at hnone
      · split at hnone
        · cases hnone
        · exact hnone
      · exact hnone
    refine h.read w' vals ?_ hsettings
    simpa [ConfigSys.done, ConfigSys.release, ConfigSys.setCall, hcall] using hready
  pending := by
    intro w' r hr
    obtain ⟨hholder, hw⟩ := holder_release hr
    have hsettings : s.settingsAfter w = s.settings := by
      simp [ConfigSys.settingsAfter, hholder, hw]
    change effectiveDays (some r) = (halfAfter _ (effectiveDays (s.settingsAfter w)).1,
      halfAfter _ (effectiveDays (s.settingsAfter w)).2)
    rw [hsettings]
    exact h.pending w' r hholder
  held := by
    intro w' hholding hrange
    have hcall : w' ≠ w := by
      rintro rfl
      simp [ConfigSys.done, ConfigSys.setCall, Stage.holding] at hholding
    obtain ⟨r, hr⟩ := h.held w' (by
      simpa [ConfigSys.done, ConfigSys.release, ConfigSys.setCall, hcall] using hholding) hrange
    exact ⟨r, holder_release_of_ne hr hcall⟩

theorem DaysInv.upsert {req : W → WriteRequest} {t : ConfigTables} {s : ConfigSys W} {w : W}
    {vals : RangeDays} (h : DaysInv req t s) (hstage : (s.calls w).stage = .ready vals)
    (hfree : s.holder = none) :
    DaysInv req t { s.setCall w { s.calls w with stage := .upserted } with
      holder := some (w, upsertDays (req w) vals s.settings) } where
  shown := h.shown
  read := by
    intro w' vals' hready hnone
    simp only [setCall_calls] at hready
    split at hready
    · cases hready
    · exact h.read w' vals' hready hnone
  pending := by
    intro w' r hr
    obtain ⟨rfl, rfl⟩ := Prod.mk.inj (Option.some.inj hr)
    change effectiveDays (some (upsertDays (req w) vals s.settings)) =
      (halfAfter _ (effectiveDays s.settings).1, halfAfter _ (effectiveDays s.settings).2)
    rw [← effectiveDays_upsert]
    -- What was read is used only where there is no row.
    cases hsettings : s.settings with
    | none => rw [h.read w vals hstage hsettings]
    | some r => rfl
  held := by
    intro w' hholding hrange
    simp only [setCall_calls] at hholding
    split at hholding
    · rename_i hw
      exact ⟨_, by rw [hw]⟩
    · obtain ⟨r, hr⟩ := h.held w' hholding hrange
      rw [hfree] at hr
      cases hr

theorem DaysInv.abort {req : W → WriteRequest} {t : ConfigTables} {s : ConfigSys W} {w : W}
    (h : DaysInv req t s) :
    DaysInv req t ((s.release w).setCall w { s.calls w with stage := .aborted }) where
  shown := h.shown
  read := by
    intro w' vals hready hnone
    rw [setCall_calls] at hready
    split at hready
    · cases hready
    · exact h.read w' vals hready hnone
  pending := fun w' r hr => h.pending w' r (holder_release hr).1
  held := by
    intro w' hholding hrange
    rw [setCall_calls] at hholding
    split at hholding
    · cases hholding
    · rename_i hw
      obtain ⟨r, hr⟩ := h.held w' hholding hrange
      exact ⟨r, holder_release_of_ne hr hw⟩

/-- **Step lemma.** -/
theorem daysInv_step {req : W → WriteRequest} {t : ConfigTables} {s s' : ConfigSys W}
    {a : RaceAction W} (h : DaysInv req t s) (hstep : raceStep req s a = some s') :
    DaysInv req t s' := by
  cases raceStep_effect hstep with
  | read hstage hrange =>
    refine h.moved rfl rfl rfl rfl ?_ nofun
    intro vals hready hnone
    cases hready
    rw [hnone]
  | upsert hstage hfree => exact h.upsert hstage hfree
  | @beginDelete w haccounts hbegun =>
    refine h.moved rfl rfl rfl rfl nofun fun _ hrange => ?_
    rcases hbegun with ⟨_, hnone⟩ | hupserted
    · rw [hrange] at hnone
      cases hnone
    · rw [hupserted]
      rfl
  | endDelete hstage => exact h.moved rfl rfl rfl rfl nofun fun _ _ => by rw [hstage]; rfl
  | skipRow hstage _ => exact h.moved rfl rfl rfl rfl nofun fun _ _ => by rw [hstage]; rfl
  | deleteRow hstage => exact h.moved rfl rfl rfl rfl nofun fun _ _ => by rw [hstage]; rfl
  | insert hstage => exact h.moved rfl rfl rfl rfl nofun fun _ _ => by rw [hstage]; rfl
  | commit hstage =>
    refine h.done ?_
    rcases hstage with ⟨hupserted, _⟩ | hinserting
    · rw [hupserted]
      rfl
    · rw [hinserting]
      rfl
  | abort _ => exact h.abort

/-- **No lost update.**  After any interleaving, each half of the range days is the one of the last
committed call that named it, and what it was at the start if none did. -/
theorem days_not_lost {req : W → WriteRequest} {t : ConfigTables} {gap : ℕ}
    {actions : List (RaceAction W)} {s : ConfigSys W}
    (h : exec (raceStep req) (.start t gap) actions = some s) :
    effectiveDays s.settings =
      (lastNamed (fun w => (req w).defaultDays) s.log (effectiveDays t.flexSettings).1,
        lastNamed (fun w => (req w).initDays) s.log (effectiveDays t.flexSettings).2) :=
  (exec_kept (DaysInv req t) (fun _ _ _ hinv hstep => daysInv_step hinv hstep)
    (DaysInv.start req t gap) h).shown

end System

/-- Each of two calls names the other half; both read before either writes. -/
def oneHalfEach (w : Bool) : WriteRequest where
  accounts := none
  defaultDays := if w then none else some 14
  initDays := if w then some 90 else none

def crossed : List (RaceAction Bool) :=
  [.read false, .read true, .upsert true, .commit true, .upsert false, .commit false]

/-- Neither update is lost. -/
theorem days_not_lost_crossed :
    ∃ s : ConfigSys Bool, exec (raceStep oneHalfEach) (.start ⟨none, []⟩ 0) crossed = some s ∧
      effectiveDays s.settings = (14, 90) := by
  have hlog : (exec (raceStep oneHalfEach) (.start ⟨none, []⟩ 0) crossed).map ConfigSys.log =
      some [true, false] := by
    decide +kernel
  obtain ⟨s, hs, hlog⟩ := Option.map_eq_some_iff.mp hlog
  refine ⟨s, hs, ?_⟩
  rw [days_not_lost hs, hlog]
  rfl

end FlexQuery
