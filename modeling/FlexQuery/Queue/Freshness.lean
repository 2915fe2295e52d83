import FlexQuery.Library.Board
import FlexQuery.Queue.System
import FlexQuery.Schema.Freshness

/-!
# Freshness and the attempts

The outcome of an attempt is written twice, to its job and to the freshness row of its kind, by
different statements: `dispatch` records a success before `mark_done`, a failure and a manual run
are recorded after their mark, and `reclaim_stale_running` records nothing.

* `FreshSys` — the queue with the freshness table; `ended` and `success` are ghost fields.
* `freshStep` — the queue's actions, with the freshness writes in their place between them.
* `changeOf`, `freshStep_board` — what a step means for the board of the freshness rows.
* `freshness_truthful_iff` — along a run the rows tell the truth about the last attempts exactly
  when every step meets `KeepsFresh`.
-/

set_option autoImplicit false

namespace FlexQuery

open Transition

/-- Who still has to record an outcome. -/
inductive Owner where
  | worker (w : ℕ)
  /-- The request of the manual run with this job. -/
  | manual (k : ℕ)
  deriving DecidableEq

/-- `recorded` — the worker has recorded a success and not yet marked its job; `owed` — what is
marked and not yet recorded.  `ended` says of a kind whether the attempt that ended last has
succeeded (not if none has ended), and `success` when one last did. -/
structure FreshSys where
  queue : Sys
  fresh : FreshnessTable
  recorded : ℕ → Bool
  owed : Owner → Option FreshnessRecord
  ended : String → Bool
  success : String → Option Timestamp

inductive FreshAction where
  | queue (a : Action)
  /-- `dispatch` returns: its success is recorded, `mark_done` is still to come. -/
  | recordSuccess (w : ℕ) (processedRows : ℤ) (newRows : Option ℕ)
  /-- `record_ingest_outcome`, or `record_freshness` of `_audit_finish`. -/
  | recordOutcome (o : Owner)
  /-- A manual run whose row could not be created. -/
  | unaudited (kind : String) (res : ManualResult)
  /-- The API process ends between the mark and the record of a manual run. -/
  | loseManual (k : ℕ)

/-- What `record_ingest_outcome` is given. -/
def failureRecord (cfg : QueueConfig) (j : Job) (msg : String) : FreshnessRecord where
  dimension := strip j.kind
  ok := false
  error := some ((planFor cfg j msg).category.value ++ ": " ++ msg)
  jobId := some j.id

/-- What `_audit_finish` records. -/
def manualRecord (kind : String) (jobId : Option ℕ) (res : ManualResult) : FreshnessRecord where
  dimension := kind
  ok := res.ok && res.said.isEmpty
  processedRows := res.processed
  error := if res.ok && res.said.isEmpty then none else some res.errorText
  jobId := jobId

namespace FreshSys

def init : FreshSys := ⟨Sys.init, fun _ => none, fun _ => false, fun _ => none, fun _ => false,
  fun _ => none⟩

section
variable (s : FreshSys) (cfg : QueueConfig) (now : Timestamp)

/-- An attempt ends with this outcome. -/
def ends (a : FreshnessRecord) : FreshSys :=
  { s with
    ended := Function.update s.ended a.dimension a.ok
    success := if a.ok then Function.update s.success a.dimension (some now) else s.success }

/-- `record_freshness`.  A success has the time of its record. -/
def records (a : FreshnessRecord) : FreshSys :=
  { s with
    fresh := recordFreshness now a s.fresh
    success := if a.ok then Function.update s.success a.dimension (some now) else s.success }

/-- The worker or the request is at this point of its code. -/
def enabled : Action → Bool
  | .claimNext w => (s.owed (.worker w)).isNone
  | .reclaimStaleRunning w => (s.owed (.worker w)).isNone
  | .markDone w _ => s.recorded w
  | .fail w _ => !s.recorded w && (s.owed (.worker w)).isNone
  | .auditFinish k _ => (s.owed (.manual k)).isNone
  | _ => true

/-- The kind of a manual run. -/
def kindOf (k : ℕ) : String := ((s.queue.table.row k).map JobRow.kind).getD ""

/-- The outcome that an action marks, if its statement is not refused. -/
def marks (q : Sys) : Action → Option (Owner × FreshnessRecord)
  | .fail w msg =>
    match s.queue.workers w with
    | .running j =>
      if q.violations = s.queue.violations then some (.worker w, failureRecord cfg j msg) else none
    | _ => none
  | .auditFinish k res =>
    if q.violations = s.queue.violations then
      some (.manual k, manualRecord (s.kindOf k) (some k) res)
    else none
  | _ => none

/-- The kinds of the rows that a reclaim takes. -/
def staleKinds : List String :=
  (s.queue.table.rows.filter (JobRow.stale now (max 60 cfg.staleAfterSec))).map fun r =>
    strip r.kind

/-- After an action of the queue. -/
def after (q : Sys) (a : Action) : FreshSys :=
  match s.marks cfg q a with
  | some (o, x) => { s.ends now x with queue := q, owed := Function.update s.owed o (some x) }
  | none =>
    match a with
    | .reclaimStaleRunning _ =>
      { s with
        queue := q
        ended := fun kind => if kind ∈ s.staleKinds cfg now then false else s.ended kind }
    | .markDone w _ => { s with queue := q, recorded := Function.update s.recorded w false }
    | .crash w =>
      { s with
        queue := q
        recorded := Function.update s.recorded w false
        owed := Function.update s.owed (.worker w) none }
    | _ => { s with queue := q }

/-- The owner has come to its record: a worker has cooled the queue before. -/
def atRecord : Owner → Bool
  | .worker w =>
    match s.queue.workers w with
    | .idle => true
    | _ => false
  | .manual _ => true

end

end FreshSys

def freshStep (cfg : QueueConfig) (s : FreshSys) : Timestamp × FreshAction → Option FreshSys
  | (now, .queue a) =>
    if s.enabled a then
      match step cfg s.queue (now, a) with
      | none => none
      | some q => some (s.after cfg now q a)
    else none
  | (now, .recordSuccess w processedRows newRows) =>
    match s.queue.workers w with
    | .running j =>
      if s.recorded w then none
      else
        let a : FreshnessRecord := ⟨strip j.kind, true, processedRows, newRows, none, some j.id⟩
        some { (s.ends now a).records now a with recorded := Function.update s.recorded w true }
    | _ => none
  | (now, .recordOutcome o) =>
    if s.atRecord o then
      match s.owed o with
      | none => none
      | some a => some { s.records now a with owed := Function.update s.owed o none }
    else none
  | (now, .unaudited kind res) =>
    let a := manualRecord kind none res
    some ((s.ends now a).records now a)
  | (_, .loseManual k) => some { s with owed := Function.update s.owed (.manual k) none }

/-! ## The board -/

/-- What the freshness rows show, and what they stand for. -/
def FreshSys.board (s : FreshSys) : Board.State String Owner Timestamp where
  shown := s.fresh.saysOk
  latest := s.fresh.latestTs
  owed := fun o => (s.owed o).map fun a => (a.dimension, a.ok)
  ended := s.ended
  success := s.success

/-- What an action of the queue means for the board. -/
def queueChange (cfg : QueueConfig) (now : Timestamp) (s : FreshSys) (q : Sys) (a : Action) :
    Board.Change String Owner :=
  match s.marks cfg q a with
  | some (o, x) => .note o x.dimension x.ok
  | none =>
    match a with
    | .reclaimStaleRunning _ => .expire (s.staleKinds cfg now)
    | .crash w => .lose (.worker w)
    | _ => .quiet

/-- What a step means for the board. -/
def changeOf (cfg : QueueConfig) (s : FreshSys) : Timestamp × FreshAction →
    Board.Change String Owner
  | (now, .queue a) =>
    match step cfg s.queue (now, a) with
    | none => .quiet
    | some q => queueChange cfg now s q a
  | (_, .recordSuccess w _ _) =>
    match s.queue.workers w with
    | .running j => .report (strip j.kind) true
    | _ => .quiet
  | (_, .recordOutcome o) => .write o
  | (_, .unaudited kind res) => .report kind (res.ok && res.said.isEmpty)
  | (_, .loseManual k) => .lose (.manual k)

section Steps
variable {cfg : QueueConfig} {s s' : FreshSys} {now : Timestamp}

/-- Who marks an outcome owes none. -/
theorem owed_of_marks {q : Sys} {a : Action} {o : Owner} {x : FreshnessRecord}
    (henabled : s.enabled a = true) (h : s.marks cfg q a = some (o, x)) : s.owed o = none := by
  cases a with
  | fail w msg =>
    simp only [FreshSys.marks] at h
    split at h
    · split at h
      · cases h
        exact Option.isNone_iff_eq_none.mp (Bool.and_eq_true_iff.mp henabled).2
      · cases h
    · cases h
  | auditFinish k res =>
    simp only [FreshSys.marks] at h
    split at h
    · cases h
      exact Option.isNone_iff_eq_none.mp henabled
    · cases h
  | _ => cases h

theorem owed_update (owed : Owner → Option FreshnessRecord) (o : Owner)
    (x : Option FreshnessRecord) :
    (fun o' => (Function.update owed o x o').map fun a => (a.dimension, a.ok)) =
      Function.update (fun o' => (owed o').map fun a => (a.dimension, a.ok)) o
        (x.map fun a => (a.dimension, a.ok)) := by
  funext o'
  by_cases ho : o' = o
  · rw [ho, Function.update_self, Function.update_self]
  · rw [Function.update_of_ne ho, Function.update_of_ne ho]

/-- An action of the queue. -/
theorem after_board (q : Sys) (a : Action) :
    (s.after cfg now q a).board = s.board.apply now (queueChange cfg now s q a) := by
  unfold FreshSys.after queueChange
  cases hmarks : s.marks cfg q a with
  | some x =>
    simp only [FreshSys.board, FreshSys.ends, Board.State.apply, owed_update, Option.map_some]
  | none =>
    cases a with
    | crash w => simp only [FreshSys.board, Board.State.apply, owed_update, Option.map_none]
    | _ => rfl

/-- A record. -/
theorem records_board (a : FreshnessRecord) : (s.records now a).board = { s.board with
    shown := Function.update s.board.shown a.dimension a.ok
    latest := if a.ok then Function.update s.board.latest a.dimension (some now)
      else s.board.latest
    success := if a.ok then Function.update s.board.success a.dimension (some now)
      else s.board.success } := by
  simp only [FreshSys.board, FreshSys.records, recordFreshness_saysOk, recordFreshness_latestTs]

theorem board_recorded (recorded : ℕ → Bool) :
    ({ s with recorded := recorded } : FreshSys).board = s.board :=
  rfl

/-- An attempt that ends with its record. -/
theorem report_board (a : FreshnessRecord) :
    ((s.ends now a).records now a).board = s.board.apply now (.report a.dimension a.ok) := by
  rw [records_board]
  unfold FreshSys.board FreshSys.ends Board.State.apply
  cases a.ok <;> simp

/-- What is owed is recorded. -/
theorem write_board {o : Owner} {a : FreshnessRecord} (ho : s.owed o = some a) :
    ({ s.records now a with owed := Function.update s.owed o none } : FreshSys).board =
      s.board.apply now (.write o) := by
  have hboard : s.board.owed o = some (a.dimension, a.ok) := by simp [FreshSys.board, ho]
  simp only [Board.State.apply, hboard]
  simp only [FreshSys.board, FreshSys.records, recordFreshness_saysOk, recordFreshness_latestTs,
    owed_update, Option.map_none]

/-- **Refinement.**  A step does to the board what `changeOf` says. -/
theorem freshStep_board {e : Timestamp × FreshAction} (h : freshStep cfg s e = some s') :
    s'.board = s.board.apply e.1 (changeOf cfg s e) ∧ Board.Allowed s.board (changeOf cfg s e) := by
  obtain ⟨now, e⟩ := e
  cases e with
  | queue a =>
    simp only [freshStep] at h
    split at h
    · rename_i henabled
      simp only [changeOf]
      cases hq : step cfg s.queue (now, a) with
      | none =>
        rw [hq] at h
        cases h
      | some q =>
        rw [hq] at h
        cases h
        refine ⟨after_board q a, ?_⟩
        simp only [queueChange]
        cases hmarks : s.marks cfg q a with
        | some x =>
          have hnone := owed_of_marks henabled hmarks
          simp [Board.Allowed, FreshSys.board, hnone]
        | none => cases a <;> trivial
    · cases h
  | recordSuccess w processedRows newRows =>
    simp only [freshStep] at h
    simp only [changeOf]
    cases hw : s.queue.workers w with
    | running j =>
      rw [hw] at h
      simp only at h
      split at h
      · cases h
      · rw [← Option.some.inj h, board_recorded]
        exact ⟨report_board ⟨strip j.kind, true, processedRows, newRows, none, some j.id⟩, trivial⟩
    | idle =>
      rw [hw] at h
      cases h
    | cooling j delay =>
      rw [hw] at h
      cases h
  | recordOutcome o =>
    simp only [freshStep] at h
    split at h
    · cases ho : s.owed o with
      | none =>
        rw [ho] at h
        cases h
      | some a =>
        rw [ho] at h
        cases h
        refine ⟨?_, trivial⟩
        exact write_board ho
    · cases h
  | unaudited kind res =>
    obtain rfl := Option.some.inj h
    exact ⟨report_board (manualRecord kind none res), trivial⟩
  | loseManual k =>
    cases h
    refine ⟨?_, trivial⟩
    simp only [FreshSys.board, changeOf, Board.State.apply, owed_update, Option.map_none]

end Steps

/-! ## The truth about the last attempt -/

/-- The freshness row of a kind, and its gauge, are right as soon as nothing is owed for it: they
say `ok` exactly when the attempt that ended last has succeeded, and `latest_ts` is the time of
the most recent success. -/
structure FreshSys.Truthful (s : FreshSys) : Prop where
  lastOk : ∀ kind, (∀ o x, s.owed o = some x → x.dimension ≠ kind) →
    (s.fresh.saysOk kind = true ↔ s.ended kind = true)
  lastAttemptOk : ∀ kind, (∀ o x, s.owed o = some x → x.dimension ≠ kind) →
    ((s.fresh kind).bind lastAttemptOk = some 1 ↔ s.ended kind = true)
  latestTs : ∀ kind, (∀ o x, s.owed o = some x → x.ok = true → x.dimension ≠ kind) →
    s.fresh.latestTs kind = s.success kind

/-- No `latest_ts` moves back. -/
def FreshSys.Forward (s s' : FreshSys) : Prop :=
  ∀ kind t, s.fresh.latestTs kind = some t → ∃ t', s'.fresh.latestTs kind = some t' ∧ t ≤ t'

theorem FreshSys.truthful_iff (s : FreshSys) : s.Truthful ↔ s.board.Truthful := by
  have hclear : ∀ kind, s.board.ClearBut none kind ↔
      ∀ o x, s.owed o = some x → x.dimension ≠ kind := by
    intro kind
    simp only [Board.State.ClearBut, FreshSys.board, ne_eq, Option.map_eq_some_iff, Prod.mk.injEq]
    constructor
    · rintro h o x hx hk
      exact h o x.ok nofun ⟨x, hx, hk, rfl⟩
    · rintro h o ok _ ⟨x, hx, hk, _⟩
      exact h o x hx hk
  have hsuccess : ∀ kind, s.board.NoSuccessBut none kind ↔
      ∀ o x, s.owed o = some x → x.ok = true → x.dimension ≠ kind := by
    intro kind
    simp only [Board.State.NoSuccessBut, FreshSys.board, ne_eq, Option.map_eq_some_iff,
      Prod.mk.injEq]
    constructor
    · rintro h o x hx hok hk
      exact h o nofun ⟨x, hx, hk, hok⟩
    · rintro h o _ ⟨x, hx, hk, hok⟩
      exact h o x hx hok hk
  constructor
  · rintro ⟨hlast, _, hlatest⟩
    exact ⟨fun kind h => Bool.eq_iff_iff.mpr (hlast kind ((hclear kind).mp h)),
      fun kind h => hlatest kind ((hsuccess kind).mp h)⟩
  · rintro ⟨hshown, hlatest⟩
    have hlast : ∀ kind, (∀ o x, s.owed o = some x → x.dimension ≠ kind) →
        (s.fresh.saysOk kind = true ↔ s.ended kind = true) :=
      fun kind h => Bool.eq_iff_iff.mp (hshown kind ((hclear kind).mpr h))
    exact ⟨hlast, fun kind h => (lastAttemptOk_iff s.fresh kind).trans (hlast kind h),
      fun kind h => hlatest kind ((hsuccess kind).mpr h)⟩

/-- A step that is taken meets the board's condition. -/
def KeepsFresh (cfg : QueueConfig) (s : FreshSys) (e : Timestamp × FreshAction) : Prop :=
  ∀ s', freshStep cfg s e = some s' → Board.Kept s.board e.1 (changeOf cfg s e)

/-- **Step lemma.** -/
theorem keepsFresh_iff {cfg : QueueConfig} {s : FreshSys} {e : Timestamp × FreshAction}
    (h : s.Truthful) :
    (∀ s', freshStep cfg s e = some s' → s'.Truthful ∧ s.Forward s') ↔ KeepsFresh cfg s e := by
  refine forall_congr' fun s' => forall_congr' fun hstep => ?_
  obtain ⟨hboard, hallowed⟩ := freshStep_board hstep
  have hiff : ((s.board.apply e.1 (changeOf cfg s e)).Truthful ∧
      s.board.Forward (s.board.apply e.1 (changeOf cfg s e))) ↔
        Board.Kept s.board e.1 (changeOf cfg s e) :=
    Board.apply_iff (s.truthful_iff.mp h) hallowed
  rw [← hboard] at hiff
  rw [s'.truthful_iff]
  exact hiff

/-- **Freshness tells the truth.**  However the workers, the manual runs, crashes and reclaims
follow one another: after every step the freshness rows are right about every kind that no outcome
is owed for, and no `latest_ts` has moved back, exactly when every step meets the condition. -/
theorem freshness_truthful_iff (cfg : QueueConfig) (events : List (Timestamp × FreshAction)) :
    Along (freshStep cfg)
        (fun s e => ∀ s', freshStep cfg s e = some s' → s'.Truthful ∧ s.Forward s')
        FreshSys.init events ↔
      Along (freshStep cfg) (KeepsFresh cfg) FreshSys.init events := by
  have hinit : FreshSys.init.Truthful :=
    ⟨fun _ _ => Iff.rfl, fun _ _ => iff_of_false nofun nofun, fun _ _ => rfl⟩
  have hiff : ∀ (s : FreshSys) (e : Timestamp × FreshAction), s.Truthful →
      ((∀ s', freshStep cfg s e = some s' → s'.Truthful ∧ s.Forward s') ↔ KeepsFresh cfg s e) :=
    fun _ _ => keepsFresh_iff
  exact along_congr hiff (fun s e s' _ hafter hstep => (hafter s' hstep).1) hinit

/-! ## A reclaim -/

/-- The morning job succeeds; the worker dies in the next one, which is reclaimed. -/
def crashedMorning : List (Timestamp × FreshAction) :=
  [(0, .queue (.insertJob "flex-trades" [] 5 8 none)), (1, .queue (.claimNext 0)),
    (2, .recordSuccess 0 3 none), (3, .queue (.markDone 0 [])),
    (4, .queue (.insertJob "flex-trades" [] 5 8 none)), (5, .queue (.claimNext 0)),
    (6, .queue (.crash 0)), (seconds 7300, .queue (.reclaimStaleRunning 0))]

/-- Nothing is owed, the gauge is 1, and the attempt that ended last was reclaimed. -/
theorem reclaimed_attempt_shown_ok :
    ∃ s, exec (freshStep scheduleConfig) FreshSys.init crashedMorning = some s ∧
      (s.fresh "flex-trades").bind lastAttemptOk = some 1 ∧ s.ended "flex-trades" = false ∧
      ¬ s.Truthful := by
  refine ⟨_, rfl, ?_, ?_, fun htruthful => ?_⟩
  · decide +kernel
  · decide +kernel
  · have hlast := htruthful.lastAttemptOk "flex-trades" fun o x hx => ?_
    · exact absurd (hlast.mp (by decide +kernel)) (by decide +kernel)
    · change Function.update (fun _ => none) (Owner.worker 0) none o = some x at hx
      simp at hx

end FlexQuery
