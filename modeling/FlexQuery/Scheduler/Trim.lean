import FlexQuery.Library.Retention
import FlexQuery.Library.Spacing
import FlexQuery.Worker.Catchup

/-!
# Trimming the queue

`trim_old_jobs` of `scheduler/enqueue.py`: two deletes in one transaction.  The session's zone is
UTC, so a day of the interval is 24 hours.

* `JobTable.delete` — a `DELETE`; it cannot break a constraint.
* `trimOldJobs` — finished jobs past their days, then the finished ones after the newest
  `keep_max`.
* `trim_spec` — what stays and what goes; a second trim at the same time finds nothing to do.
* `DatedInv`, `dated_run` — on a clock that does not go back, no job is finished before it is made.
* `trim_invisible` — so a trim never changes what the catch-up lists, then or later.
-/

set_option autoImplicit false

namespace FlexQuery

open Retention Spacing Transition

/-- `DELETE FROM job_flex_ingest WHERE p`, with its row count. -/
def JobTable.delete (t : JobTable) (p : JobRow → Bool) : JobTable × ℕ :=
  ({ rows := t.rows.filter fun r => !p r
     nextId := t.nextId
     ids_nodup := t.ids_nodup.sublist (List.filter_sublist.map _)
     id_lt := fun r hr => t.id_lt r (List.mem_of_mem_filter hr)
     unique := List.Nodup.sublist (List.filter_sublist.filterMap _) t.unique },
    t.rows.countP p)

/-- `status IN ('done', 'failed')`. -/
def JobRow.finished (r : JobRow) : Bool := !r.status.active

/-- `finished_at IS NOT NULL AND finished_at < cutoff`, of a finished job. -/
def JobRow.expired (cutoff : Timestamp) (r : JobRow) : Bool :=
  r.finished && r.finishedAt.any (· < cutoff)

/-- `ORDER BY finished_at DESC NULLS LAST, id DESC`. -/
def FinishedLater (a b : JobRow) : Prop :=
  match a.finishedAt, b.finishedAt with
  | some x, some y => y < x ∨ (x = y ∧ b.id ≤ a.id)
  | some _, none => True
  | none, some _ => False
  | none, none => b.id ≤ a.id

instance : DecidableRel FinishedLater := fun a b =>
  match ha : a.finishedAt, hb : b.finishedAt with
  | some x, some y => decidable_of_iff (y < x ∨ (x = y ∧ b.id ≤ a.id)) (by
      simp [FinishedLater, ha, hb])
  | some _, none => isTrue (by simp [FinishedLater, ha, hb])
  | none, some _ => isFalse (by simp [FinishedLater, ha, hb])
  | none, none => decidable_of_iff (b.id ≤ a.id) (by simp [FinishedLater, ha, hb])

instance : Std.Total FinishedLater where
  total a b := by
    unfold FinishedLater
    cases a.finishedAt with
    | none =>
      cases b.finishedAt with
      | none => exact Nat.le_total _ _
      | some y => exact Or.inr trivial
    | some x =>
      cases b.finishedAt with
      | none => exact Or.inl trivial
      | some y =>
        rcases lt_trichotomy x y with h | h | h
        · exact Or.inr (Or.inl h)
        · rcases Nat.le_total b.id a.id with hid | hid
          · exact Or.inl (Or.inr ⟨h, hid⟩)
          · exact Or.inr (Or.inr ⟨h.symm, hid⟩)
        · exact Or.inl (Or.inl h)

instance : IsTrans JobRow FinishedLater where
  trans a b c hab hbc := by
    unfold FinishedLater at *
    cases ha : a.finishedAt with
    | none =>
      cases hb : b.finishedAt with
      | none =>
        rw [ha, hb] at hab
        rw [hb] at hbc
        cases hc : c.finishedAt with
        | none =>
          rw [hc] at hbc
          exact Nat.le_trans hbc hab
        | some z =>
          rw [hc] at hbc
          exact hbc.elim
      | some y =>
        rw [ha, hb] at hab
        exact hab.elim
    | some x =>
      cases hc : c.finishedAt with
      | none => trivial
      | some z =>
        cases hb : b.finishedAt with
        | none =>
          rw [hb, hc] at hbc
          exact hbc.elim
        | some y =>
          rw [ha, hb] at hab
          rw [hb, hc] at hbc
          rcases hab with hab | ⟨rfl, hab⟩
          · rcases hbc with hbc | ⟨rfl, _⟩
            · exact Or.inl (hbc.trans hab)
            · exact Or.inl hab
          · rcases hbc with hbc | ⟨rfl, hbc⟩
            · exact Or.inl hbc
            · exact Or.inr ⟨rfl, Nat.le_trans hbc hab⟩

/-- The ids the second `DELETE` selects. -/
def overflowIds (keepMax : ℕ) (t : JobTable) : List ℕ :=
  (overflow FinishedLater keepMax (t.rows.filter JobRow.finished)).map JobRow.id

/-- `trim_old_jobs`; a negative `OFFSET` is refused, and the first delete rolled back with it. -/
def trimOldJobs (keepDays keepMax : ℤ) (now : Timestamp) (t : JobTable) :
    Except PyExc (JobTable × ℕ) :=
  let (t₁, n₁) := t.delete (JobRow.expired (now - seconds (86400 * keepDays)))
  if keepMax < 0 then
    .error (.other "InvalidRowCountInResultOffsetClause" "OFFSET must not be negative")
  else
    let (t₂, n₂) := t₁.delete fun r => r.id ∈ overflowIds keepMax.toNat t₁
    .ok (t₂, n₁ + n₂)

/-! ## What stays and what goes -/

theorem JobTable.mem_delete {t : JobTable} {p : JobRow → Bool} {r : JobRow} :
    r ∈ (t.delete p).1.rows ↔ r ∈ t.rows ∧ p r = false := by
  simp [JobTable.delete]

theorem JobTable.delete_length (t : JobTable) (p : JobRow → Bool) :
    (t.delete p).2 + (t.delete p).1.rows.length = t.rows.length := by
  have hsplit := List.length_eq_countP_add_countP p (l := t.rows)
  show t.rows.countP p + (t.rows.filter fun r => !p r).length = _
  rw [← List.countP_eq_length_filter, hsplit]
  congr 1
  exact List.countP_congr fun r _ => by simp

theorem finished_ids_nodup (t : JobTable) : ((t.rows.filter JobRow.finished).map JobRow.id).Nodup :=
  t.ids_nodup.sublist (List.filter_sublist.map _)

/-- Only finished jobs are among the ids of the second `DELETE`. -/
theorem mem_overflowIds {t : JobTable} {n : ℕ} {r : JobRow} (hr : r ∈ t.rows) :
    r.id ∈ overflowIds n t ↔
      r.finished = true ∧ r ∈ overflow FinishedLater n (t.rows.filter JobRow.finished) := by
  constructor
  · intro hmem
    obtain ⟨y, hy, hyr⟩ := List.mem_map.mp hmem
    obtain ⟨hyt, hyf⟩ := List.mem_filter.mp
      ((List.mem_insertionSort FinishedLater).mp (List.mem_of_mem_drop hy))
    obtain rfl : y = r := List.inj_on_of_nodup_map t.ids_nodup hyt hr hyr
    exact ⟨hyf, hy⟩
  · exact fun ⟨_, hover⟩ => List.mem_map_of_mem hover

/-- The finished jobs that the second `DELETE` leaves. -/
theorem finished_delete_overflow (t : JobTable) (n : ℕ) :
    (t.delete fun r => r.id ∈ overflowIds n t).1.rows.filter JobRow.finished =
      kept FinishedLater JobRow.id n (t.rows.filter JobRow.finished) := by
  show (t.rows.filter _).filter _ = (t.rows.filter _).filter _
  rw [List.filter_filter, List.filter_filter]
  apply List.filter_congr
  intro r _
  rw [Bool.and_comm, ← decide_not]
  rfl

/-- The newest finished jobs, by the order of the second `DELETE`, `keepMax` of them at most. -/
structure TrimSpec (cutoff : Timestamp) (keepMax : ℕ) (t t' : JobTable) (n : ℕ) : Prop where
  rows : t'.rows.Sublist t.rows
  count : n + t'.rows.length = t.rows.length
  active : ∀ r ∈ t.rows, r.status.active = true → r ∈ t'.rows
  bound : (t'.rows.filter JobRow.finished).length ≤ keepMax
  fresh : ∀ r ∈ t'.rows, r.expired cutoff = false
  gone : ∀ r ∈ t.rows, r ∉ t'.rows → r.finished = true ∧ (r.expired cutoff = true ∨
    (t'.rows.filter JobRow.finished).length = keepMax ∧
      ∀ x ∈ t'.rows, x.finished = true → FinishedLater x r)

theorem trimOldJobs_ok (keepDays : ℤ) (keepMax : ℕ) (now : Timestamp) (t : JobTable) :
    ∃ t' n, trimOldJobs keepDays keepMax now t = .ok (t', n) ∧
      TrimSpec (now - seconds (86400 * keepDays)) keepMax t t' n := by
  obtain ⟨cutoff, hcutoff⟩ : ∃ c, c = now - seconds (86400 * keepDays) := ⟨_, rfl⟩
  obtain ⟨u, hu⟩ : ∃ u, u = (t.delete (JobRow.expired cutoff)).1 := ⟨_, rfl⟩
  have hlen := t.delete_length (JobRow.expired cutoff)
  have hlen' := u.delete_length fun r => r.id ∈ overflowIds keepMax u
  have hmem : ∀ r, r ∈ u.rows ↔ r ∈ t.rows ∧ r.expired cutoff = false := by
    intro r
    rw [hu]
    exact JobTable.mem_delete
  have hfinals := finished_delete_overflow u keepMax
  have hkept := length_kept (r := FinishedLater) (n := keepMax) (finished_ids_nodup u)
  refine ⟨(u.delete fun r => r.id ∈ overflowIds keepMax u).1,
    (t.delete (JobRow.expired cutoff)).2 + (u.delete fun r => r.id ∈ overflowIds keepMax u).2,
    ?_, ?_⟩
  · unfold trimOldJobs
    simp only [← hcutoff, Int.toNat_natCast, ← hu]
    rw [if_neg (by omega)]
  rw [← hcutoff]
  refine {
    rows := List.filter_sublist.trans (by rw [hu]; exact List.filter_sublist)
    count := by rw [← hu] at hlen; omega
    active := ?_
    bound := by rw [hfinals, hkept]; exact Nat.min_le_left _ _
    fresh := fun r hr => ((hmem r).mp (JobTable.mem_delete.mp hr).1).2
    gone := ?_ }
  · intro r hr hact
    have hru : r ∈ u.rows := (hmem r).mpr ⟨hr, by simp [JobRow.expired, JobRow.finished, hact]⟩
    refine JobTable.mem_delete.mpr ⟨hru, decide_eq_false fun hover => ?_⟩
    obtain ⟨hfin, _⟩ := (mem_overflowIds hru).mp hover
    simp [JobRow.finished, hact] at hfin
  · intro r hr hgone
    cases hexp : r.expired cutoff with
    | true => exact ⟨(Bool.and_eq_true_iff.mp hexp).1, Or.inl rfl⟩
    | false =>
      have hru : r ∈ u.rows := (hmem r).mpr ⟨hr, hexp⟩
      have hover : r.id ∈ overflowIds keepMax u := by
        by_contra hnot
        exact hgone (JobTable.mem_delete.mpr ⟨hru, decide_eq_false hnot⟩)
      obtain ⟨hfin, hover⟩ := (mem_overflowIds hru).mp hover
      refine ⟨hfin, Or.inr ⟨?_, fun x hx hxfin => ?_⟩⟩
      · rw [hfinals]
        exact length_kept_of_overflow (finished_ids_nodup u) hover
      · refine kept_before_overflow (finished_ids_nodup u) ?_ hover
        rw [← hfinals]
        exact List.mem_filter.mpr ⟨hx, hxfin⟩

/-- **What a trim does**, to any table at any time: active jobs stay; what goes is finished, and
either past its days or after `keepMax` newer ones that stay; and doing it again at the same time
deletes nothing. -/
theorem trim_spec (keepDays : ℤ) (keepMax : ℕ) (now : Timestamp) (t : JobTable) :
    ∃ t' n, trimOldJobs keepDays keepMax now t = .ok (t', n) ∧
      TrimSpec (now - seconds (86400 * keepDays)) keepMax t t' n ∧
      ∃ t'', trimOldJobs keepDays keepMax now t' = .ok (t'', 0) ∧ t''.rows = t'.rows := by
  obtain ⟨t', n, ht, hspec⟩ := trimOldJobs_ok keepDays keepMax now t
  obtain ⟨t'', n', ht', hspec'⟩ := trimOldJobs_ok keepDays keepMax now t'
  refine ⟨t', n, ht, hspec, t'', ?_⟩
  have hall : ∀ r ∈ t'.rows, r ∈ t''.rows := by
    intro r hr
    by_contra hgone
    obtain ⟨hfin, hexp | ⟨hfull, hbefore⟩⟩ := hspec'.gone r hr hgone
    · rw [hspec.fresh r hr] at hexp
      cases hexp
    · -- `r` and the `keepMax` jobs before it were all left by the first trim.
      have hsub : (r :: t''.rows.filter JobRow.finished).Subperm
          (t'.rows.filter JobRow.finished) := by
        apply List.subperm_of_subset
        · refine List.nodup_cons.mpr ⟨fun hmem => hgone (List.mem_of_mem_filter hmem), ?_⟩
          exact List.Nodup.of_map JobRow.id (finished_ids_nodup t'')
        · intro x hx
          rcases List.mem_cons.mp hx with rfl | hx
          · exact List.mem_filter.mpr ⟨hr, hfin⟩
          · obtain ⟨hx, hxfin⟩ := List.mem_filter.mp hx
            exact List.mem_filter.mpr ⟨hspec'.rows.subset hx, hxfin⟩
      have hle := hsub.length_le
      have hbound := hspec.bound
      rw [List.length_cons, hfull] at hle
      omega
  have hsame : t''.rows = t'.rows := by
    apply hspec'.rows.eq_of_length_le
    exact (List.subperm_of_subset (List.Nodup.of_map JobRow.id t'.ids_nodup) hall).length_le
  have hcount := hspec'.count
  have hzero : n' = 0 := by
    rw [hsame] at hcount
    omega
  exact ⟨hzero ▸ ht', hsame⟩

/-! ## The catch-up does not notice -/

/-- Up to `T`: jobs are made before they are finished, and a finished job says when. -/
structure DatedInv (T : Timestamp) (s : Sys) : Prop where
  made : ∀ r ∈ s.table.rows, r.createdAt ≤ T
  order : ∀ r ∈ s.table.rows, ∀ f, r.finishedAt = some f → r.createdAt ≤ f
  stamped : ∀ r ∈ s.table.rows, r.finished = true → r.finishedAt ≠ none

theorem DatedInv.init (T : Timestamp) : DatedInv T Sys.init where
  made := fun _ h => absurd h List.not_mem_nil
  order := fun _ h => absurd h List.not_mem_nil
  stamped := fun _ h => absurd h List.not_mem_nil

/-- What an update may make of a row at `now`. -/
structure JobRow.DatedStep (now : Timestamp) (f : JobRow → JobRow) (r : JobRow) : Prop where
  created : (f r).createdAt = r.createdAt
  order : (f r).finishedAt = r.finishedAt ∨ (f r).finishedAt = none ∨ (f r).finishedAt = some now
  stamped : (f r).finished = true → (f r).finishedAt = some now ∨
    ((f r).finishedAt = r.finishedAt ∧ r.finished = true)

theorem DatedInv.update {T now : Timestamp} {s s' : Sys} {p : JobRow → Bool} {f : JobRow → JobRow}
    {hid : ∀ r, (f r).id = r.id} (h : DatedInv T s) (hT : T ≤ now)
    (ht : s.table.update p f hid = .ok s'.table)
    (hf : ∀ r ∈ s.table.rows, p r = true → r.DatedStep now f) : DatedInv now s' where
  made := by
    apply JobTable.forall_rows_update (P := fun r => r.createdAt ≤ now) ht
    · exact fun r hr _ => (h.made r hr).trans hT
    · intro r hr hp
      rw [(hf r hr hp).created]
      exact (h.made r hr).trans hT
  order := by
    apply JobTable.forall_rows_update
      (P := fun r => ∀ g, r.finishedAt = some g → r.createdAt ≤ g) ht
    · exact fun r hr _ => h.order r hr
    · intro r hr hp g hg
      rw [(hf r hr hp).created]
      rcases (hf r hr hp).order with hsame | hnone | hnow
      · exact h.order r hr g (hsame ▸ hg)
      · rw [hnone] at hg
        cases hg
      · rw [hnow] at hg
        cases hg
        exact (h.made r hr).trans hT
  stamped := by
    apply JobTable.forall_rows_update (P := fun r => r.finished = true → r.finishedAt ≠ none) ht
    · exact fun r hr _ => h.stamped r hr
    · intro r hr hp hfin
      rcases (hf r hr hp).stamped hfin with hnow | ⟨hsame, hold⟩
      · rw [hnow]
        exact Option.some_ne_none now
      · rw [hsame]
        exact h.stamped r hr hold

theorem DatedInv.insert {T now : Timestamp} {s s' : Sys} {r : JobRow} (h : DatedInv T s)
    (hT : T ≤ now) (hs' : s'.table = (s.table.insert r).1) (hcreated : r.createdAt = now)
    (hfin : r.finishedAt = none) (hact : r.status.active = true) : DatedInv now s' where
  made := by
    rw [hs']
    exact JobTable.forall_rows_insert (fun x hx => (h.made x hx).trans hT) hcreated.le
  order := by
    rw [hs']
    refine JobTable.forall_rows_insert h.order ?_
    intro f hf
    rw [show ({ r with id := s.table.nextId } : JobRow).finishedAt = none from hfin] at hf
    cases hf
  stamped := by
    rw [hs']
    refine JobTable.forall_rows_insert h.stamped ?_
    intro hf
    simp [JobRow.finished, hact] at hf

/-- The clock moves on. -/
theorem DatedInv.later {T now : Timestamp} {s s' : Sys} (h : DatedInv T s) (hT : T ≤ now)
    (hs' : s'.table = s.table) : DatedInv now s' where
  made := by rw [hs']; exact fun r hr => (h.made r hr).trans hT
  order := by rw [hs']; exact h.order
  stamped := by rw [hs']; exact h.stamped

/-- **Step lemma.** -/
theorem dated_step {cfg : QueueConfig} {T : Timestamp} {s s' : Sys} {l : Timestamp × Action}
    (h : DatedInv T s) (hT : T ≤ l.1) (hstep : step cfg s l = some s') : DatedInv l.1 s' := by
  obtain ⟨now, a⟩ := l
  have hdone : ∀ r : JobRow, ∀ result, r.DatedStep now (JobRow.markDone now result) :=
    fun r result => ⟨rfl, Or.inr (Or.inr rfl), fun _ => Or.inl rfl⟩
  have hfailed : ∀ r : JobRow, ∀ error category,
      r.DatedStep now (JobRow.markFailed now error category) :=
    fun r error category => ⟨rfl, Or.inr (Or.inr rfl), fun _ => Or.inl rfl⟩
  cases step_effect hstep with
  | nothing => exact h.later hT rfl
  | insert => exact h.insert hT rfl rfl rfl rfl
  | runNow k force t r hr hst hcool ht =>
    exact h.update hT ht fun r _ _ => ⟨rfl, Or.inl rfl, fun hfin => Or.inr ⟨rfl, hfin⟩⟩
  | manualStart => exact h.insert hT rfl rfl rfl rfl
  | manualFinish k res t hk ht =>
    rcases auditFinish_cases ht with ⟨result, ht⟩ | ⟨error, category, ht⟩
    · exact h.update hT ht fun r _ _ => hdone r result
    · exact h.update hT ht fun r _ _ => hfailed r error category
  | manualAbandon => exact h.later hT rfl
  | claim w r t hw hr hcl ht =>
    exact h.update hT ht fun r _ _ => ⟨rfl, Or.inl rfl, fun hfin => by cases hfin⟩
  | reclaim w t hw ht =>
    refine h.update hT ht fun r _ _ => ?_
    by_cases hlt : r.attempts < r.maxAttempts
    · exact ⟨rfl, Or.inr (Or.inl (by simp [JobRow.reclaim, hlt])), fun hfin => by
        simp [JobRow.finished, JobRow.reclaim, hlt, Status.active] at hfin⟩
    · have hnow : (r.reclaim now (max 60 cfg.staleAfterSec)
          (max 0 cfg.requeueDelaySec)).finishedAt = some now := by
        simp [JobRow.reclaim, hlt]
      exact ⟨rfl, Or.inr (Or.inr hnow), fun _ => Or.inl hnow⟩
  | done w j result t hw ht => exact h.update hT ht fun r _ _ => hdone r result
  | retry w j msg t hw hp ht =>
    exact h.update hT ht fun r _ _ => ⟨rfl, Or.inr (Or.inl rfl), fun hfin => by cases hfin⟩
  | violation => exact h.later hT rfl
  | giveUp w j msg t hw hp ht => exact h.update hT ht fun r _ _ => hfailed r msg _
  | cool w j delay t hw ht =>
    exact h.update hT ht fun r _ _ => ⟨rfl, Or.inl rfl, fun hfin => Or.inr ⟨rfl, hfin⟩⟩
  | crash => exact h.later hT rfl

theorem dated_run {cfg : QueueConfig} {T : Timestamp} {s : Sys} {as : List (Timestamp × Action)}
    (hclock : OnClock as) (hT : ∀ a ∈ as, T ≤ a.1)
    (h : exec (step cfg) Sys.init as = some s) : ∃ T', DatedInv T' s := by
  obtain ⟨T', _, hinv⟩ := exec_onClock (fun _ _ _ _ hs hle hstep => dated_step hs hle hstep)
    (DatedInv.init T) hclock hT h
  exact ⟨T', hinv⟩

/-- The catch-up sees no younger job in one of two tables than in the other. -/
theorem missedSlots_congr {cc : CatchupConfig} {now : Timestamp}
    {jobsSince jobsSince' : String → Option Timestamp}
    (h : ∀ kind planned, now - planned ≤ seconds 86400 →
      (jobsSince kind).any (· ≥ planned) = (jobsSince' kind).any (· ≥ planned))
    (slots : List String) : missedSlots cc now jobsSince slots = missedSlots cc now jobsSince' slots := by
  have hone : ∀ slot, missedSlot cc now jobsSince slot = missedSlot cc now jobsSince' slot := by
    intro slot
    unfold missedSlot
    split
    · rfl
    · split
      · rfl
      · rfl
      · rename_i planned _
        by_cases hage : now - planned < seconds cc.graceSec ∨ now - planned > seconds 86400
        · rw [if_pos hage, if_pos hage]
        · rw [if_neg hage, if_neg hage, h (slotKind slot) planned (by
            rw [not_or, not_lt, not_lt] at hage
            exact hage.2)]
  induction slots with
  | nil => rfl
  | cons slot slots ih => simp only [missedSlots, hone, ih]

theorem newest_any {t : JobTable} {kind : String} {planned : Timestamp} :
    (newestJobPerKind t kind).any (· ≥ planned) = true ↔
      ∃ r ∈ t.rows, r.kind = kind ∧ planned ≤ r.createdAt := by
  have hlt := @newestJobPerKind_lt t kind planned
  rw [← not_iff_not]
  push Not
  constructor
  · intro hnone
    apply hlt.mp
    intro newest hnewest
    simpa [hnewest] using hnone
  · intro hall
    cases hnewest : newestJobPerKind t kind with
    | none => simp
    | some newest => simpa using hlt.mpr hall newest hnewest

/-- A job finished within the day before `now`. -/
def JobRow.finishedSince (T : Timestamp) (r : JobRow) : Bool :=
  r.finished && r.finishedAt.any (T ≤ ·)

/-- **A trim is invisible to the catch-up.**  In every state reached on a clock that does not go
back, trimming at `now` and keeping at least a day and the jobs finished within a day leaves the
slots that `missed_slots` lists as they are, at that time and at any later one. -/
theorem trim_invisible {cfg : QueueConfig} {T : Timestamp} {s : Sys}
    {as : List (Timestamp × Action)} (hclock : OnClock as) (hT : ∀ a ∈ as, T ≤ a.1)
    (h : exec (step cfg) Sys.init as = some s) (cc : CatchupConfig) {now later : Timestamp}
    (hlater : now ≤ later) {keepDays : ℤ} {keepMax : ℕ} (hdays : 1 ≤ keepDays)
    (hmax : s.table.rows.countP (JobRow.finishedSince (later - seconds 86400)) ≤ keepMax)
    {t : JobTable} {n : ℕ} (ht : trimOldJobs keepDays keepMax now s.table = .ok (t, n))
    (slots : List String) :
    missedSlots cc later (newestJobPerKind t) slots =
      missedSlots cc later (newestJobPerKind s.table) slots := by
  obtain ⟨T', hinv⟩ := dated_run hclock hT h
  obtain ⟨t', n', ht', hspec⟩ := trimOldJobs_ok keepDays keepMax now s.table
  rw [ht] at ht'
  cases ht'
  have hday : seconds 86400 ≤ seconds (86400 * keepDays) := by
    unfold seconds
    omega
  -- A job made within the day before `later` is never deleted.
  have hstays : ∀ r ∈ s.table.rows, later - seconds 86400 ≤ r.createdAt → r ∈ t.rows := by
    intro r hr hyoung
    by_contra hgone
    obtain ⟨hfin, hwhy⟩ := hspec.gone r hr hgone
    obtain ⟨f, hf⟩ := Option.ne_none_iff_exists'.mp (hinv.stamped r hr hfin)
    have hmade := hinv.order r hr f hf
    rcases hwhy with hexp | ⟨hfull, hbefore⟩
    · have hold : f < now - seconds (86400 * keepDays) := by
        simpa [JobRow.expired, hfin, hf] using hexp
      linarith
    · have hrecent : ∀ x ∈ t.rows, x.finished = true →
          x.finishedSince (later - seconds 86400) = true := by
        intro x hx hxfin
        obtain ⟨g, hg⟩ := Option.ne_none_iff_exists'.mp
          (hinv.stamped x (hspec.rows.subset hx) hxfin)
        have hxr := hbefore x hx hxfin
        simp only [FinishedLater, hg, hf] at hxr
        have hge : later - seconds 86400 ≤ g := by
          rcases hxr with hlt | ⟨heq, _⟩
          · linarith
          · linarith
        simp only [JobRow.finishedSince, hxfin, hg, Option.any_some, Bool.true_and]
        exact decide_eq_true hge
      have hsub : (r :: t.rows.filter JobRow.finished).Subperm
          (s.table.rows.filter (JobRow.finishedSince (later - seconds 86400))) := by
        apply List.subperm_of_subset
        · refine List.nodup_cons.mpr ⟨fun hmem => hgone (List.mem_of_mem_filter hmem), ?_⟩
          exact List.Nodup.of_map JobRow.id (finished_ids_nodup t)
        · intro x hx
          rcases List.mem_cons.mp hx with rfl | hx
          · refine List.mem_filter.mpr ⟨hr, ?_⟩
            simp only [JobRow.finishedSince, hfin, hf, Option.any_some, Bool.true_and]
            exact decide_eq_true (hyoung.trans hmade)
          · obtain ⟨hx, hxfin⟩ := List.mem_filter.mp hx
            exact List.mem_filter.mpr ⟨hspec.rows.subset hx, hrecent x hx hxfin⟩
      have hle := hsub.length_le
      rw [List.length_cons, hfull, ← List.countP_eq_length_filter] at hle
      omega
  apply missedSlots_congr
  intro kind planned hplanned
  rw [Bool.eq_iff_iff, newest_any, newest_any]
  constructor
  · rintro ⟨r, hr, hkind, hle⟩
    exact ⟨r, hspec.rows.subset hr, hkind, hle⟩
  · rintro ⟨r, hr, hkind, hle⟩
    exact ⟨r, hstays r hr (by linarith), hkind, hle⟩

/-- A job done forty days before. -/
def oldJob : List (Timestamp × Action) :=
  [(-seconds 3456000, .enqueueSlot "flex-trades" [("as_of", .str "1969-11-22")]),
    (-seconds 3455995, .claimNext 0), (-seconds 3455900, .markDone 0 [])]

/-- It goes, and the catch-up still lists what it listed. -/
theorem trim_invisible_oldJob :
    ∃ s t, exec (step scheduleConfig) Sys.init oldJob = some s ∧
      trimOldJobs 14 (2000 : ℕ) (seconds 26000) s.table = .ok (t, 1) ∧
      missedSlots morningOnly (seconds 26100) (newestJobPerKind t) SLOT_NAMES =
        missedSlots morningOnly (seconds 26100) (newestJobPerKind s.table) SLOT_NAMES := by
  have hrun : (exec (step scheduleConfig) Sys.init oldJob).any (fun s =>
      (trimOldJobs 14 (2000 : ℕ) (seconds 26000) s.table).toOption.any (fun x => x.2 = 1) &&
        s.table.rows.countP (JobRow.finishedSince (seconds 26100 - seconds 86400)) ≤ 2000) =
      true := by
    decide +kernel
  obtain ⟨s, hs, hrun⟩ := (Option.any_eq_true _ _).mp hrun
  obtain ⟨htrim, hmax⟩ := Bool.and_eq_true_iff.mp hrun
  cases ht : trimOldJobs 14 (2000 : ℕ) (seconds 26000) s.table with
  | error e =>
    rw [ht] at htrim
    cases htrim
  | ok x =>
    obtain ⟨t, n⟩ := x
    rw [ht] at htrim
    obtain rfl : n = 1 := of_decide_eq_true htrim
    exact ⟨s, t, hs, ht, trim_invisible (T := -seconds 3456000) (by decide) (by decide) hs
      morningOnly (by decide) (by decide) (of_decide_eq_true hmax) ht SLOT_NAMES⟩

end FlexQuery
