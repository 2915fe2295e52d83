import FlexQuery.Queue.System

/-!
# The queue invariant

Runs of one worker beside any number of enqueues, manual runs, run-now requests and catch-ups.

* `RowOk` — what holds of every row: a pending job has an attempt left, a running one is within
  its budget, only a pending one waits, and finished is exactly done or failed.
* `QueueInv` — the invariant of a whole state: the job the worker holds is still running under
  that attempt, a manual run's row is never pending, and claims never outnumber attempts.
* `queueInv_step`, `queueInv_run` — every step of such a run keeps it.
* `queue_invariant` — what it says of the rows of any reachable state.

`claim_next` never looks at the budget.  It stays within it because each way back to `pending`
does look: `planRetry_pending` for a retry, the `CASE` of the stale reclaim.
-/

set_option autoImplicit false

namespace FlexQuery

open Transition

/-- What holds of every row. -/
structure RowOk (r : JobRow) : Prop where
  budget : r.attempts ≤ r.maxAttempts
  pending : r.status = .pending → r.attempts < r.maxAttempts ∧ r.finishedAt = none
  running : r.status = .running → 1 ≤ r.attempts ∧ r.finishedAt = none
  final : r.status.active = false → r.finishedAt ≠ none
  waits : r.notBefore ≠ none → r.status = .pending

namespace RowOk

theorem newJob {now : Timestamp} {kind : String} {payload : Dict} {hash : String} {priority : ℤ}
    {n k : ℕ} (hn : 0 < n) :
    RowOk { FlexQuery.newJob now kind payload hash priority n with id := k } where
  budget := Nat.zero_le _
  pending := fun _ => ⟨hn, rfl⟩
  running := nofun
  final := nofun
  waits := fun _ => rfl

theorem newManualJob {now : Timestamp} {kind : String} {payload : Dict} {k : ℕ} :
    RowOk { FlexQuery.newManualJob now kind payload with id := k } where
  budget := Nat.le_refl _
  pending := nofun
  running := fun _ => ⟨Nat.le_refl _, rfl⟩
  final := nofun
  waits := fun h => absurd rfl h

variable {r : JobRow} {now : Timestamp}

theorem claim (h : RowOk r) (hst : r.status = .pending) : RowOk (r.claim now) where
  budget := (h.pending hst).1
  pending := nofun
  running := fun _ => ⟨Nat.succ_pos _, (h.pending hst).2⟩
  final := nofun
  waits := fun hne => absurd rfl hne

theorem reclaim (h : RowOk r) (sec delay : ℤ) : RowOk (r.reclaim now sec delay) := by
  by_cases hlt : r.attempts < r.maxAttempts
  · constructor <;> simp [JobRow.reclaim, hlt, Status.active, h.budget]
  · constructor <;> simp [JobRow.reclaim, hlt, Status.active, h.budget]

theorem markDone (h : RowOk r) (hst : r.status ≠ .pending) (result : Dict) :
    RowOk (r.markDone now result) where
  budget := h.budget
  pending := nofun
  running := nofun
  final := nofun
  waits := fun hne => absurd (h.waits hne) hst

theorem markFailed (h : RowOk r) (hst : r.status ≠ .pending) (error : String)
    (category : Option String) : RowOk (r.markFailed now error category) where
  budget := h.budget
  pending := nofun
  running := nofun
  final := nofun
  waits := fun hne => absurd (h.waits hne) hst

theorem markRetry (h : r.attempts < r.maxAttempts) (error category : String) (delay : ℤ) :
    RowOk (r.markRetry now error category delay) where
  budget := h.le
  pending := fun _ => ⟨h, rfl⟩
  running := nofun
  final := nofun
  waits := fun _ => rfl

theorem clearNotBefore (h : RowOk r) : RowOk (r.clearNotBefore now) where
  budget := h.budget
  pending := h.pending
  running := h.running
  final := h.final
  waits := fun hne => absurd rfl hne

theorem defer (h : RowOk r) (hst : r.status = .pending) (delay : ℤ) :
    RowOk (r.defer now delay) where
  budget := h.budget
  pending := h.pending
  running := h.running
  final := h.final
  waits := fun _ => hst

/-- A claimed job carries the row's own budget: it is not 0. -/
theorem toJob_maxAttempts (h : RowOk r) (hst : r.status = .pending) :
    r.toJob.maxAttempts = r.maxAttempts := by
  have hlt := (h.pending hst).1
  exact if_neg (by omega)

end RowOk

/-- The row is running, under this very attempt. -/
def JobRow.HeldBy (j : Job) (r : JobRow) : Prop :=
  r.status = .running ∧ r.attempts = j.attempts ∧ r.maxAttempts = j.maxAttempts

/-- The row of a manual run: attempt 1 of 1, never pending. -/
def JobRow.Manual (r : JobRow) : Prop :=
  r.status ≠ .pending ∧ r.attempts = 1 ∧ r.maxAttempts = 1

/-- The invariant of a state in which only worker `w₀` runs. -/
structure QueueInv (w₀ : ℕ) (s : Sys) : Prop where
  rows : ∀ r ∈ s.table.rows, RowOk r
  alone : ∀ w, w ≠ w₀ → s.workers w = .idle
  held : ∀ w j, s.workers w = .running j → s.table.At j.id (JobRow.HeldBy j)
  manual : ∀ k ∈ s.manual, s.table.At k JobRow.Manual
  apart : ∀ w j, s.workers w = .running j → j.id ∉ s.manual
  claims : ∀ k, s.claimed.count k ≤ s.table.attemptsOf k
  quiet : s.violations = 0

theorem QueueInv.init (w₀ : ℕ) : QueueInv w₀ Sys.init where
  rows := fun _ h => absurd h List.not_mem_nil
  alone := fun _ _ => rfl
  held := nofun
  manual := fun _ h => absurd h List.not_mem_nil
  apart := nofun
  claims := fun _ => Nat.zero_le _
  quiet := rfl

/-- An action of a run with the one worker `w₀` and no job without an attempt to make. -/
def OneWorker (w₀ : ℕ) (a : Action) : Prop := (∀ w, a.worker = some w → w = w₀) ∧ a.BudgetPos

theorem workers_setWorker {s : Sys} {w w' : ℕ} {pc : Pc} :
    (s.setWorker w pc).workers w' = if w' = w then pc else s.workers w' := by
  simp [Sys.setWorker, Function.update_apply]

namespace QueueInv

variable {w₀ : ℕ} {s : Sys}

/-- A statement that leaves attempts alone and the workers where they are. -/
theorem update {p : JobRow → Bool} {f : JobRow → JobRow} {hid : ∀ r, (f r).id = r.id}
    {t : JobTable} (h : QueueInv w₀ s) (ht : s.table.update p f hid = .ok t)
    (hrows : ∀ r ∈ s.table.rows, p r = true → RowOk (f r))
    (hatt : ∀ r, (f r).attempts = r.attempts)
    (hheld : ∀ w j r, s.workers w = .running j → r.id = j.id → r.HeldBy j → p r = true →
      (f r).HeldBy j)
    (hman : ∀ r, r.id ∈ s.manual → r.Manual → p r = true → (f r).Manual) :
    QueueInv w₀ { s with table := t } where
  rows := JobTable.forall_rows_update ht (fun r hr _ => h.rows r hr) hrows
  alone := h.alone
  held := fun w j hw =>
    (h.held w j hw).update ht fun r _ hk hr => hheld w j r hw hk hr
  manual := fun k hk => (h.manual k hk).update ht fun r _ hr => hman r (hr.symm ▸ hk)
  apart := h.apart
  claims := fun k => by
    have hle := h.claims k
    rw [← JobTable.attemptsOf_update ht hatt k] at hle
    exact hle
  quiet := h.quiet

/-- A worker that lets go of its job. -/
theorem release (h : QueueInv w₀ s) (w : ℕ) (pc : Pc) (hpc : ∀ j, pc ≠ .running j)
    (hw : w = w₀) : QueueInv w₀ (s.setWorker w pc) where
  rows := h.rows
  alone := fun w' hne => by
    rw [workers_setWorker, if_neg (hw ▸ hne)]
    exact h.alone w' hne
  held := fun w' j hj => by
    rw [workers_setWorker] at hj
    split at hj
    · exact absurd hj (hpc j)
    · exact h.held w' j hj
  manual := h.manual
  apart := fun w' j hj => by
    rw [workers_setWorker] at hj
    split at hj
    · exact absurd hj (hpc j)
    · exact h.apart w' j hj
  claims := h.claims
  quiet := h.quiet

/-- A row a worker lets go of in the same statement that finishes it: the statement names the
row by id, so no other row changes. -/
theorem finish {f : JobRow → JobRow} {hid : ∀ r, (f r).id = r.id} {t : JobTable} {w : ℕ} {j : Job}
    (h : QueueInv w₀ s) (hw₀ : w = w₀) (hw : s.workers w = .running j)
    (ht : s.table.update (fun r => r.id = j.id) f hid = .ok t)
    (hrow : ∀ r, RowOk r → r.HeldBy j → RowOk (f r)) (hatt : ∀ r, (f r).attempts = r.attempts)
    (pc : Pc) (hpc : ∀ i, pc ≠ .running i) :
    QueueInv w₀ { s.setWorker w pc with table := t } := by
  apply (h.release w pc hpc hw₀).update ht
  · intro r hr hk
    obtain ⟨x, hx, hheld⟩ := h.held w j hw
    have hxr : s.table.row j.id = some r := (of_decide_eq_true hk) ▸ JobTable.row_mem hr
    rw [hxr] at hx
    cases hx
    exact hrow r (h.rows r hr) hheld
  · exact hatt
  · intro w' i r hi
    rw [workers_setWorker] at hi
    split at hi
    · exact absurd hi (hpc i)
    · rename_i hne
      rw [h.alone w' (hw₀ ▸ hne)] at hi
      cases hi
  · intro r hk _ hp
    have hk' : j.id ∈ s.manual := (of_decide_eq_true hp) ▸ hk
    exact absurd hk' (h.apart w j hw)

end QueueInv

/-- **Step lemma.** -/
theorem queueInv_step {cfg : QueueConfig} {w₀ : ℕ} {s s' : Sys} {l : Timestamp × Action}
    (h : QueueInv w₀ s) (hP : OneWorker w₀ l.2) (hstep : step cfg s l = some s') :
    QueueInv w₀ s' := by
  obtain ⟨now, a⟩ := l
  cases step_effect hstep with
  | nothing => exact h
  | insert _ kind payload hash priority n ha hn =>
    exact {
      rows := JobTable.forall_rows_insert h.rows (RowOk.newJob (hn hP.2))
      alone := h.alone
      held := fun w j hw => (h.held w j hw).insert
      manual := fun k hk => (h.manual k hk).insert
      apart := h.apart
      claims := fun k => (h.claims k).trans (JobTable.attemptsOf_insert _ _ k)
      quiet := h.quiet }
  | runNow k force t r hr hst hcool ht =>
    apply h.update ht
    · exact fun r hr _ => (h.rows r hr).clearNotBefore
    · exact fun _ => rfl
    · intro w j r _ _ hheld hp
      simp [hheld.1] at hp
    · intro r _ hman hp
      simp [hman.1] at hp
  | manualStart kind kind' payload hrows =>
    refine {
      rows := JobTable.forall_rows_insert h.rows RowOk.newManualJob
      alone := h.alone
      held := fun w j hw => (h.held w j hw).insert
      manual := ?_
      apart := ?_
      claims := fun k => (h.claims k).trans (JobTable.attemptsOf_insert _ _ k)
      quiet := h.quiet }
    · intro k hk
      rcases List.mem_cons.mp hk with rfl | hk
      · have hmem : { newManualJob now kind' payload with id := s.table.nextId } ∈
            (s.table.insert (newManualJob now kind' payload)).1.rows := by
          rw [hrows]
          exact List.mem_append_right _ List.mem_cons_self
        exact JobTable.At.of_mem hmem ⟨by rintro ⟨⟩, rfl, rfl⟩
      · exact (h.manual k hk).insert
    · intro w j hw hk
      rcases List.mem_cons.mp hk with hk | hk
      · exact (h.held w j hw).ne_nextId hk
      · exact h.apart w j hw hk
  | manualFinish k res t hk ht =>
    have hrow : ∀ r ∈ s.table.rows, decide (r.id = k) = true → RowOk r ∧ r.status ≠ .pending := by
      intro r hr hp
      obtain ⟨x, hx, hman⟩ := h.manual k hk
      have hxr : s.table.row k = some r := (of_decide_eq_true hp) ▸ JobTable.row_mem hr
      rw [hxr] at hx
      cases hx
      exact ⟨h.rows r hr, hman.1⟩
    have hkeep : QueueInv w₀ { s with table := t } := by
      rcases auditFinish_cases ht with ⟨result, ht⟩ | ⟨error, category, ht⟩
      · apply h.update ht
        · exact fun r hr hp => (hrow r hr hp).1.markDone (hrow r hr hp).2 result
        · exact fun _ => rfl
        · intro w j r hw hj _ hp
          exact absurd (show j.id ∈ s.manual from hj ▸ (of_decide_eq_true hp).symm ▸ hk)
            (h.apart w j hw)
        · exact fun r _ hman _ => ⟨by rintro ⟨⟩, hman.2⟩
      · apply h.update ht
        · exact fun r hr hp => (hrow r hr hp).1.markFailed (hrow r hr hp).2 error category
        · exact fun _ => rfl
        · intro w j r hw hj _ hp
          exact absurd (show j.id ∈ s.manual from hj ▸ (of_decide_eq_true hp).symm ▸ hk)
            (h.apart w j hw)
        · exact fun r _ hman _ => ⟨by rintro ⟨⟩, hman.2⟩
    exact { hkeep with
      manual := fun i hi => hkeep.manual i (List.mem_of_mem_erase hi)
      apart := fun w j hw hi => hkeep.apart w j hw (List.mem_of_mem_erase hi) }
  | manualAbandon k =>
    exact { h with
      manual := fun i hi => h.manual i (List.mem_of_mem_erase hi)
      apart := fun w j hw hi => h.apart w j hw (List.mem_of_mem_erase hi) }
  | claim w r t hw hr hcl ht =>
    have hw₀ : w = w₀ := hP.1 w rfl
    obtain ⟨hst, _⟩ := JobRow.claimable_iff.mp hcl
    have hself : ∀ x ∈ s.table.rows, decide (x.id = r.id) = true → x = r := fun x hx hp =>
      List.inj_on_of_nodup_map s.table.ids_nodup hx hr (of_decide_eq_true hp)
    have hnew : t.At r.id fun x => x = r.claim now := by
      refine ⟨r.claim now, ?_, rfl⟩
      rw [JobTable.row_update ht, JobTable.row_mem hr]
      simp
    have hfree : r.id ∉ s.manual := by
      intro hk
      obtain ⟨x, hx, hman⟩ := h.manual _ hk
      rw [JobTable.row_mem hr] at hx
      cases hx
      exact hman.1 hst
    refine {
      rows := ?_
      alone := ?_
      held := ?_
      manual := ?_
      apart := ?_
      claims := ?_
      quiet := h.quiet }
    · apply JobTable.forall_rows_update ht (fun x hx _ => h.rows x hx)
      intro x hx hp
      rw [hself x hx hp]
      exact (h.rows r hr).claim hst
    · intro w' hne
      show (s.setWorker w _).workers w' = .idle
      rw [workers_setWorker, if_neg (hw₀ ▸ hne)]
      exact h.alone w' hne
    · intro w' j hj
      change (s.setWorker w _).workers w' = .running j at hj
      rw [workers_setWorker] at hj
      split at hj
      · cases hj
        obtain ⟨x, hx, rfl⟩ := hnew
        exact ⟨_, hx, rfl, rfl, ((h.rows r hr).toJob_maxAttempts hst).symm⟩
      · rename_i hne
        rw [h.alone w' (hw₀ ▸ hne)] at hj
        cases hj
    · intro k hk
      apply (h.manual k hk).update ht
      intro x _ hx _ hp
      exact absurd (show r.id ∈ s.manual from (of_decide_eq_true hp) ▸ hx ▸ hk) hfree
    · intro w' j hj
      change (s.setWorker w _).workers w' = .running j at hj
      rw [workers_setWorker] at hj
      split at hj
      · cases hj
        exact hfree
      · exact h.apart w' j hj
    · intro k
      show List.count k (r.id :: s.claimed) ≤ t.attemptsOf k
      have hle := h.claims k
      by_cases hk : k = r.id
      · obtain ⟨x, hx, rfl⟩ := hnew
        have hold : s.table.attemptsOf k = r.attempts := by
          rw [hk, JobTable.attemptsOf, JobTable.row_mem hr]
          rfl
        have hnewk : t.attemptsOf k = r.attempts + 1 := by
          rw [hk, JobTable.attemptsOf, hx]
          rfl
        rw [hk, List.count_cons_self, ← hk, hnewk]
        omega
      · rw [List.count_cons_of_ne (Ne.symm hk)]
        have hsame : t.attemptsOf k = s.table.attemptsOf k := by
          unfold JobTable.attemptsOf
          rw [JobTable.row_update ht]
          cases hx : s.table.row k with
          | none => rfl
          | some x =>
            have hxk : x.id ≠ r.id := fun he => hk ((JobTable.row_some hx).2 ▸ he)
            simp [hxk]
        rw [hsame]
        exact hle
  | reclaim w t hw ht =>
    have hidle : ∀ w', s.workers w' = .idle := by
      intro w'
      by_cases hne : w' = w₀
      · rw [hne, ← hP.1 w rfl]
        exact hw
      · exact h.alone w' hne
    apply h.update ht
    · exact fun r hr _ => (h.rows r hr).reclaim _ _
    · exact fun _ => rfl
    · intro w' j r hj
      rw [hidle w'] at hj
      cases hj
    · intro r _ hman _
      have hlt : ¬ r.attempts < r.maxAttempts := by rw [hman.2.1, hman.2.2]; exact Nat.lt_irrefl 1
      exact ⟨by simp [JobRow.reclaim, hlt], hman.2⟩
  | done w j result t hw ht =>
    refine h.finish (hP.1 w rfl) hw ht ?_ (fun _ => rfl) .idle Pc.idle_ne_running
    intro r hr hheld
    exact hr.markDone (by rw [hheld.1]; decide) result
  | retry w j msg t hw hp ht =>
    refine h.finish (hP.1 w rfl) hw ht ?_ (fun _ => rfl) _ ?_
    · intro r _ hheld
      apply RowOk.markRetry
      rw [hheld.2.1, hheld.2.2]
      exact planRetry_pending hp
    · intro i
      unfold afterRetry
      split <;> rintro ⟨⟩
  | violation w j msg e hw ht =>
    have hact : ∀ r, s.table.row j.id = some r → r.status.active = true := by
      intro r hr
      obtain ⟨x, hx, hheld⟩ := h.held w j hw
      rw [hr] at hx
      cases hx
      rw [hheld.1]
      rfl
    obtain ⟨t, ht'⟩ : ∃ t, markRetry now j.id msg (planFor cfg j msg).category.value
        (planFor cfg j msg).delaySec s.table = .ok t :=
      markRetry_isOk hact
    rw [ht'] at ht
    cases ht
  | giveUp w j msg t hw hp ht =>
    refine h.finish (hP.1 w rfl) hw ht ?_ (fun _ => rfl) .idle Pc.idle_ne_running
    intro r hr hheld
    exact hr.markFailed (by rw [hheld.1]; decide) _ _
  | cool w j delay t hw ht =>
    have hrel := h.release w .idle Pc.idle_ne_running (hP.1 w rfl)
    apply hrel.update ht
    · exact fun r hr hp => (h.rows r hr).defer (JobRow.deferred_iff.mp hp).1 delay
    · exact fun _ => rfl
    · intro w' i r _ _ hheld hp
      have hst := hheld.1
      rw [(JobRow.deferred_iff.mp hp).1] at hst
      cases hst
    · intro r _ hman hp
      exact absurd (JobRow.deferred_iff.mp hp).1 hman.1
  | crash w => exact h.release w .idle Pc.idle_ne_running (hP.1 w rfl)

/-- **Run lemma.** -/
theorem queueInv_run {cfg : QueueConfig} {w₀ : ℕ} {s : Sys} {as : List (Timestamp × Action)}
    (hP : ∀ l ∈ as, OneWorker w₀ l.2) (h : exec (step cfg) Sys.init as = some s) :
    QueueInv w₀ s := by
  have hP' : Along (step cfg) (fun _ l => OneWorker w₀ l.2) Sys.init as :=
    Along.of_forall Sys.init fun l hl _ => hP l hl
  refine exec_invariant ?_ (QueueInv.init w₀) hP' h
  intro s l s' hinv hl hstep
  exact queueInv_step hinv hl hstep

/-- **The queue invariant.**  In every reachable state of a run with one worker: what each
status says about the other columns, at most `max_attempts` claims of any job, and no statement
so far or next that the unique index refused. -/
theorem queue_invariant {cfg : QueueConfig} {w₀ : ℕ} {s : Sys} {as : List (Timestamp × Action)}
    (hP : ∀ l ∈ as, OneWorker w₀ l.2) (h : exec (step cfg) Sys.init as = some s) :
    (∀ r ∈ s.table.rows,
      r.status.text ∈ ["pending", "running", "done", "failed"] ∧
      (r.status = .pending → r.attempts < r.maxAttempts ∧ r.finishedAt = none) ∧
      (r.status = .running →
        1 ≤ r.attempts ∧ r.attempts ≤ r.maxAttempts ∧ r.notBefore = none ∧ r.finishedAt = none) ∧
      (r.status = .done ∨ r.status = .failed → r.finishedAt ≠ none ∧ r.notBefore = none) ∧
      (r.notBefore ≠ none → r.status = .pending) ∧
      s.claimed.count r.id ≤ r.maxAttempts) ∧
    (∀ k, s.claimed.count k ≠ 0 → ∃ r ∈ s.table.rows, r.id = k) ∧
    s.violations = 0 ∧
    ∀ l s', OneWorker w₀ l.2 → step cfg s l = some s' → s'.violations = 0 := by
  have hinv := queueInv_run hP h
  refine ⟨?_, ?_, hinv.quiet, fun l s' hl hs' => (queueInv_step hinv hl hs').quiet⟩
  · intro r hr
    have hok := hinv.rows r hr
    have hnb : r.status ≠ .pending → r.notBefore = none := by
      intro hne
      by_contra hnb
      exact hne (hok.waits hnb)
    refine ⟨?_, hok.pending, ?_, ?_, hok.waits, ?_⟩
    · cases r.status <;> decide
    · intro hst
      exact ⟨(hok.running hst).1, hok.budget, hnb (by rw [hst]; decide), (hok.running hst).2⟩
    · intro hst
      have hact : r.status.active = false := by
        rcases hst with hst | hst <;> rw [hst] <;> rfl
      have hne : r.status ≠ .pending := by
        rcases hst with hst | hst <;> rw [hst] <;> decide
      exact ⟨hok.final hact, hnb hne⟩
    · have hle := hinv.claims r.id
      rw [JobTable.attemptsOf, JobTable.row_mem hr] at hle
      exact hle.trans hok.budget
  · intro k hk
    have hle := hinv.claims k
    cases hrow : s.table.row k with
    | none =>
      rw [JobTable.attemptsOf, hrow] at hle
      exact absurd (Nat.le_zero.mp hle) hk
    | some r => exact ⟨r, JobTable.row_some hrow⟩

/-- A statement not ready, a restart in the middle of the second attempt, a stale reclaim, and a
third attempt that succeeds. -/
def restartedMorning : List (Timestamp × Action) :=
  [(0, .enqueueSlot "flex-trades" [("as_of", .str "2026-09-04")]),
    (seconds 5, .claimNext 0),
    (seconds 60, .fail 0 "Flex request failed: [1019] Statement generation in progress"),
    (seconds 1900, .claimNext 0),
    (seconds 1960, .crash 0),
    (seconds 9200, .reclaimStaleRunning 0),
    (seconds 9900, .claimNext 0),
    (seconds 9960, .markDone 0 [("inserted", .int 3), ("ok", .bool true)])]

theorem queue_invariant_restartedMorning :
    ∃ s, exec (step scheduleConfig) Sys.init restartedMorning = some s ∧ s.violations = 0 ∧
      ∀ r ∈ s.table.rows, s.claimed.count r.id ≤ r.maxAttempts := by
  have hrun : (exec (step scheduleConfig) Sys.init restartedMorning).isSome = true := by
    decide +kernel
  obtain ⟨s, hs⟩ := Option.isSome_iff_exists.mp hrun
  have hP : ∀ l ∈ restartedMorning, OneWorker 0 l.2 := by
    simp [restartedMorning, OneWorker, Action.worker, Action.BudgetPos]
  obtain ⟨hrows, _, hquiet, _⟩ := queue_invariant hP hs
  exact ⟨s, hs, hquiet, fun r hr => (hrows r hr).2.2.2.2.2⟩

end FlexQuery
