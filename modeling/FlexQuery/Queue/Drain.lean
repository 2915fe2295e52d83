import FlexQuery.Library.Potential
import FlexQuery.Queue.Arrivals
import FlexQuery.Queue.Fencing

/-!
# The queue drains

Any number of workers, none of which reclaims an attempt still in flight.

* `JobRow.left`, `JobRow.spent` — the attempts a job may still be claimed for, and the rest of its
  budget: what it was claimed for, or all of it once the job is final.
* `DrainInv` — attempts own their rows, and each job keeps its budget.
* `drainInv_step`, `spent_step` — every step keeps the invariant; nothing is ever unspent, and a
  claim spends one attempt.
* `duePoll_claims`, `claims_paid` — a poll finds a job whenever one is due, and each is paid for.
* `queue_drains` — so the polls that meet a due job are bounded by the budgets, whatever the
  attempts come to; when the budgets are used up nothing is pending.
-/

set_option autoImplicit false

namespace FlexQuery

open Potential Transition

/-- The attempts the job may still be claimed for. -/
def JobRow.left (r : JobRow) : ℕ := if r.status.active then r.maxAttempts - r.attempts else 0

/-- What of the job's budget is gone. -/
def JobRow.spent (r : JobRow) : ℕ := if r.status.active then r.attempts else r.maxAttempts

namespace JobTable

/-- A number of each job, summed over the jobs at some places. -/
def sumAt (sel : Place → Bool) (φ : JobRow → ℕ) (t : JobTable) : ℕ :=
  (t.rows.map fun r => if sel r.place then φ r else 0).sum

/-- The attempts the jobs may still be claimed for. -/
def leftAt (sel : Place → Bool) (t : JobTable) : ℕ := t.sumAt sel JobRow.left

def spentAt (sel : Place → Bool) (t : JobTable) : ℕ := t.sumAt sel JobRow.spent

/-- The budgets of the jobs. -/
def budgetsAt (sel : Place → Bool) (t : JobTable) : ℕ := t.sumAt sel JobRow.maxAttempts

/-- The attempts all jobs may still be claimed for. -/
def left (t : JobTable) : ℕ := t.leftAt fun _ => true

/-- The budgets of all jobs. -/
def budgets (t : JobTable) : ℕ := t.budgetsAt fun _ => true

end JobTable

theorem RowOk.spent_add_left {r : JobRow} (h : RowOk r) : r.spent + r.left = r.maxAttempts := by
  have hle := h.budget
  unfold JobRow.spent JobRow.left
  split
  · omega
  · omega

theorem RowOk.spent_le {r : JobRow} (h : RowOk r) : r.spent ≤ r.maxAttempts := by
  have hsum := h.spent_add_left
  omega

/-- A pending job has an attempt left. -/
theorem RowOk.left_pos {r : JobRow} (h : RowOk r) (hst : r.status = .pending) : 0 < r.left := by
  have hlt := (h.pending hst).1
  simp only [JobRow.left, hst, Status.active, if_true]
  omega

theorem JobTable.spent_add_left {t : JobTable} (h : ∀ r ∈ t.rows, RowOk r)
    (sel : Place → Bool) : t.spentAt sel + t.leftAt sel = t.budgetsAt sel := by
  unfold spentAt leftAt budgetsAt sumAt
  rw [← List.sum_map_add]
  apply congrArg List.sum
  apply List.map_congr_left
  intro r hr
  have hsum := (h r hr).spent_add_left
  split
  · omega
  · omega

/-- No more than that is left of any one job. -/
theorem JobTable.left_le {t : JobTable} {sel : Place → Bool} {r : JobRow} (hr : r ∈ t.rows)
    (hsel : sel r.place = true) : r.left ≤ t.leftAt sel := by
  have hle : (if sel r.place then r.left else 0) ≤ t.leftAt sel :=
    List.single_le_sum (by simp) _ (List.mem_map_of_mem hr)
  simpa [hsel] using hle

/-! ## The invariant -/

/-- The invariant of the runs considered. -/
structure DrainInv (s : Sys) : Prop where
  fence : FenceInv s
  rows : ∀ r ∈ s.table.rows, RowOk r
  budget : ∀ w j, s.workers w = .running j →
    s.table.At j.id fun r => r.maxAttempts = j.maxAttempts

theorem DrainInv.init : DrainInv Sys.init where
  fence := FenceInv.init
  rows := fun _ h => absurd h List.not_mem_nil
  budget := by rintro _ _ ⟨⟩

/-- No attempt in flight is reclaimed, and no job comes without an attempt to make. -/
def SafeStep (cfg : QueueConfig) (s : Sys) (l : Timestamp × Action) : Prop :=
  ¬ LiveReclaim cfg s l ∧ l.2.BudgetPos

namespace DrainInv

variable {s : Sys}

/-- The row of the job a worker runs. -/
theorem held (h : DrainInv s) {w : ℕ} {j : Job} (hw : s.workers w = .running j) {r : JobRow}
    (hr : r ∈ s.table.rows) (hk : r.id = j.id) : r.HeldBy j := by
  obtain ⟨x, hx, hst, hatt⟩ := h.fence.held w j hw
  obtain ⟨y, hy, hmax⟩ := h.budget w j hw
  rw [← hk, JobTable.row_mem hr] at hx hy
  cases hx
  cases hy
  exact ⟨hst, hatt, hmax⟩

/-- The row a finishing statement selects is running. -/
theorem running (h : DrainInv s) {k : ℕ} (hk : InFlight s k) {r : JobRow}
    (hr : r ∈ s.table.rows) (hp : decide (r.id = k) = true) : r.status = .running :=
  h.fence.running_of_inFlight hr (of_decide_eq_true hp ▸ hk)

end DrainInv

/-- A statement that keeps `maxAttempts` keeps the budget of every job a worker holds. -/
theorem budget_update {s : Sys} {t : JobTable} {p : JobRow → Bool} {f : JobRow → JobRow}
    {hid : ∀ r, (f r).id = r.id} (ht : s.table.update p f hid = .ok t)
    (hf : ∀ r, (f r).maxAttempts = r.maxAttempts) {k n : ℕ}
    (h : s.table.At k fun r => r.maxAttempts = n) : t.At k fun r => r.maxAttempts = n :=
  h.update ht fun r _ _ hr _ => (hf r).trans hr

/-- What is left running after a worker let go of its job was running before. -/
theorem running_release {s : Sys} {w w' : ℕ} {pc : Pc} {j : Job} (hpc : ∀ i, pc ≠ .running i)
    (h : (s.setWorker w pc).workers w' = .running j) : s.workers w' = .running j := by
  rw [workers_setWorker] at h
  split at h
  · exact absurd h (hpc j)
  · exact h

theorem afterRetry_ne_running (j : Job) (plan : RetryPlan) (i : Job) :
    afterRetry j plan ≠ .running i := by
  unfold afterRetry
  split <;> rintro ⟨⟩

/-- **Step lemma.** -/
theorem drainInv_step {cfg : QueueConfig} {s s' : Sys} {l : Timestamp × Action} (h : DrainInv s)
    (hP : SafeStep cfg s l) (hstep : step cfg s l = some s') : DrainInv s' := by
  have hfence := (fenceInv_step h.fence hP.1 hstep).1
  obtain ⟨now, a⟩ := l
  have hidle : ∀ i, Pc.idle ≠ .running i := Pc.idle_ne_running
  cases step_effect hstep with
  | nothing => exact h
  | insert _ kind payload hash priority n ha hn =>
    exact {
      fence := hfence
      rows := JobTable.forall_rows_insert h.rows (RowOk.newJob (hn hP.2))
      budget := fun w j hw => (h.budget w j hw).insert }
  | runNow k force t r hr hst hcool ht =>
    exact {
      fence := hfence
      rows := JobTable.forall_rows_update ht (fun r hr _ => h.rows r hr)
        fun r hr _ => (h.rows r hr).clearNotBefore
      budget := fun w j hw => budget_update ht (fun _ => rfl) (h.budget w j hw) }
  | manualStart kind kind' payload hrows =>
    exact {
      fence := hfence
      rows := JobTable.forall_rows_insert h.rows RowOk.newManualJob
      budget := fun w j hw => (h.budget w j hw).insert }
  | manualFinish k res t hk ht =>
    have hne : ∀ r ∈ s.table.rows, decide (r.id = k) = true → r.status ≠ .pending := by
      intro r hr hp
      rw [h.running (Or.inr hk) hr hp]
      decide
    rcases auditFinish_cases ht with ⟨result, ht⟩ | ⟨error, category, ht⟩
    · exact {
        fence := hfence
        rows := JobTable.forall_rows_update ht (fun r hr _ => h.rows r hr)
          fun r hr hp => (h.rows r hr).markDone (hne r hr hp) result
        budget := fun w j hw => budget_update ht (fun _ => rfl) (h.budget w j hw) }
    · exact {
        fence := hfence
        rows := JobTable.forall_rows_update ht (fun r hr _ => h.rows r hr)
          fun r hr hp => (h.rows r hr).markFailed (hne r hr hp) error category
        budget := fun w j hw => budget_update ht (fun _ => rfl) (h.budget w j hw) }
  | manualAbandon k => exact { fence := hfence, rows := h.rows, budget := h.budget }
  | claim w r t hw hr hcl ht =>
    obtain ⟨hst, _⟩ := JobRow.claimable_iff.mp hcl
    have hself : ∀ x ∈ s.table.rows, decide (x.id = r.id) = true → x = r := fun x hx hp =>
      List.inj_on_of_nodup_map s.table.ids_nodup hx hr (of_decide_eq_true hp)
    refine { fence := hfence, rows := ?_, budget := ?_ }
    · apply JobTable.forall_rows_update ht (fun x hx _ => h.rows x hx)
      intro x hx hp
      rw [hself x hx hp]
      exact (h.rows r hr).claim hst
    · intro w' j hj
      change (s.setWorker w _).workers w' = .running j at hj
      rw [workers_setWorker] at hj
      split at hj
      · cases hj
        refine ⟨r.claim now, ?_, ((h.rows r hr).toJob_maxAttempts hst).symm⟩
        show t.row r.id = some (r.claim now)
        rw [JobTable.row_update ht, JobTable.row_mem hr, Option.map_some,
          if_pos (decide_eq_true rfl)]
      · exact budget_update ht (fun _ => rfl) (h.budget w' j hj)
  | reclaim w t hw ht =>
    exact {
      fence := hfence
      rows := JobTable.forall_rows_update ht (fun r hr _ => h.rows r hr)
        fun r hr _ => (h.rows r hr).reclaim _ _
      budget := fun w j hw => budget_update ht (fun _ => rfl) (h.budget w j hw) }
  | done w j result t hw ht =>
    refine { fence := hfence, rows := ?_, budget := ?_ }
    · apply JobTable.forall_rows_update ht (fun r hr _ => h.rows r hr)
      intro r hr hp
      apply (h.rows r hr).markDone
      rw [h.running (Or.inl ⟨w, j, hw, rfl⟩) hr hp]
      decide
    · exact fun w' i hi =>
        budget_update ht (fun _ => rfl) (h.budget w' i (running_release hidle hi))
  | retry w j msg t hw hp ht =>
    refine { fence := hfence, rows := ?_, budget := ?_ }
    · apply JobTable.forall_rows_update ht (fun r hr _ => h.rows r hr)
      intro r hr hsel
      obtain ⟨_, hatt, hmax⟩ := h.held hw hr (of_decide_eq_true hsel)
      apply RowOk.markRetry
      rw [hatt, hmax]
      exact planRetry_pending hp
    · exact fun w' i hi => budget_update ht (fun _ => rfl)
        (h.budget w' i (running_release (afterRetry_ne_running _ _) hi))
  | violation w j msg e hw ht =>
    exact { fence := hfence, rows := h.rows,
            budget := fun w' i hi => h.budget w' i (running_release hidle hi) }
  | giveUp w j msg t hw hp ht =>
    refine { fence := hfence, rows := ?_, budget := ?_ }
    · apply JobTable.forall_rows_update ht (fun r hr _ => h.rows r hr)
      intro r hr hsel
      apply (h.rows r hr).markFailed
      rw [h.running (Or.inl ⟨w, j, hw, rfl⟩) hr hsel]
      decide
    · exact fun w' i hi =>
        budget_update ht (fun _ => rfl) (h.budget w' i (running_release hidle hi))
  | cool w j delay t hw ht =>
    exact {
      fence := hfence
      rows := JobTable.forall_rows_update ht (fun r hr _ => h.rows r hr)
        fun r hr hsel => (h.rows r hr).defer (JobRow.deferred_iff.mp hsel).1 delay
      budget := fun w' i hi =>
        budget_update ht (fun _ => rfl) (h.budget w' i (running_release hidle hi)) }
  | crash w =>
    exact { fence := hfence, rows := h.rows,
            budget := fun w' i hi => h.budget w' i (running_release hidle hi) }

/-! ## What a step spends -/

/-- The step claims a job at one of the places. -/
def claimsAt (sel : Place → Bool) (s : Sys) (_ : Timestamp × Action) (s' : Sys) : Bool :=
  s.table.rows.any fun r => sel r.place && s'.claimed = r.id :: s.claimed

/-- The step is a poll at a time when some job is due. -/
def duePoll (s : Sys) (l : Timestamp × Action) (_ : Sys) : Bool :=
  match l.2 with
  | .claimNext _ => s.table.rows.any (JobRow.claimable l.1)
  | _ => false

section
variable {sel : Place → Bool} {φ : JobRow → ℕ} {t t' : JobTable} {p : JobRow → Bool}
  {f : JobRow → JobRow} {hid : ∀ r, (f r).id = r.id}

theorem sumAt_insert (r : JobRow) : t.sumAt sel φ ≤ (t.insert r).1.sumAt sel φ := by
  unfold JobTable.sumAt
  rcases t.insert_cases r with ⟨hrows, _⟩ | ⟨hrows, _⟩
  · rw [hrows, List.map_append, List.sum_append]
    exact Nat.le_add_right _ _
  · rw [hrows]

theorem sumAt_update (ht : t.update p f hid = .ok t') (hplace : ∀ r, (f r).place = r.place)
    (hφ : ∀ r ∈ t.rows, p r = true → φ r ≤ φ (f r)) : t.sumAt sel φ ≤ t'.sumAt sel φ := by
  unfold JobTable.sumAt
  rw [(JobTable.update_rows ht).1]
  apply sum_le_update
  intro r hr hp
  rw [hplace]
  split
  · exact hφ r hr hp
  · exact le_refl _

theorem sumAt_update_lt (ht : t.update p f hid = .ok t') (hplace : ∀ r, (f r).place = r.place)
    (hφ : ∀ r ∈ t.rows, p r = true → φ r ≤ φ (f r)) {r : JobRow} (hr : r ∈ t.rows)
    (hp : p r = true) (hsel : sel r.place = true) (hlt : φ r < φ (f r)) :
    t.sumAt sel φ < t'.sumAt sel φ := by
  unfold JobTable.sumAt
  rw [(JobTable.update_rows ht).1]
  refine sum_lt_update ?_ hr hp ?_
  · intro x hx hpx
    rw [hplace]
    split
    · exact hφ x hx hpx
    · exact le_refl _
  · simpa [hplace, hsel] using hlt

/-- A statement that makes rows final spends their budgets. -/
theorem spent_final (ht : t.update p f hid = .ok t') (hrows : ∀ r ∈ t.rows, RowOk r)
    (hf : ∀ r : JobRow, (f r).status.active = false ∧ (f r).maxAttempts = r.maxAttempts ∧
      (f r).place = r.place) :
    t.spentAt sel ≤ t'.spentAt sel := by
  refine sumAt_update ht (fun r => (hf r).2.2) fun r hr _ => ?_
  obtain ⟨hact, hmax, _⟩ := hf r
  rw [show (f r).spent = r.maxAttempts by simp [JobRow.spent, hact, hmax]]
  exact (hrows r hr).spent_le

end

theorem spent_reclaim {r : JobRow} (h : RowOk r) {now : Timestamp} {sec delay : ℤ}
    (hstale : r.stale now sec = true) : r.spent ≤ (r.reclaim now sec delay).spent := by
  obtain ⟨hst, _⟩ := JobRow.stale_iff.mp hstale
  have hle := h.budget
  by_cases hlt : r.attempts < r.maxAttempts
  · simp [JobRow.spent, JobRow.reclaim, hst, hlt, Status.active]
  · simp [JobRow.spent, JobRow.reclaim, hst, hlt, Status.active, hle]

/-- **Nothing is unspent**, and a claim spends an attempt. -/
theorem spent_step {cfg : QueueConfig} {s s' : Sys} {l : Timestamp × Action} (h : DrainInv s)
    (hstep : step cfg s l = some s') (sel : Place → Bool) :
    s.table.spentAt sel + (if claimsAt sel s l s' then 1 else 0) ≤ s'.table.spentAt sel := by
  obtain ⟨now, a⟩ := l
  have hquiet : s'.claimed = s.claimed → s.table.spentAt sel ≤ s'.table.spentAt sel →
      s.table.spentAt sel + (if claimsAt sel s (now, a) s' then 1 else 0) ≤
        s'.table.spentAt sel := by
    intro hsame hle
    simpa [claimsAt, hsame] using hle
  cases step_effect hstep with
  | nothing => exact hquiet rfl (le_refl _)
  | insert => exact hquiet rfl (sumAt_insert _)
  | runNow k force t r hr hst hcool ht =>
    exact hquiet rfl (sumAt_update ht (fun _ => rfl) fun _ _ _ => le_rfl)
  | manualStart => exact hquiet rfl (sumAt_insert _)
  | manualFinish k res t hk ht =>
    apply hquiet rfl
    rcases auditFinish_cases ht with ⟨result, ht⟩ | ⟨error, category, ht⟩
    · exact spent_final ht h.rows fun _ => ⟨rfl, rfl, rfl⟩
    · exact spent_final ht h.rows fun _ => ⟨rfl, rfl, rfl⟩
  | manualAbandon => exact hquiet rfl (le_refl _)
  | claim w r t hw hr hcl ht =>
    obtain ⟨hst, _⟩ := JobRow.claimable_iff.mp hcl
    have hspent : r.spent < (r.claim now).spent := by
      simp [JobRow.spent, JobRow.claim, hst, Status.active]
    have hself : ∀ x ∈ s.table.rows, decide (x.id = r.id) = true → x.spent ≤ (x.claim now).spent := by
      intro x hx hp
      have hxr : x = r := List.inj_on_of_nodup_map s.table.ids_nodup hx hr (of_decide_eq_true hp)
      rw [hxr]
      exact hspent.le
    show s.table.spentAt sel + _ ≤ t.spentAt sel
    split
    · rename_i hclaims
      obtain ⟨x, hx, hsel⟩ := List.any_eq_true.mp hclaims
      obtain ⟨hsel, hid⟩ := Bool.and_eq_true_iff.mp hsel
      obtain ⟨hid, _⟩ := List.cons.inj (of_decide_eq_true hid)
      rw [← List.inj_on_of_nodup_map s.table.ids_nodup hr hx hid] at hsel
      exact sumAt_update_lt ht (fun _ => rfl) hself hr (decide_eq_true rfl) hsel hspent
    · exact sumAt_update ht (fun _ => rfl) hself
  | reclaim w t hw ht =>
    exact hquiet rfl
      (sumAt_update ht (fun _ => rfl) fun r hr hsel => spent_reclaim (h.rows r hr) hsel)
  | done w j result t hw ht =>
    exact hquiet rfl (spent_final ht h.rows fun _ => ⟨rfl, rfl, rfl⟩)
  | retry w j msg t hw hp ht =>
    refine hquiet rfl (sumAt_update ht (fun _ => rfl) fun r hr hsel => ?_)
    -- The row is running until now, so the attempt it goes back with is already spent.
    have hst := h.running (Or.inl ⟨w, j, hw, rfl⟩) hr hsel
    simp [JobRow.spent, JobRow.markRetry, hst, Status.active]
  | violation => exact hquiet rfl (le_refl _)
  | giveUp w j msg t hw hp ht =>
    exact hquiet rfl (spent_final ht h.rows fun _ => ⟨rfl, rfl, rfl⟩)
  | cool w j delay t hw ht =>
    exact hquiet rfl (sumAt_update ht (fun _ => rfl) fun _ _ _ => le_rfl)
  | crash => exact hquiet rfl (le_refl _)

/-! ## Budgets -/

theorem budgetsAt_append {sel : Place → Bool} {t t' : JobTable} {new : List (Place × ℕ)}
    (h : t'.rows.map JobRow.tag = t.rows.map JobRow.tag ++ new) :
    t'.budgetsAt sel = t.budgetsAt sel + (new.map fun g => if sel g.1 then g.2 else 0).sum := by
  have htags : ∀ u : JobTable, u.budgetsAt sel =
      ((u.rows.map JobRow.tag).map fun g => if sel g.1 then g.2 else 0).sum := by
    intro u
    rw [List.map_map]
    rfl
  rw [htags, htags, h, List.map_append, List.sum_append]

/-- No job's budget is ever taken away. -/
theorem budgets_run {cfg : QueueConfig} {s t : Sys} {as : List (Timestamp × Action)}
    (h : exec (step cfg) s as = some t) (sel : Place → Bool) :
    s.table.budgetsAt sel ≤ t.table.budgetsAt sel := by
  have harrived : Arrived (fun _ => True) s.table t.table := arrived_run (fun _ _ => trivial) h
  obtain ⟨_, new, hrows, _⟩ := harrived
  rw [budgetsAt_append hrows]
  exact Nat.le_add_right _ _

/-! ## What the polls find -/

/-- A poll claims the first job that is due, if there is one. -/
theorem poll_claims {cfg : QueueConfig} {s s' : Sys} {now : Timestamp} {w : ℕ}
    (hstep : step cfg s (now, .claimNext w) = some s') {r : JobRow} (hr : r ∈ s.table.rows)
    (hcl : r.claimable now = true) :
    ∃ x, nextClaimable now s.table = some x ∧ s'.claimed = x.id :: s.claimed := by
  simp only [step] at hstep
  split at hstep
  · obtain ⟨⟨t, found⟩, hres⟩ := claimNext_isOk now s.table
    rw [hres] at hstep
    unfold claimNext at hres
    cases hnext : nextClaimable now s.table with
    | none =>
      rw [nextClaimable_eq_none.mp hnext r hr] at hcl
      cases hcl
    | some x =>
      simp only [hnext] at hres
      split at hres
      · cases hres
      · cases hres
        cases hstep
        exact ⟨x, rfl, rfl⟩
  · cases hstep

/-- **A poll finds a job whenever one is due.** -/
theorem duePoll_claims {cfg : QueueConfig} {s s' : Sys} {l : Timestamp × Action}
    (hstep : step cfg s l = some s') (hdue : duePoll s l s' = true) :
    claimsAt (fun _ => true) s l s' = true := by
  obtain ⟨now, a⟩ := l
  cases a with
  | claimNext w =>
    obtain ⟨r, hr, hcl⟩ := List.any_eq_true.mp hdue
    obtain ⟨x, hnext, hclaimed⟩ := poll_claims hstep hr hcl
    exact List.any_eq_true.mpr ⟨x, (nextClaimable_mem hnext).1, by simp [hclaimed]⟩
  | _ => cases hdue

/-- **Claims at some places** number at most what was left there and what arrived there since,
less what is left at the end. -/
theorem claims_paid {cfg : QueueConfig} {Q : Sys → Prop} {s t : Sys}
    {as : List (Timestamp × Action)} {sel : Place → Bool}
    {ev : Sys → Timestamp × Action → Sys → Bool}
    (hQ : ∀ u l u', Q u → step cfg u l = some u' → Q u')
    (hev : ∀ u l u', Q u → step cfg u l = some u' → ev u l u' = true →
      claimsAt sel u l u' = true)
    (hs : DrainInv s) (hsQ : Q s) (hsafe : Along (step cfg) (SafeStep cfg) s as)
    (h : exec (step cfg) s as = some t) :
    DrainInv t ∧ count (step cfg) ev s as + t.table.leftAt sel ≤
      s.table.leftAt sel + (t.table.budgetsAt sel - s.table.budgetsAt sel) := by
  have hkeep : ∀ (u : Sys) (l : Timestamp × Action) (u' : Sys), DrainInv u ∧ Q u →
      SafeStep cfg u l → step cfg u l = some u' → DrainInv u' ∧ Q u' :=
    fun u l u' hu hl hstep => ⟨drainInv_step hu.1 hl hstep, hQ u l u' hu.2 hstep⟩
  obtain ⟨ht, _⟩ := exec_invariant hkeep ⟨hs, hsQ⟩ hsafe h
  have hpaid : s.table.spentAt sel + count (step cfg) ev s as ≤ t.table.spentAt sel := by
    refine add_count_le (fun u => u.table.spentAt sel) hkeep ?_ ⟨hs, hsQ⟩ hsafe h
    intro u l u' hu _ hstep
    have hspent := spent_step hu.1 hstep sel
    cases hhappens : ev u l u' with
    | false =>
      simp only [Bool.false_eq_true, if_false]
      omega
    | true =>
      rw [hev u l u' hu.2 hstep hhappens] at hspent
      exact hspent
  have hbudgets := budgets_run h sel
  have hsplit_s := JobTable.spent_add_left hs.rows sel
  have hsplit_t := JobTable.spent_add_left ht.rows sel
  exact ⟨ht, by omega⟩

/-- **The queue drains.**  Any number of workers and manual runs, none of whose attempts is
reclaimed while in flight, any arrivals, and attempts that end in any way: the polls of a run that
meet a due job number at most what was left at its start and what arrived since, less what is left
at its end.  When they are that many, no job is pending; and no job ever exceeds its budget. -/
theorem queue_drains {cfg : QueueConfig} {pre as : List (Timestamp × Action)} {s t : Sys}
    (hsafe : Along (step cfg) (SafeStep cfg) Sys.init (pre ++ as))
    (hs : exec (step cfg) Sys.init pre = some s) (ht : exec (step cfg) s as = some t) :
    count (step cfg) duePoll s as + t.table.left ≤
        s.table.left + (t.table.budgets - s.table.budgets) ∧
      s.table.budgets ≤ t.table.budgets ∧
      (s.table.left + (t.table.budgets - s.table.budgets) ≤ count (step cfg) duePoll s as →
        ∀ r ∈ t.table.rows, r.status ≠ .pending) ∧
      ∀ r ∈ t.table.rows, r.attempts ≤ r.maxAttempts := by
  obtain ⟨hpre, hpost⟩ := Along.append.mp hsafe
  have hs' : DrainInv s :=
    exec_invariant (fun _ _ _ hu hl hstep => drainInv_step hu hl hstep) DrainInv.init hpre hs
  have hclaims : ∀ u l u', True → step cfg u l = some u' → duePoll u l u' = true →
      claimsAt (fun _ => true) u l u' = true := fun _ _ _ _ hstep hdue => duePoll_claims hstep hdue
  obtain ⟨ht', hpaid⟩ :=
    claims_paid (fun _ _ _ _ _ => trivial) hclaims hs' trivial (hpost s hs) ht
  have hbudgets : s.table.budgets ≤ t.table.budgets := budgets_run ht fun _ => true
  refine ⟨hpaid, hbudgets, fun hall r hr hst => ?_, fun r hr => (ht'.rows r hr).budget⟩
  have hpos := (ht'.rows r hr).left_pos hst
  have hle : r.left ≤ t.table.left := JobTable.left_le hr rfl
  unfold JobTable.left JobTable.budgets at *
  omega

/-- A job with two attempts, neither of which IB answers. -/
def twoAttempts : List (Timestamp × Action) :=
  [(0, .insertJob "flex-trades" [("as_of", .str "2026-09-04")] 5 2 none),
    (seconds 5, .claimNext 0), (seconds 35, .fail 0 "timed out"),
    (seconds 155, .claimNext 1), (seconds 185, .fail 1 "timed out")]

theorem queue_drains_twoAttempts :
    ∃ t, exec (step scheduleConfig) Sys.init twoAttempts = some t ∧
      count (step scheduleConfig) duePoll Sys.init twoAttempts = 2 ∧
      ∀ r ∈ t.table.rows, r.status ≠ .pending := by
  have hrun : (exec (step scheduleConfig) Sys.init twoAttempts).any
      (fun t => t.table.budgets = 2) = true ∧
      count (step scheduleConfig) duePoll Sys.init twoAttempts = 2 := by
    decide +kernel
  obtain ⟨hrun, hpolls⟩ := hrun
  obtain ⟨t, ht, hbudgets⟩ := (Option.any_eq_true _ _).mp hrun
  have hsafe : Along (step scheduleConfig) (SafeStep scheduleConfig) Sys.init
      ([] ++ twoAttempts) := by
    apply Along.of_forall
    intro a ha u
    refine ⟨?_, ?_⟩
    · rintro ⟨⟨w, hw⟩, _⟩
      fin_cases ha <;> cases hw
    · fin_cases ha
      · exact Nat.succ_pos 1
      all_goals trivial
  obtain ⟨_, _, hdrained, _⟩ := queue_drains hsafe rfl ht
  refine ⟨t, ht, hpolls, hdrained ?_⟩
  rw [hpolls, of_decide_eq_true hbudgets]
  decide

end FlexQuery
