import FlexQuery.Queue.Budget

/-!
# Final states and stale claims

Any number of workers and manual runs.  The finishing statements select their row by id only,
so whether a job that is done or failed stays so, and whether a slow attempt can still write
over a newer one, is decided by the stale reclaim.

* `Absorbing`, `Fenced` — the two properties of a step.
* `reclaimed_manual_run` — a manual run longer than the stale limit breaks both: the reclaim
  calls it failed, `_audit_finish` then makes it done.
* `LiveReclaim` — the reclaim takes a row whose attempt is still in flight.
* `FenceInv`, `fenceInv_step` — without such a reclaim, every attempt in flight owns its row.
* `finals_absorbing_and_claims_fenced` — so both properties hold along every such run.
-/

set_option autoImplicit false

namespace FlexQuery

open Transition

/-- A job that is done, or failed, stays so. -/
def Absorbing (s s' : Sys) : Prop :=
  ∀ k st, st = .done ∨ st = .failed →
    s.table.At k (fun r => r.status = st) → s'.table.At k (fun r => r.status = st)

/-- The attempt a finishing statement is issued for: a job and the number of the attempt. -/
def issuedFor (s : Sys) : Action → Option (ℕ × ℕ)
  | .markDone w _ =>
    match s.workers w with
    | .running j => some (j.id, j.attempts)
    | _ => none
  | .fail w _ =>
    match s.workers w with
    | .running j => some (j.id, j.attempts)
    | _ => none
  | .auditFinish k _ => some (k, 1)
  | _ => none

/-- A finishing statement changes the row only if its attempt is the one running. -/
def Fenced (s : Sys) (a : Action) (s' : Sys) : Prop :=
  ∀ k n, issuedFor s a = some (k, n) → s'.table.row k ≠ s.table.row k →
    s.table.At k fun r => r.status = .running ∧ r.attempts = n

/-- A manual run still waiting for its statements when the stale limit passes. -/
def slowManualRun : List (Timestamp × Action) :=
  [(0, .insertManualJob "flex-trades" [("source", .str "trigger")]),
    (seconds 7260, .reclaimStaleRunning 0)]

/-- What a manual run that succeeded reports. -/
def threeRows : ManualResult where
  ok := true
  errors := []
  error := none
  processed := 3
  summary := [("count", .int 3)]

/-- The run succeeds all the same. -/
def slowManualRunEnds : Timestamp × Action := (seconds 7300, .auditFinish 1 threeRows)

theorem reclaimed_manual_run :
    ¬ ∀ (as : List (Timestamp × Action)) (s : Sys) (l : Timestamp × Action) (s' : Sys),
      exec (step scheduleConfig) Sys.init as = some s → step scheduleConfig s l = some s' →
      Absorbing s s' ∧ Fenced s l.2 s' := by
  intro hclaim
  have hrun : (exec (step scheduleConfig) Sys.init slowManualRun).any
      (fun s => (s.table.row 1).any (·.status = .failed) &&
        (step scheduleConfig s slowManualRunEnds).any
          fun s' => (s'.table.row 1).any (·.status = .done)) = true := by
    decide +kernel
  obtain ⟨s, hs, hrun⟩ := (Option.any_eq_true _ _).mp hrun
  obtain ⟨hfailed, hend⟩ := Bool.and_eq_true_iff.mp hrun
  obtain ⟨r, hr, hst⟩ := (Option.any_eq_true _ _).mp hfailed
  obtain ⟨s', hs', hdone⟩ := (Option.any_eq_true _ _).mp hend
  obtain ⟨r', hr', hst'⟩ := (Option.any_eq_true _ _).mp hdone
  obtain ⟨habs, _⟩ := hclaim slowManualRun s slowManualRunEnds s' hs hs'
  obtain ⟨x, hx, hxst⟩ := habs 1 .failed (Or.inr rfl) ⟨r, hr, of_decide_eq_true hst⟩
  rw [hx] at hr'
  cases hr'
  rw [hxst] at hst'
  exact absurd (of_decide_eq_true hst') (by decide)

/-! ## When attempts own their rows -/

/-- Some attempt at job `k` is in flight: a worker's, or a manual run. -/
def InFlight (s : Sys) (k : ℕ) : Prop :=
  (∃ w j, s.workers w = .running j ∧ j.id = k) ∨ k ∈ s.manual

/-- The action reclaims a row whose attempt is still in flight. -/
def LiveReclaim (cfg : QueueConfig) (s : Sys) (l : Timestamp × Action) : Prop :=
  (∃ w, l.2 = .reclaimStaleRunning w) ∧
    ∃ r ∈ s.table.rows, r.stale l.1 (max 60 cfg.staleAfterSec) = true ∧ InFlight s r.id

/-- Every attempt in flight owns its row, and its row alone. -/
structure FenceInv (s : Sys) : Prop where
  held : ∀ w j, s.workers w = .running j →
    s.table.At j.id fun r => r.status = .running ∧ r.attempts = j.attempts
  single : ∀ w w' j j', s.workers w = .running j → s.workers w' = .running j' → j.id = j'.id →
    w = w'
  manual : ∀ k ∈ s.manual, s.table.At k fun r => r.status = .running ∧ r.attempts = 1
  manual_nodup : s.manual.Nodup
  apart : ∀ w j, s.workers w = .running j → j.id ∉ s.manual

theorem FenceInv.init : FenceInv Sys.init where
  held := nofun
  single := nofun
  manual := fun _ h => absurd h List.not_mem_nil
  manual_nodup := List.nodup_nil
  apart := nofun

theorem Absorbing.refl (s : Sys) : Absorbing s s := fun _ _ _ h => h

theorem Absorbing.trans {s t u : Sys} (h₁ : Absorbing s t) (h₂ : Absorbing t u) :
    Absorbing s u :=
  fun k st hst h => h₂ k st hst (h₁ k st hst h)

/-- An update that leaves the final rows it selects final in the same way. -/
theorem Absorbing.update {s s' : Sys} {p : JobRow → Bool} {f : JobRow → JobRow}
    {hid : ∀ r, (f r).id = r.id} (ht : s.table.update p f hid = .ok s'.table)
    (hf : ∀ r ∈ s.table.rows, r.status.active = false → p r = true → (f r).status = r.status) :
    Absorbing s s' := by
  rintro k st hst ⟨r, hr, hr_st⟩
  obtain ⟨hmem, hk⟩ := JobTable.row_some hr
  have hact : r.status.active = false := by
    rcases hst with rfl | rfl <;> rw [hr_st] <;> rfl
  refine ⟨if p r then f r else r, by rw [JobTable.row_update ht, hr]; rfl, ?_⟩
  split
  · rename_i hp
    exact (hf r hmem hact hp).trans hr_st
  · exact hr_st

namespace FenceInv

variable {s : Sys}

/-- A row in flight is running, so it is neither pending nor final. -/
theorem running_of_inFlight (h : FenceInv s) {r : JobRow} (hr : r ∈ s.table.rows)
    (hlive : InFlight s r.id) : r.status = .running := by
  rcases hlive with ⟨w, j, hw, hj⟩ | hk
  · obtain ⟨x, hx, hst, _⟩ := h.held w j hw
    rw [hj, JobTable.row_mem hr] at hx
    cases hx
    exact hst
  · obtain ⟨x, hx, hst, _⟩ := h.manual _ hk
    rw [JobTable.row_mem hr] at hx
    cases hx
    exact hst

/-- A statement that touches no row in flight. -/
theorem update {p : JobRow → Bool} {f : JobRow → JobRow} {hid : ∀ r, (f r).id = r.id}
    {t : JobTable} (h : FenceInv s) (ht : s.table.update p f hid = .ok t)
    (hp : ∀ r ∈ s.table.rows, r.status = .running → InFlight s r.id → p r = false) :
    FenceInv { s with table := t } where
  held := fun w j hw => (h.held w j hw).update ht fun r hmem hk hr hsel => by
    rw [hp r hmem hr.1 (Or.inl ⟨w, j, hw, hk.symm⟩)] at hsel
    cases hsel
  single := h.single
  manual := fun k hk => (h.manual k hk).update ht fun r hmem hr hst hsel => by
    rw [hp r hmem hst.1 (Or.inr (hr.symm ▸ hk))] at hsel
    cases hsel
  manual_nodup := h.manual_nodup
  apart := h.apart

/-- A worker that lets go of its job. -/
theorem release (h : FenceInv s) (w : ℕ) (pc : Pc) (hpc : ∀ j, pc ≠ .running j) :
    FenceInv (s.setWorker w pc) := by
  have hold : ∀ w' j, (s.setWorker w pc).workers w' = .running j →
      w' ≠ w ∧ s.workers w' = .running j := by
    intro w' j hj
    rw [workers_setWorker] at hj
    split at hj
    · exact absurd hj (hpc j)
    · rename_i hne
      exact ⟨hne, hj⟩
  exact {
    held := fun w' j hj => h.held w' j (hold w' j hj).2
    single := fun w₁ w₂ j₁ j₂ h₁ h₂ => h.single w₁ w₂ j₁ j₂ (hold w₁ j₁ h₁).2 (hold w₂ j₂ h₂).2
    manual := h.manual
    manual_nodup := h.manual_nodup
    apart := fun w' j hj => h.apart w' j (hold w' j hj).2 }

/-- Once a worker lets go of job `j`, no attempt at it is in flight. -/
theorem not_inFlight_release (h : FenceInv s) {w : ℕ} {j : Job} (hw : s.workers w = .running j)
    {pc : Pc} (hpc : ∀ i, pc ≠ .running i) : ¬ InFlight (s.setWorker w pc) j.id := by
  rintro (⟨w', i, hi, hij⟩ | hk)
  · rw [workers_setWorker] at hi
    split at hi
    · exact hpc i hi
    · rename_i hne
      exact hne (h.single w' w i j hi hw hij)
  · exact h.apart w j hw hk

/-- A worker finishing its attempt. -/
theorem finish {f : JobRow → JobRow} {hid : ∀ r, (f r).id = r.id} {t : JobTable} {w : ℕ}
    {j : Job} (h : FenceInv s) (hw : s.workers w = .running j)
    (ht : s.table.update (fun r => r.id = j.id) f hid = .ok t) (pc : Pc)
    (hpc : ∀ i, pc ≠ .running i) :
    FenceInv { s.setWorker w pc with table := t } ∧
      Absorbing s { s.setWorker w pc with table := t } := by
  constructor
  · apply (h.release w pc hpc).update ht
    intro r _ _ hlive
    by_contra hp
    have hk : r.id = j.id := by simpa using hp
    exact h.not_inFlight_release hw hpc (hk ▸ hlive)
  · apply Absorbing.update ht
    intro r hr hact hp
    have hrun := h.running_of_inFlight hr (Or.inl ⟨w, j, hw, (of_decide_eq_true hp).symm⟩)
    rw [hrun] at hact
    cases hact

end FenceInv

/-- **Step lemma.** -/
theorem fenceInv_step {cfg : QueueConfig} {s s' : Sys} {l : Timestamp × Action} (h : FenceInv s)
    (hsafe : ¬ LiveReclaim cfg s l) (hstep : step cfg s l = some s') :
    FenceInv s' ∧ Absorbing s s' := by
  obtain ⟨now, a⟩ := l
  cases step_effect hstep with
  | nothing => exact ⟨h, Absorbing.refl s⟩
  | insert _ kind payload hash priority n ha hn =>
    exact ⟨{
      held := fun w j hw => (h.held w j hw).insert
      single := h.single
      manual := fun k hk => (h.manual k hk).insert
      manual_nodup := h.manual_nodup
      apart := h.apart }, fun _ _ _ hk => hk.insert⟩
  | runNow k force t r hr hst hcool ht =>
    constructor
    · apply h.update ht
      intro r _ hrun _
      simp [hrun]
    · exact Absorbing.update ht fun _ _ _ _ => rfl
  | manualStart kind kind' payload hrows =>
    refine ⟨{
      held := fun w j hw => (h.held w j hw).insert
      single := h.single
      manual := ?_
      manual_nodup := ?_
      apart := ?_ }, fun _ _ _ hk => hk.insert⟩
    · intro k hk
      rcases List.mem_cons.mp hk with rfl | hk
      · have hmem : { newManualJob now kind' payload with id := s.table.nextId } ∈
            (s.table.insert (newManualJob now kind' payload)).1.rows := by
          rw [hrows]
          exact List.mem_append_right _ List.mem_cons_self
        exact JobTable.At.of_mem hmem ⟨rfl, rfl⟩
      · exact (h.manual k hk).insert
    · exact List.nodup_cons.mpr ⟨fun hk => (h.manual _ hk).ne_nextId rfl, h.manual_nodup⟩
    · intro w j hw hk
      rcases List.mem_cons.mp hk with hk | hk
      · exact (h.held w j hw).ne_nextId hk
      · exact h.apart w j hw hk
  | manualFinish k res t hk ht =>
    -- The run leaves the list first: then no attempt in flight has its row.
    have herase : FenceInv { s with manual := s.manual.erase k } := {
      held := h.held
      single := h.single
      manual := fun i hi => h.manual i (List.mem_of_mem_erase hi)
      manual_nodup := h.manual_nodup.erase k
      apart := fun w j hw hi => h.apart w j hw (List.mem_of_mem_erase hi) }
    have hfree : ∀ r ∈ s.table.rows, r.status = .running →
        InFlight { s with manual := s.manual.erase k } r.id → decide (r.id = k) = false := by
      intro r _ _ hlive
      by_contra hp
      have hrk : r.id = k := by simpa using hp
      rcases hlive with ⟨w, j, hw, hj⟩ | hi
      · exact h.apart w j hw (by rw [hj, hrk]; exact hk)
      · rw [hrk] at hi
        exact h.manual_nodup.not_mem_erase hi
    have hrun : ∀ r ∈ s.table.rows, r.status.active = false → decide (r.id = k) = true → False := by
      intro r hr hact hp
      have hst := h.running_of_inFlight hr (Or.inr ((of_decide_eq_true hp).symm ▸ hk))
      rw [hst] at hact
      cases hact
    rcases auditFinish_cases ht with ⟨result, ht⟩ | ⟨error, category, ht⟩
    · exact ⟨herase.update ht hfree,
        Absorbing.update ht fun r hr hact hp => (hrun r hr hact hp).elim⟩
    · exact ⟨herase.update ht hfree,
        Absorbing.update ht fun r hr hact hp => (hrun r hr hact hp).elim⟩
  | manualAbandon k =>
    exact ⟨{
      held := h.held
      single := h.single
      manual := fun i hi => h.manual i (List.mem_of_mem_erase hi)
      manual_nodup := h.manual_nodup.erase k
      apart := fun w j hw hi => h.apart w j hw (List.mem_of_mem_erase hi) }, fun _ _ _ hk => hk⟩
  | claim w r t hw hr hcl ht =>
    obtain ⟨hst, _⟩ := JobRow.claimable_iff.mp hcl
    have hfree : ¬ InFlight s r.id := by
      intro hlive
      rw [h.running_of_inFlight hr hlive] at hst
      cases hst
    have hsel : ∀ x ∈ s.table.rows, x.status = .running → InFlight s x.id →
        decide (x.id = r.id) = false := by
      intro x _ _ hlive
      by_contra hp
      have hxr : x.id = r.id := by simpa using hp
      exact hfree (hxr ▸ hlive)
    have hkeep := h.update ht hsel
    have hworkers : ∀ w' j, (s.setWorker w (.running { r.toJob with attempts := r.attempts + 1
        })).workers w' = .running j →
        (w' = w ∧ j = { r.toJob with attempts := r.attempts + 1 }) ∨
        (w' ≠ w ∧ s.workers w' = .running j ∧ j.id ≠ r.id) := by
      intro w' j hj
      rw [workers_setWorker] at hj
      split at hj
      · rename_i he
        cases hj
        exact Or.inl ⟨he, rfl⟩
      · rename_i hne
        exact Or.inr ⟨hne, hj, fun he => hfree (Or.inl ⟨w', j, hj, he⟩)⟩
    refine ⟨{
      held := ?_
      single := ?_
      manual := hkeep.manual
      manual_nodup := h.manual_nodup
      apart := ?_ }, ?_⟩
    · intro w' j hj
      rcases hworkers w' j hj with ⟨_, rfl⟩ | ⟨_, hj, _⟩
      · refine ⟨r.claim now, ?_, rfl, rfl⟩
        show t.row r.id = some (r.claim now)
        rw [JobTable.row_update ht, JobTable.row_mem hr]
        simp
      · exact hkeep.held w' j hj
    · intro w₁ w₂ j₁ j₂ h₁ h₂ hid
      rcases hworkers w₁ j₁ h₁ with ⟨hw₁, rfl⟩ | ⟨_, h₁, hne₁⟩
      · rcases hworkers w₂ j₂ h₂ with ⟨hw₂, _⟩ | ⟨_, _, hne₂⟩
        · rw [hw₁, hw₂]
        · exact absurd hid.symm hne₂
      · rcases hworkers w₂ j₂ h₂ with ⟨_, rfl⟩ | ⟨_, h₂, _⟩
        · exact absurd hid hne₁
        · exact h.single w₁ w₂ j₁ j₂ h₁ h₂ hid
    · intro w' j hj
      rcases hworkers w' j hj with ⟨_, rfl⟩ | ⟨_, hj, _⟩
      · exact fun hk => hfree (Or.inr hk)
      · exact h.apart w' j hj
    · apply Absorbing.update ht
      intro x hx hact hp
      have hxr : x = r :=
        List.inj_on_of_nodup_map s.table.ids_nodup hx hr (of_decide_eq_true hp)
      rw [hxr, hst] at hact
      cases hact
  | reclaim w t hw ht =>
    constructor
    · apply h.update ht
      intro r hr _ hlive
      by_contra hp
      have hstale : r.stale now (max 60 cfg.staleAfterSec) = true := by simpa using hp
      exact hsafe ⟨⟨w, rfl⟩, r, hr, hstale, hlive⟩
    · apply Absorbing.update ht
      intro r _ hact hp
      rw [(JobRow.stale_iff.mp hp).1] at hact
      cases hact
  | done w j result t hw ht => exact h.finish hw ht .idle nofun
  | retry w j msg t hw hp ht =>
    refine h.finish hw ht _ ?_
    intro i
    unfold afterRetry
    split <;> nofun
  | violation w j msg e hw ht =>
    have hrel := h.release w .idle nofun
    exact ⟨{ hrel with }, fun _ _ _ hk => hk⟩
  | giveUp w j msg t hw hp ht => exact h.finish hw ht .idle nofun
  | cool w j delay t hw ht =>
    constructor
    · apply (h.release w .idle nofun).update ht
      intro r _ hrun _
      simp [JobRow.deferred, hrun]
    · exact Absorbing.update ht fun _ _ _ _ => rfl
  | crash w => exact ⟨h.release w .idle nofun, fun _ _ _ hk => hk⟩

/-- Where every attempt in flight owns its row, each finishing statement is fenced. -/
theorem FenceInv.fenced {s s' : Sys} {a : Action} (h : FenceInv s)
    (hk : ∀ k res, a = .auditFinish k res → k ∈ s.manual) : Fenced s a s' := by
  have hworker : ∀ w k n, (match s.workers w with
      | .running j => some (j.id, j.attempts)
      | _ => none) = some (k, n) →
      s.table.At k fun r => r.status = .running ∧ r.attempts = n := by
    intro w k n hiss
    split at hiss
    · rename_i j hw
      cases hiss
      exact h.held w j hw
    · cases hiss
  intro k n hiss _
  cases a with
  | markDone w result => exact hworker w k n hiss
  | fail w msg => exact hworker w k n hiss
  | auditFinish k' res =>
    cases hiss
    exact h.manual k (hk k res rfl)
  | _ => cases hiss

/-- **Absorbing and fenced.**  Along every run without a reclaim of an attempt in flight, a
final row stays as it is to the end, and every finishing statement that changes its row is
issued for the attempt still running. -/
theorem finals_absorbing_and_claims_fenced {cfg : QueueConfig} {as bs : List (Timestamp × Action)}
    {s t : Sys} (hsafe : Along (step cfg) (fun u l => ¬ LiveReclaim cfg u l) Sys.init (as ++ bs))
    (hs : exec (step cfg) Sys.init as = some s) (ht : exec (step cfg) s bs = some t) :
    Absorbing s t ∧
      ∀ pre l post u v, bs = pre ++ l :: post → exec (step cfg) s pre = some u →
        step cfg u l = some v → Absorbing u v ∧ Fenced u l.2 v := by
  obtain ⟨hsafe₁, hsafe₂⟩ := Along.append.mp hsafe
  have hinv : FenceInv s :=
    exec_invariant (fun _ _ _ hi hl hstep => (fenceInv_step hi hl hstep).1) FenceInv.init hsafe₁ hs
  refine ⟨?_, ?_⟩
  · exact exec_relation (fun _ _ _ hi hl hstep => fenceInv_step hi hl hstep) Absorbing.refl
      (fun _ _ _ => Absorbing.trans) hinv (hsafe₂ s hs) ht
  · rintro pre l post u v rfl hu hv
    obtain ⟨hpre, hpost⟩ := Along.append.mp (hsafe₂ s hs)
    have hinv' : FenceInv u :=
      exec_invariant (fun _ _ _ hi hl hstep => (fenceInv_step hi hl hstep).1) hinv hpre hu
    refine ⟨(fenceInv_step hinv' (hpost u hu).1 hv).2, hinv'.fenced ?_⟩
    intro k res ha
    obtain ⟨now, a⟩ := l
    subst ha
    simp only [step] at hv
    split at hv
    · assumption
    · cases hv

/-- Two workers and a manual run side by side. -/
def threeAtOnce : List (Timestamp × Action) :=
  [(0, .enqueueSlot "flex-trades" [("as_of", .str "2026-09-04")]),
    (seconds 1, .enqueueSlot "flex-transactions" [("as_of", .str "2026-09-04")]),
    (seconds 5, .claimNext 0),
    (seconds 6, .claimNext 1),
    (seconds 7, .insertManualJob "flex-trades" [("source", .str "trigger")]),
    (seconds 60, .markDone 1 [("inserted", .int 3), ("ok", .bool true)])]

/-- The worker still at work fails for good; the manual run succeeds. -/
def bothEnd : List (Timestamp × Action) :=
  [(seconds 90, .fail 0 "Flex request failed: [1012] Token has expired"),
    (seconds 95, .auditFinish 3 threeRows)]

theorem finals_absorbing_threeAtOnce :
    ∃ s t, exec (step scheduleConfig) Sys.init threeAtOnce = some s ∧
      exec (step scheduleConfig) s bothEnd = some t ∧ Absorbing s t := by
  have hrun : (exec (step scheduleConfig) Sys.init (threeAtOnce ++ bothEnd)).isSome = true := by
    decide +kernel
  obtain ⟨t, ht⟩ := Option.isSome_iff_exists.mp hrun
  obtain ⟨s, hs, ht⟩ := exec_append.mp ht
  have hnone : ∀ l ∈ threeAtOnce ++ bothEnd, ∀ w, l.2 ≠ .reclaimStaleRunning w := by
    simp [threeAtOnce, bothEnd]
  have hsafe : Along (step scheduleConfig) (fun u l => ¬ LiveReclaim scheduleConfig u l) Sys.init
      (threeAtOnce ++ bothEnd) :=
    Along.of_forall Sys.init fun l hl _ hlive => hlive.1.elim (hnone l hl)
  exact ⟨s, t, hs, ht, (finals_absorbing_and_claims_fenced hsafe hs ht).1⟩

end FlexQuery
