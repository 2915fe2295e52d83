import FlexQuery.Schema.Jobs

/-!
# Claim, defer, finish

`worker/claim.py`: the statements a worker runs on the queue, each committed on its own.  What
a statement makes of one row is a function on rows (`JobRow.claim`, `JobRow.reclaim`, …) and the
statement applies it to the rows its `WHERE` selects.

* `claimNext`, `reclaimStaleRunning`, `markDone`, `markRetry`, `markFailed`, `deferPending`.
* `claimNext_cases` — either nothing is claimable, or one claimable row is now running.
* `…_isOk` — no statement violates the unique index, except that `markRetry` may when the row it
  names is no longer active.
-/

set_option autoImplicit false

namespace FlexQuery

/-- A claimed job, as `_row_to_job` builds it. -/
structure Job where
  id : ℕ
  kind : String
  payload : Dict
  attempts : ℕ
  maxAttempts : ℕ

/-- `_row_to_job`; `or 3` also replaces a budget of 0. -/
def JobRow.toJob (r : JobRow) : Job where
  id := r.id
  kind := r.kind
  payload := r.payload
  attempts := r.attempts
  maxAttempts := if r.maxAttempts = 0 then 3 else r.maxAttempts

/-! ## `claim_next` -/

/-- `status = 'pending' AND (not_before IS NULL OR not_before <= now)`. -/
def JobRow.claimable (now : Timestamp) (r : JobRow) : Bool :=
  r.status = .pending && r.notBefore.all (· ≤ now)

/-- `ORDER BY priority DESC, created_at ASC, id ASC`. -/
def claimOrder (a b : JobRow) : Bool :=
  a.priority > b.priority ||
    (a.priority = b.priority &&
      (a.createdAt < b.createdAt || (a.createdAt = b.createdAt && a.id < b.id)))

def nextClaimable (now : Timestamp) (t : JobTable) : Option JobRow :=
  RowTable.firstBy claimOrder (t.rows.filter (JobRow.claimable now))

def JobRow.claim (now : Timestamp) (r : JobRow) : JobRow :=
  { r with
    status := .running
    attempts := r.attempts + 1
    startedAt := some now
    updatedAt := now
    notBefore := none }

theorem JobRow.claim_id (now : Timestamp) (r : JobRow) : (r.claim now).id = r.id := rfl

/-- `claim_next`. -/
def claimNext (now : Timestamp) (t : JobTable) : Except DbError (JobTable × Option Job) :=
  match nextClaimable now t with
  | none => .ok (t, none)
  | some r =>
    match t.update (fun x => x.id = r.id) (JobRow.claim now) (fun _ => rfl) with
    | .error e => .error e
    | .ok t' => .ok (t', some { r.toJob with attempts := r.attempts + 1 })

theorem JobRow.claimable_iff {now : Timestamp} {r : JobRow} :
    r.claimable now = true ↔ r.status = .pending ∧ ∀ nb, r.notBefore = some nb → nb ≤ now := by
  simp only [JobRow.claimable, Bool.and_eq_true, decide_eq_true_eq]
  cases r.notBefore <;> simp

theorem nextClaimable_mem {now : Timestamp} {t : JobTable} {r : JobRow}
    (h : nextClaimable now t = some r) : r ∈ t.rows ∧ r.claimable now = true :=
  List.mem_filter.mp (RowTable.firstBy_mem h)

theorem nextClaimable_eq_none {now : Timestamp} {t : JobTable} :
    nextClaimable now t = none ↔ ∀ r ∈ t.rows, r.claimable now = false := by
  simp [nextClaimable, RowTable.firstBy_eq_none, List.filter_eq_nil_iff]

theorem claimNext_cases {now : Timestamp} {t t' : JobTable} {j : Option Job}
    (h : claimNext now t = .ok (t', j)) :
    (t' = t ∧ j = none ∧ ∀ r ∈ t.rows, r.claimable now = false) ∨
    (∃ r ∈ t.rows, r.claimable now = true ∧
      t.update (fun x => x.id = r.id) (JobRow.claim now) (fun _ => rfl) = .ok t' ∧
      j = some { r.toJob with attempts := r.attempts + 1 }) := by
  unfold claimNext at h
  split at h
  · rename_i hnone
    cases h
    exact Or.inl ⟨rfl, rfl, nextClaimable_eq_none.mp hnone⟩
  · rename_i r hr
    obtain ⟨hmem, hcl⟩ := nextClaimable_mem hr
    split at h
    · cases h
    · rename_i u hu
      cases h
      exact Or.inr ⟨r, hmem, hcl, hu, rfl⟩

theorem claimNext_isOk (now : Timestamp) (t : JobTable) :
    ∃ res, claimNext now t = .ok res := by
  unfold claimNext
  split
  · exact ⟨_, rfl⟩
  · rename_i r hr
    obtain ⟨hmem, hcl⟩ := nextClaimable_mem hr
    have hidx : ∀ x ∈ t.rows, decide (x.id = r.id) = true →
        (x.claim now).activeKey = x.activeKey ∨ (x.claim now).activeKey = none := by
      intro x hx hxr
      have hxr : x = r := List.inj_on_of_nodup_map t.ids_nodup hx hmem (of_decide_eq_true hxr)
      rw [hxr]
      refine Or.inl (JobRow.activeKey_congr rfl rfl ?_ rfl)
      rw [(JobRow.claimable_iff.mp hcl).1]
      rfl
    obtain ⟨t', ht'⟩ := t.update_isOk hidx fun _ => rfl
    rw [ht']
    exact ⟨_, rfl⟩

/-! ## `reclaim_stale_running` -/

def DEFAULT_STALE_RUNNING_SEC : ℤ := 7200
def DEFAULT_RECLAIM_REQUEUE_SEC : ℤ := 600

/-- `status = 'running' AND COALESCE(started_at, created_at, updated_at) < now - sec`. -/
def JobRow.stale (now : Timestamp) (sec : ℤ) (r : JobRow) : Bool :=
  r.status = .running && r.startedAt.getD r.createdAt < now - seconds sec

def reclaimMsg (sec : ℤ) : String :=
  "stale running reclaimed after " ++ toString sec ++
    "s — worker likely restarted mid-job; retried automatically while attempts remain"

def JobRow.reclaim (now : Timestamp) (sec delay : ℤ) (r : JobRow) : JobRow :=
  { r with
    status := if r.attempts < r.maxAttempts then .pending else .failed
    notBefore := if r.attempts < r.maxAttempts then some (now + seconds delay) else none
    errorCategory := some "stale"
    result := some (.obj [("error", .str (slice (reclaimMsg sec) 2000)),
      ("category", .str "stale")])
    finishedAt := if r.attempts < r.maxAttempts then none else some now
    updatedAt := now }

/-- The ids of the rows a statement's `WHERE` selects (`RETURNING id`). -/
def returningId (p : JobRow → Bool) (t : JobTable) : List ℕ := (t.rows.filter p).map JobRow.id

/-- `reclaim_stale_running`. -/
def reclaimStaleRunning (staleAfterSec requeueDelaySec : ℤ) (now : Timestamp) (t : JobTable) :
    Except DbError (JobTable × List ℕ) :=
  let sec := max 60 staleAfterSec
  let delay := max 0 requeueDelaySec
  match t.update (JobRow.stale now sec) (JobRow.reclaim now sec delay) (fun _ => rfl) with
  | .error e => .error e
  | .ok t' => .ok (t', returningId (JobRow.stale now sec) t)

theorem JobRow.stale_iff {now : Timestamp} {sec : ℤ} {r : JobRow} :
    r.stale now sec = true ↔
      r.status = .running ∧ r.startedAt.getD r.createdAt < now - seconds sec := by
  simp [JobRow.stale]

theorem JobRow.reclaim_activeKey {now : Timestamp} {sec delay : ℤ} {r : JobRow}
    (h : r.status = .running) :
    (r.reclaim now sec delay).activeKey = r.activeKey ∨
      (r.reclaim now sec delay).activeKey = none := by
  by_cases hlt : r.attempts < r.maxAttempts
  · refine Or.inl (JobRow.activeKey_congr rfl rfl ?_ ?_)
    · rw [h]; rfl
    · simp [JobRow.reclaim, hlt, Status.active]
  · apply Or.inr
    apply JobRow.activeKey_final
    simp [JobRow.reclaim, hlt, Status.active]

theorem reclaimStaleRunning_ok {stale requeue : ℤ} {now : Timestamp} {t t' : JobTable}
    {ids : List ℕ} (h : reclaimStaleRunning stale requeue now t = .ok (t', ids)) :
    t.update (JobRow.stale now (max 60 stale))
      (JobRow.reclaim now (max 60 stale) (max 0 requeue)) (fun _ => rfl) = .ok t' := by
  unfold reclaimStaleRunning at h
  simp only at h
  split at h
  · cases h
  · rename_i u hu
    cases h
    exact hu

theorem reclaimStaleRunning_isOk (stale requeue : ℤ) (now : Timestamp) (t : JobTable) :
    ∃ res, reclaimStaleRunning stale requeue now t = .ok res := by
  have hidx : ∀ r ∈ t.rows, r.stale now (max 60 stale) = true →
      (r.reclaim now (max 60 stale) (max 0 requeue)).activeKey = r.activeKey ∨
        (r.reclaim now (max 60 stale) (max 0 requeue)).activeKey = none :=
    fun r _ hr => JobRow.reclaim_activeKey (JobRow.stale_iff.mp hr).1
  obtain ⟨t', ht'⟩ := t.update_isOk hidx fun _ => rfl
  unfold reclaimStaleRunning
  simp only [ht']
  exact ⟨_, rfl⟩

/-! ## `mark_done`, `mark_retry`, `mark_failed` -/

def JobRow.markDone (now : Timestamp) (result : Dict) (r : JobRow) : JobRow :=
  { r with
    status := .done
    result := some (.obj result)
    errorCategory := none
    finishedAt := some now
    updatedAt := now }

/-- `mark_done`: the row is selected by its id only. -/
def markDone (now : Timestamp) (jobId : ℕ) (result : Dict) (t : JobTable) :
    Except DbError JobTable :=
  t.update (fun r => r.id = jobId) (JobRow.markDone now result) (fun _ => rfl)

def JobRow.markRetry (now : Timestamp) (error category : String) (delaySec : ℤ) (r : JobRow) :
    JobRow :=
  { r with
    status := .pending
    notBefore := some (now + seconds delaySec)
    errorCategory := some category
    result := some (.obj [("error", .str (slice error 2000)), ("category", .str category),
      ("retry_after_sec", .int delaySec)])
    finishedAt := none
    updatedAt := now }

/-- `mark_retry`: back to `pending`, by id only. -/
def markRetry (now : Timestamp) (jobId : ℕ) (error category : String) (delaySec : ℤ)
    (t : JobTable) : Except DbError JobTable :=
  t.update (fun r => r.id = jobId) (JobRow.markRetry now error category delaySec) (fun _ => rfl)

def JobRow.markFailed (now : Timestamp) (error : String) (category : Option String)
    (r : JobRow) : JobRow :=
  { r with
    status := .failed
    errorCategory := category
    result := some (.obj [("error", .str (slice error 2000)),
      ("category", match category with | none => .null | some c => .str c)])
    finishedAt := some now
    updatedAt := now }

/-- `mark_failed`, by id only. -/
def markFailed (now : Timestamp) (jobId : ℕ) (error : String) (category : Option String)
    (t : JobTable) : Except DbError JobTable :=
  t.update (fun r => r.id = jobId) (JobRow.markFailed now error category) (fun _ => rfl)

theorem markDone_isOk (now : Timestamp) (k : ℕ) (result : Dict) (t : JobTable) :
    ∃ t', markDone now k result t = .ok t' :=
  t.update_isOk (fun _ _ _ => Or.inr (JobRow.activeKey_final rfl)) _

theorem markFailed_isOk (now : Timestamp) (k : ℕ) (error : String) (category : Option String)
    (t : JobTable) : ∃ t', markFailed now k error category t = .ok t' :=
  t.update_isOk (fun _ _ _ => Or.inr (JobRow.activeKey_final rfl)) _

theorem markDone_row {now : Timestamp} {k : ℕ} {result : Dict} {t t' : JobTable} {r : JobRow}
    (h : markDone now k result t = .ok t') (hr : t.row k = some r) :
    t'.row k = some (r.markDone now result) := by
  rw [JobTable.row_update h, hr, Option.map_some, if_pos (decide_eq_true (JobTable.row_some hr).2)]

theorem markFailed_row {now : Timestamp} {k : ℕ} {error : String} {category : Option String}
    {t t' : JobTable} {r : JobRow} (h : markFailed now k error category t = .ok t')
    (hr : t.row k = some r) : t'.row k = some (r.markFailed now error category) := by
  rw [JobTable.row_update h, hr, Option.map_some, if_pos (decide_eq_true (JobTable.row_some hr).2)]

/-- Sending a job back to `pending` takes no new index entry as long as its row is active. -/
theorem markRetry_isOk {now : Timestamp} {k : ℕ} {error category : String} {delay : ℤ}
    {t : JobTable} (h : ∀ r, t.row k = some r → r.status.active = true) :
    ∃ t', markRetry now k error category delay t = .ok t' := by
  apply t.update_isOk
  intro r hr hk
  refine Or.inl (JobRow.activeKey_congr rfl rfl ?_ rfl)
  apply h
  rw [← of_decide_eq_true hk]
  exact JobTable.row_mem hr

/-! ## `defer_pending` -/

/-- `status = 'pending' AND (exclude_id IS NULL OR id <> exclude_id)`. -/
def JobRow.deferred (excludeId : Option ℕ) (r : JobRow) : Bool :=
  r.status = .pending && excludeId.all (r.id ≠ ·)

/-- `GREATEST(COALESCE(not_before, now), now + delay)`. -/
def JobRow.defer (now : Timestamp) (delaySec : ℤ) (r : JobRow) : JobRow :=
  { r with
    notBefore := some (max (r.notBefore.getD now) (now + seconds delaySec))
    updatedAt := now }

/-- `defer_pending`. -/
def deferPending (now : Timestamp) (delaySec : ℤ) (excludeId : Option ℕ) (t : JobTable) :
    Except DbError (JobTable × List ℕ) :=
  match t.update (JobRow.deferred excludeId) (JobRow.defer now delaySec) (fun _ => rfl) with
  | .error e => .error e
  | .ok t' => .ok (t', returningId (JobRow.deferred excludeId) t)

theorem JobRow.deferred_iff {k : ℕ} {r : JobRow} :
    r.deferred (some k) = true ↔ r.status = .pending ∧ r.id ≠ k := by
  simp [JobRow.deferred]

theorem deferPending_ok {now : Timestamp} {delay : ℤ} {exclude : Option ℕ} {t t' : JobTable}
    {ids : List ℕ} (h : deferPending now delay exclude t = .ok (t', ids)) :
    t.update (JobRow.deferred exclude) (JobRow.defer now delay) (fun _ => rfl) = .ok t' := by
  unfold deferPending at h
  split at h
  · cases h
  · rename_i u hu
    cases h
    exact hu

theorem deferPending_isOk (now : Timestamp) (delay : ℤ) (exclude : Option ℕ) (t : JobTable) :
    ∃ res, deferPending now delay exclude t = .ok res := by
  have hidx : ∀ r ∈ t.rows, r.deferred exclude = true →
      (r.defer now delay).activeKey = r.activeKey ∨ (r.defer now delay).activeKey = none :=
    fun _ _ _ => Or.inl rfl
  obtain ⟨t', ht'⟩ := t.update_isOk hidx fun _ => rfl
  unfold deferPending
  rw [ht']
  exact ⟨_, rfl⟩

end FlexQuery
