import FlexQuery.Api.RunNow
import FlexQuery.Scheduler.Enqueue

/-!
# The self-check

`assess_kind` of `ops/diagnose.py` over what `collect_check_input` of `api/ops.py` reads from the
queue: one verdict a kind, from its newest job, with the actions that make sense now.

* `latestJob`, `cooldownUntil` — the two queue reads.
* `assessKind` — the verdict.
* `offersRunNow_iff` — a run-now button is enabled exactly for a pending job that waits for
  something other than a throttle **of its own**.
-/

set_option autoImplicit false

namespace FlexQuery

/-- The freshness columns a verdict shows. -/
structure Freshness where
  latestTs : Option Timestamp
  processedRows : Option ℤ
  newRows : Option ℤ

structure KindInput where
  kind : String
  job : Option JobRow
  freshness : Option Freshness
  plannedLast : Option Timestamp
  plannedNext : Option Timestamp
  maxAttempts : ℕ

/-- The part of `CheckInput` that `assess_kind` reads; the poll interval in whole seconds. -/
structure CheckInput where
  now : Timestamp
  tz : Option String
  graceSec : ℤ
  cooldownUntil : Option Timestamp := none
  catchupEnabled : Bool := true
  workerPollSec : ℤ := 5

structure OpsAction where
  id : String
  label : String
  method : String
  path : String
  /-- The slot in the body, for the actions that have one. -/
  slot : Option String := none
  enabled : Bool := true
  reason : Option String := none
  deriving DecidableEq, Repr

inductive Verdict where
  | failed
  | missed
  | throttled
  | waiting
  | running
  | queued
  | ok
  | idle
  deriving DecidableEq, Repr

structure KindVerdict where
  kind : String
  verdict : Verdict
  headline : String
  detail : Option String := none
  nextAt : Option Timestamp := none
  job : Option JobRow := none
  lastSuccessAt : Option Timestamp := none
  actions : List OpsAction := []

/-! ## Reading the queue -/

/-- `SELECT DISTINCT ON (kind) … ORDER BY kind, id DESC`. -/
def latestJob (t : JobTable) (kind : String) : Option JobRow :=
  RowTable.firstBy (fun a b => b.id < a.id) (t.rows.filter fun r => r.kind = kind)

/-- `SELECT max(not_before) … WHERE status = 'pending' AND error_category = 'throttled' AND
not_before > now`. -/
def cooldownUntil (now : Timestamp) (t : JobTable) : Option Timestamp :=
  ((t.rows.filter fun r => r.status = .pending && r.coolingDown now).filterMap
    JobRow.notBefore).max?

/-- What `collect_check_input` reads elsewhere: freshness rows, planned fires, settings. -/
structure CheckEnv where
  freshness : String → Option Freshness
  plannedLast : String → Option Timestamp
  plannedNext : String → Option Timestamp
  slots : String → SlotConfig
  tz : Option String
  graceSec : ℤ
  catchupEnabled : Bool
  workerPollSec : ℤ

/-- `collect_check_input`: one `KindInput` for each slot. -/
def collectCheckInput (env : CheckEnv) (now : Timestamp) (t : JobTable) :
    CheckInput × List KindInput :=
  ({ now := now
     tz := env.tz
     graceSec := env.graceSec
     cooldownUntil := cooldownUntil now t
     catchupEnabled := env.catchupEnabled
     workerPollSec := env.workerPollSec },
    SLOT_NAMES.map fun slot =>
      { kind := slotKind slot
        job := latestJob t (slotKind slot)
        freshness := env.freshness (slotKind slot)
        plannedLast := env.plannedLast slot
        plannedNext := env.plannedNext slot
        maxAttempts := (env.slots slot).budget })

theorem latestJob_mem {t : JobTable} {kind : String} {r : JobRow}
    (h : latestJob t kind = some r) : r ∈ t.rows :=
  (List.mem_filter.mp (RowTable.firstBy_mem h)).1

/-! ## Texts -/

/-- `_job_error`: what the code stores under `error` is always a text. -/
def jobError (r : JobRow) : String :=
  match r.result with
  | some (.obj fields) =>
    match Dict.get fields "error" with
    | some (.str e) => e
    | _ => ""
  | _ => ""

/-- `msg.split()`. -/
def words (s : String) : List String :=
  ((s.toList.splitBy fun a b => isSpace a = isSpace b).filter fun g =>
    !g.any isSpace).map String.ofList

/-- `_short`. -/
def short (msg : String) (n : ℕ) : String :=
  let msg := " ".intercalate (words msg)
  if msg.length ≤ n then msg else slice msg (n - 1) ++ "…"

/-- `_short(err) or None`. -/
def shortError (err : String) : Option String := orNone (short err 220)

/-! ## Verdicts -/

section Assess
variable (fmtLocal : FmtLocal)

/-- `_enqueue_action`. -/
def enqueueAction (kind label : String) (inp : CheckInput) : OpsAction :=
  let a : OpsAction :=
    { id := "enqueue", label := label, method := "POST", path := "/flex/ingest/enqueue",
      slot := some kind }
  if inp.cooldownUntil.any (inp.now < ·) then
    { a with
      enabled := false
      reason := some ("IB throttle cooldown until " ++ fmtLocal inp.cooldownUntil inp.tz) }
  else a

/-- `_missed_plan`. -/
def missedPlan (k : KindInput) (inp : CheckInput) : Bool :=
  match k.plannedLast with
  | none => false
  | some planned =>
    let age := inp.now - planned
    if age < seconds inp.graceSec ∨ age > seconds 86400 then false
    else
      match k.job with
      | none => true
      | some job => job.createdAt < planned

/-- `_missed_verdict`. -/
def missedVerdict (k : KindInput) (inp : CheckInput) (tail : String) : KindVerdict where
  kind := k.kind
  verdict := .missed
  headline := "Planned " ++ fmtLocal k.plannedLast inp.tz ++ " came and went with no job" ++
    tail ++ "."
  detail := some (if inp.catchupEnabled then
      "The worker's catch-up enqueues it on its own after the grace period; press Enqueue to do it now."
    else "Catch-up is disabled; enqueue it by hand.")
  actions := [enqueueAction fmtLocal k.kind "Enqueue today's slot" inp]

/-- `(attempt n/m)`. -/
def attemptText (r : JobRow) (m : ℕ) : String := toString r.attempts ++ "/" ++ toString m

/-- The action that skips a deferred job's wait. -/
def runNowAction (r : JobRow) : OpsAction where
  id := "run_now"
  label := "Run now"
  method := "POST"
  path := "/flex/ingest/jobs/" ++ toString r.id ++ "/run-now"

/-- The pending branch of `assess_kind`. -/
def assessPending (k : KindInput) (inp : CheckInput) (job : JobRow) (maxAttempts : ℕ) :
    KindVerdict :=
  let category := job.errorCategory.getD ""
  let attempt := " (attempt " ++ attemptText job maxAttempts ++ ")."
  if job.notBefore.any (inp.now < ·) then
    if category = "throttled" then
      { kind := k.kind
        verdict := .throttled
        headline := "IB throttled the token; cooling down until " ++
          fmtLocal job.notBefore inp.tz ++ attempt
        detail := shortError (jobError job)
        nextAt := job.notBefore
        actions := [{ runNowAction job with
          enabled := false
          reason := some ("IB refused the token ([1018]); a request before " ++
            fmtLocal job.notBefore inp.tz ++ " fails again") }] }
    else
      { kind := k.kind
        verdict := .waiting
        headline := (if category = "not_ready" then "IB has not generated the statement yet"
            else if category ≠ "" then category else "retry scheduled") ++
          "; the worker retries at " ++ fmtLocal job.notBefore inp.tz ++ attempt
        detail := shortError (jobError job)
        nextAt := job.notBefore
        actions := [runNowAction job] }
  else
    { kind := k.kind
      verdict := .queued
      headline := "Queued; the worker claims it within " ++ toString inp.workerPollSec ++ "s." }

/-- The failed branch of `assess_kind`. -/
def assessFailed (k : KindInput) (inp : CheckInput) (job : JobRow) (maxAttempts : ℕ) :
    KindVerdict :=
  let category := job.errorCategory.getD ""
  if category = "config" then
    { kind := k.kind
      verdict := .failed
      headline := "Failed on configuration — retrying cannot fix this."
      detail := shortError (jobError job)
      actions := [{
        id := "fix_config"
        label := "Fix config, then enqueue"
        method := "POST"
        path := "/flex/ingest/enqueue"
        slot := some k.kind
        enabled := false
        reason := some ("Expired/invalid token: generate a new one in IB Account Management " ++
          "and run make sync-flex-tokens; bad query id: Config tab") }] }
  else
    { kind := k.kind
      verdict := .failed
      headline := "Failed for good at " ++ fmtLocal job.finishedAt inp.tz ++ " (" ++
        (if category ≠ "" then category else "error") ++ ", " ++ attemptText job maxAttempts ++
        " attempts)."
      detail := shortError (jobError job)
      actions := [enqueueAction fmtLocal k.kind "Enqueue again" inp] }

/-- The done branch of `assess_kind`. -/
def assessDone (k : KindInput) (inp : CheckInput) (job : JobRow) : KindVerdict :=
  if missedPlan k inp then
    missedVerdict fmtLocal k inp ("; last run was " ++ fmtLocal (some job.createdAt) inp.tz)
  else
    let rows :=
      match k.freshness.bind Freshness.processedRows with
      | none => ""
      | some processed =>
        ", " ++ toString processed ++ " rows" ++
          match k.freshness.bind Freshness.newRows with
          | none => ""
          | some new => " (" ++ toString new ++ " new)"
    { kind := k.kind
      verdict := .ok
      headline := "Completed " ++ fmtLocal job.finishedAt inp.tz ++ rows ++ "; next planned " ++
        fmtLocal k.plannedNext inp.tz ++ "."
      nextAt := k.plannedNext }

/-- `assess_kind`, before `with_job`. -/
def assessJob (k : KindInput) (inp : CheckInput) : KindVerdict :=
  match k.job with
  | none =>
    if missedPlan k inp then missedVerdict fmtLocal k inp ""
    else
      { kind := k.kind
        verdict := .idle
        headline := "Never ran."
        detail := some ("Next planned " ++ fmtLocal k.plannedNext inp.tz ++ ".")
        nextAt := k.plannedNext
        actions := [enqueueAction fmtLocal k.kind "Enqueue now" inp] }
  | some job =>
    let maxAttempts := if job.maxAttempts = 0 then k.maxAttempts else job.maxAttempts
    match job.status with
    | .running =>
      { kind := k.kind
        verdict := .running
        headline := "Running since " ++ fmtLocal job.startedAt inp.tz ++ " (attempt " ++
          attemptText job maxAttempts ++ ")."
        detail := some ("An IB fetch takes seconds to a few minutes; a run older than two hours " ++
          "is reclaimed automatically.") }
    | .pending => assessPending fmtLocal k inp job maxAttempts
    | .failed => assessFailed fmtLocal k inp job maxAttempts
    | .done => assessDone fmtLocal k inp job

/-- `assess_kind`. -/
def assessKind (k : KindInput) (inp : CheckInput) : KindVerdict :=
  { assessJob fmtLocal k inp with
    job := k.job
    lastSuccessAt := k.freshness.bind Freshness.latestTs }

/-! ## The run-now button -/

/-- The verdict offers a run-now button that can be pressed. -/
def OffersRunNow (v : KindVerdict) : Prop := ∃ a ∈ v.actions, a.id = "run_now" ∧ a.enabled = true

theorem enqueueAction_id (kind label : String) (inp : CheckInput) :
    (enqueueAction fmtLocal kind label inp).id = "enqueue" := by
  unfold enqueueAction
  simp only
  split <;> rfl

/-- Only the pending branch has a run-now button. -/
theorem offersRunNow_pending {k : KindInput} {inp : CheckInput}
    (h : OffersRunNow (assessKind fmtLocal k inp)) :
    ∃ job, k.job = some job ∧ job.status = .pending := by
  have hne : ∀ label, (enqueueAction fmtLocal k.kind label inp).id ≠ "run_now" := by
    intro label
    rw [enqueueAction_id]
    decide
  have hmissed : ∀ tail, ¬ OffersRunNow (missedVerdict fmtLocal k inp tail) := by
    rintro tail ⟨a, ha, hid, _⟩
    rw [List.mem_singleton.mp ha] at hid
    exact hne _ hid
  replace h : OffersRunNow (assessJob fmtLocal k inp) := h
  unfold assessJob at h
  split at h
  · split at h
    · exact absurd h (hmissed _)
    · obtain ⟨a, ha, hid, _⟩ := h
      rw [List.mem_singleton.mp ha] at hid
      exact absurd hid (hne _)
  · rename_i job hjob
    refine ⟨job, hjob, ?_⟩
    cases hst : job.status with
    | pending => rfl
    | running =>
      rw [hst] at h
      obtain ⟨a, ha, _⟩ := h
      cases ha
    | failed =>
      rw [hst] at h
      simp only [assessFailed] at h
      split at h
      · obtain ⟨a, ha, hid, _⟩ := h
        rw [List.mem_singleton.mp ha] at hid
        simp at hid
      · obtain ⟨a, ha, hid, _⟩ := h
        rw [List.mem_singleton.mp ha] at hid
        exact absurd hid (hne _)
    | done =>
      rw [hst] at h
      simp only [assessDone] at h
      split at h
      · exact absurd h (hmissed _)
      · obtain ⟨a, ha, _⟩ := h
        cases ha

theorem offersRunNow_assessPending {k : KindInput} {inp : CheckInput} {job : JobRow} {m : ℕ} :
    OffersRunNow (assessPending fmtLocal k inp job m) ↔
      job.notBefore.any (inp.now < ·) = true ∧ job.errorCategory ≠ some "throttled" := by
  have hcat : job.errorCategory.getD "" = "throttled" ↔ job.errorCategory = some "throttled" := by
    cases job.errorCategory <;> simp
  unfold assessPending
  simp only [hcat]
  split
  · rename_i hnb
    split
    · rename_i hthr
      simp [OffersRunNow, hthr]
    · rename_i hthr
      simp [OffersRunNow, runNowAction, hnb, hthr]
  · rename_i hnb
    simp [OffersRunNow, hnb]

/-- **The run-now button** is enabled exactly for a pending newest job that still waits and whose
own category is not `throttled`. -/
theorem offersRunNow_iff {k : KindInput} {inp : CheckInput} :
    OffersRunNow (assessKind fmtLocal k inp) ↔
      ∃ job, k.job = some job ∧ job.status = .pending ∧
        job.notBefore.any (inp.now < ·) = true ∧ job.errorCategory ≠ some "throttled" := by
  have hpending : ∀ job, k.job = some job → job.status = .pending →
      (OffersRunNow (assessKind fmtLocal k inp) ↔
        job.notBefore.any (inp.now < ·) = true ∧ job.errorCategory ≠ some "throttled") := by
    intro job hjob hst
    show OffersRunNow (assessJob fmtLocal k inp) ↔ _
    simp only [assessJob, hjob, hst]
    exact offersRunNow_assessPending fmtLocal
  constructor
  · intro h
    obtain ⟨job, hjob, hst⟩ := offersRunNow_pending fmtLocal h
    exact ⟨job, hjob, hst, (hpending job hjob hst).mp h⟩
  · rintro ⟨job, hjob, hst, h⟩
    exact (hpending job hjob hst).mpr h

end Assess

end FlexQuery
