import FlexQuery.Worker.Claim
import FlexQuery.Worker.Retry

/-!
# The write routes that touch one job

* `runJobNow` — `run_job_now` of `api/ingest.py`: clear `not_before` of a pending job, unless the
  job itself is cooling down from a throttle.  Reading the row and updating it are one step.
* `auditFinish` — `_audit_finish` of `api/manual_ops.py`: the outcome of a manual run, recorded
  with the same statements a worker uses.

`runJobNow_refused` says exactly when a pending job is refused.
-/

set_option autoImplicit false

namespace FlexQuery

/-- `HTTPException`. -/
structure HttpError where
  statusCode : ℕ
  detail : String
  deriving DecidableEq, Repr

/-- `fmt_local`: a time as the reader's clock shows it, in an optional zone. -/
abbrev FmtLocal := Option Timestamp → Option String → String

/-- What `run_job_now` answers. -/
structure RunNowResponse where
  jobId : ℕ
  kind : String
  wasNotBefore : Option Timestamp
  message : String

/-- `row["error_category"] == "throttled" and nb is not None and nb > now`. -/
def JobRow.coolingDown (now : Timestamp) (r : JobRow) : Bool :=
  r.errorCategory = some "throttled" && r.notBefore.any (now < ·)

def JobRow.clearNotBefore (now : Timestamp) (r : JobRow) : JobRow :=
  { r with notBefore := none, updatedAt := now }

/-- `run_job_now`. -/
def runJobNow (fmtLocal : FmtLocal) (tz : Option String) (now : Timestamp) (jobId : ℕ)
    (force : Bool) (t : JobTable) : Except HttpError (JobTable × RunNowResponse) :=
  match t.row jobId with
  | none => .error ⟨404, "job " ++ toString jobId ++ " not found"⟩
  | some r =>
    if r.status ≠ .pending then
      .error ⟨409, "job " ++ toString jobId ++ " is " ++ r.status.text ++
        ", only a pending job can run now"⟩
    else if r.coolingDown now && !force then
      .error ⟨409, "IB throttled this token; a request before " ++ fmtLocal r.notBefore tz ++
        " fails again (force=true overrides)"⟩
    else
      match t.update (fun x => x.id = jobId && x.status = .pending) (JobRow.clearNotBefore now)
          (fun _ => rfl) with
      | .error _ => .error ⟨500, "Internal Server Error"⟩
      | .ok t' =>
        .ok (t', {
          jobId := jobId
          kind := r.kind
          wasNotBefore := r.notBefore
          message := "cleared not_before; the worker claims it on its next poll" })

theorem JobRow.coolingDown_iff {now : Timestamp} {r : JobRow} :
    r.coolingDown now = true ↔
      r.errorCategory = some "throttled" ∧ ∃ nb, r.notBefore = some nb ∧ now < nb := by
  simp only [JobRow.coolingDown, Bool.and_eq_true, decide_eq_true_eq]
  cases r.notBefore <;> simp

theorem runJobNow_ok {fmtLocal : FmtLocal} {tz : Option String} {now : Timestamp} {k : ℕ}
    {force : Bool} {t t' : JobTable} {res : RunNowResponse}
    (h : runJobNow fmtLocal tz now k force t = .ok (t', res)) :
    t.update (fun x => x.id = k && x.status = .pending) (JobRow.clearNotBefore now)
      (fun _ => rfl) = .ok t' ∧
    ∃ r, t.row k = some r ∧ r.status = .pending ∧ (force = false → r.coolingDown now = false) := by
  unfold runJobNow at h
  split at h
  · cases h
  · rename_i r hr
    split at h
    · cases h
    · rename_i hst
      split at h
      · cases h
      · rename_i hcool
        split at h
        · cases h
        · rename_i u hu
          cases h
          refine ⟨hu, r, hr, by simpa using hst, ?_⟩
          intro hf
          simpa [hf] using hcool

/-- A pending job is refused, with 409, exactly when its own row says it is cooling down. -/
theorem runJobNow_refused {fmtLocal : FmtLocal} {tz : Option String} {now : Timestamp} {k : ℕ}
    {t : JobTable} {r : JobRow} (hr : t.row k = some r) (hst : r.status = .pending) :
    (∃ detail, runJobNow fmtLocal tz now k false t = .error ⟨409, detail⟩) ↔
      r.coolingDown now = true := by
  have hidx : ∀ x ∈ t.rows, (decide (x.id = k) && decide (x.status = .pending)) = true →
      (x.clearNotBefore now).activeKey = x.activeKey ∨ (x.clearNotBefore now).activeKey = none :=
    fun _ _ _ => Or.inl rfl
  obtain ⟨t', ht'⟩ := t.update_isOk hidx fun _ => rfl
  unfold runJobNow
  simp only [hr, hst, ht']
  cases r.coolingDown now <;> simp

/-! ## Manual runs -/

/-- What a synchronous run hands to `_audit_finish`. -/
structure ManualResult where
  ok : Bool
  errors : List String
  error : Option String
  processed : ℤ
  summary : Dict

/-- The errors that say something. -/
def ManualResult.said (r : ManualResult) : List String := r.errors.filter (strip · ≠ "")

/-- `str(result.get("error") or "; ".join(errors) or "manual run failed")`. -/
def ManualResult.errorText (r : ManualResult) : String :=
  ([r.error.getD "", "; ".intercalate r.said].find? (· ≠ "")).getD "manual run failed"

/-- `_audit_finish`: done when the run says ok and every configured query answered. -/
def auditFinish (now : Timestamp) (jobId : ℕ) (res : ManualResult) (t : JobTable) :
    Except DbError JobTable :=
  if res.ok && res.said.isEmpty then
    markDone now jobId
      [("inserted", .int res.processed), ("ok", .bool true), ("result", .obj res.summary)] t
  else
    markFailed now jobId res.errorText (some (classifyFlexError res.errorText).value) t

/-- A manual run ends as `done` or as `failed`. -/
theorem auditFinish_cases {now : Timestamp} {k : ℕ} {res : ManualResult} {t t' : JobTable}
    (h : auditFinish now k res t = .ok t') :
    (∃ result, markDone now k result t = .ok t') ∨
      ∃ error category, markFailed now k error category t = .ok t' := by
  unfold auditFinish at h
  split at h
  · exact Or.inl ⟨_, h⟩
  · exact Or.inr ⟨_, _, h⟩

theorem auditFinish_isOk (now : Timestamp) (k : ℕ) (res : ManualResult) (t : JobTable) :
    ∃ t', auditFinish now k res t = .ok t' := by
  unfold auditFinish
  split
  · exact markDone_isOk now k _ t
  · exact markFailed_isOk now k _ _ t

end FlexQuery
