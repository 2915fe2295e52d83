import FlexQuery.Ops.Missed

/-!
# The whole self-check

`diagnose`, over the verdicts of the kinds and the checks beside them.

* `checks` — tokens, worker, cooldown, schedule, data and coverage.
* `worst` — the verdict that ranks first among those of the kinds.
* `nextStep` — what to do about it; it looks up the first kind with that verdict.
* `diagnose_verdict` — when the answer is green, and that the look-up never fails.
-/

set_option autoImplicit false

namespace FlexQuery

/-! ## What is read -/

/-- The heartbeat row as the self-check reads it. -/
structure HeartbeatInput where
  seenAt : Option Timestamp
  pod : Option String
  version : Option String
  jobsDone : ℕ
  jobsRetried : ℕ
  jobsFailed : ℕ
  dbReconnects : ℕ
  catchups : ℕ

structure TokensInput where
  host : Bool
  secondary : Bool
  issuedAt : Option String
  ageDays : Option ℤ

/-- An account and a month with executions and no cash transactions. -/
structure CoverageGap where
  accountId : String
  month : String
  deriving DecidableEq, Repr

/-- `read_coverage`'s answer. -/
structure Coverage where
  accounts : List String
  gaps : List CoverageGap

/-- `CheckInput`, all of it. -/
structure SelfCheckInput extends CheckInput where
  kinds : List KindInput
  heartbeat : Option HeartbeatInput
  tokens : TokensInput
  dataLatest : List (String × Option Timestamp)
  coverage : Option Coverage := none
  coverageError : Option String := none

def HEARTBEAT_STALE_SEC : ℤ := 180

/-! ## The checks -/

structure Check where
  id : String
  ok : Bool
  detail : String
  gaps : List CoverageGap := []
  deriving DecidableEq, Repr

def tokensCheck (t : TokensInput) : Check :=
  if !t.host && !t.secondary then
    { id := "tokens"
      ok := false
      detail := "No Flex token in Secret bifrost-flex-tokens — run make sync-flex-tokens." }
  else
    let issued :=
      match t.issuedAt.bind orNone with
      | some date => ", issued " ++ date ++ " (" ++ (t.ageDays.map toString).getD "None" ++ "d ago)"
      | none => ", issue date unknown"
    let warn := t.ageDays.any (335 < ·)
    let sides := "+".intercalate
      ((if t.host then ["host"] else []) ++ if t.secondary then ["secondary"] else [])
    { id := "tokens"
      ok := !warn
      detail := sides ++ " from Secret" ++ issued ++
        if warn then " — IB expires tokens after a year, rotate soon." else "" }

/-- `hb.get(k) or '?'`. -/
def orUnknown (s : Option String) : String := (s.bind orNone).getD "?"

def workerCheck (now : Timestamp) (heartbeat : Option HeartbeatInput) : Check :=
  match heartbeat.bind fun hb => hb.seenAt.map (hb, ·) with
  | none =>
    { id := "worker"
      ok := false
      detail := "Worker has never reported in — is flex-query-worker running on 0.6.1+?" }
  | some (hb, seen) =>
    let silent := now - seen
    let ok : Bool := silent ≤ seconds HEARTBEAT_STALE_SEC
    { id := "worker"
      ok := ok
      detail :=
        if ok then
          "worker alive, seen " ++ toString (silent.tdiv (seconds 1)) ++ "s ago (pod " ++
            orUnknown hb.pod ++ ", v" ++ orUnknown hb.version ++ ", done " ++
            toString hb.jobsDone ++ " / retried " ++ toString hb.jobsRetried ++ " / failed " ++
            toString hb.jobsFailed ++ ", db reconnects " ++ toString hb.dbReconnects ++
            ", catch-ups " ++ toString hb.catchups ++ ")"
        else
          "worker silent for " ++ toString (silent / seconds 60) ++ " min (last pod " ++
            orUnknown hb.pod ++ ") — check flex-query-worker." }

/-- `coverage_check`. -/
def coverageCheck (coverage : Option Coverage) (error : Option String) : Check :=
  match error.bind orNone with
  | some e => { id := "coverage", ok := false, detail := "Cash-ledger coverage unreadable: " ++ e }
  | none =>
    let gaps := (coverage.map Coverage.gaps).getD []
    if gaps = [] then
      { id := "coverage"
        ok := true
        detail := "Cash transactions present in every closed month with executions (" ++
          toString ((coverage.map Coverage.accounts).getD []).length ++ " account(s))." }
    else
      let accounts := (gaps.map CoverageGap.accountId).eraseDups.mergeSort
      let parts := accounts.map fun a =>
        a ++ ": " ++ ", ".intercalate
          ((gaps.filter fun g => g.accountId = a).map CoverageGap.month)
      { id := "coverage"
        ok := false
        detail := toString gaps.length ++
          " account-month(s) have executions but no cash transactions — " ++
          "; ".intercalate parts ++
          ". Backfill with a flex-transactions job whose payload sets from_date/to_date."
        gaps := gaps }

section
variable (fmtLocal : FmtLocal)

def cooldownCheck (inp : SelfCheckInput) : Check :=
  if inp.cooldownUntil.any (inp.now < ·) then
    { id := "cooldown"
      ok := false
      detail := "IB throttle cooldown until " ++ fmtLocal inp.cooldownUntil inp.tz ++
        " — no request before then." }
  else { id := "cooldown", ok := true, detail := "No IB throttle cooldown." }

def scheduleCheck (inp : SelfCheckInput) : Check where
  id := "schedule"
  ok := true
  detail := "Trigger: Dagster research_flex_morning_schedule; next planned " ++
    (match (inp.kinds.filterMap KindInput.plannedNext).min? with
      | none => "—"
      | some next => fmtLocal (some next) inp.tz) ++
    if inp.catchupEnabled then
      "; worker catch-up " ++ toString (inp.graceSec / 60) ++ " min after a missed slot"
    else "; catch-up disabled"

/-- A table with nothing in it is stale, and the raw executions are after a week. -/
def dataStale (now : Timestamp) (e : String × Option Timestamp) : Bool :=
  match e.2 with
  | none => true
  | some d => e.1 = "executions_raw_flex" && seconds (7 * 86400) < now - d

def dataCheck (inp : SelfCheckInput) : Check where
  id := "data"
  ok := !inp.dataLatest.any (dataStale inp.now)
  detail := (orNone ("; ".intercalate (inp.dataLatest.map fun e =>
    e.1 ++ ": " ++ match e.2 with
      | none => "none"
      | some d => fmtLocal (some d) inp.tz))).getD "—"

/-- `_checks`. -/
def checks (inp : SelfCheckInput) : List Check :=
  [ tokensCheck inp.tokens, workerCheck inp.now inp.heartbeat, cooldownCheck fmtLocal inp,
    scheduleCheck fmtLocal inp, dataCheck fmtLocal inp ] ++
    if inp.coverage.isSome || (inp.coverageError.bind orNone).isSome then
      [coverageCheck inp.coverage inp.coverageError]
    else []

end

/-! ## The ranking -/

def Verdict.name : Verdict → String
  | failed => "failed"
  | missed => "missed"
  | throttled => "throttled"
  | waiting => "waiting"
  | running => "running"
  | queued => "queued"
  | ok => "ok"
  | idle => "idle"

/-- What the self-check says as a whole. -/
inductive Overall where
  | kind (v : Verdict)
  | attention
  | unknown
  deriving DecidableEq, Repr

def VERDICT_ORDER : List Overall :=
  [ .kind .failed, .kind .missed, .kind .throttled, .kind .waiting, .kind .running, .kind .queued,
    .kind .ok, .kind .idle, .unknown ]

/-- `_worst`. -/
def worst (verdicts : List Verdict) : Overall :=
  (VERDICT_ORDER.find? fun v => v ∈ verdicts.map Overall.kind).getD .unknown

/-- The place of a verdict in the order, the worst first. -/
def Verdict.rank (v : Verdict) : ℕ := VERDICT_ORDER.idxOf (Overall.kind v)

/-- Nothing needs doing about a kind. -/
def Verdict.quiet : Verdict → Bool
  | ok => true
  | idle => true
  | failed => false
  | missed => false
  | throttled => false
  | waiting => false
  | running => false
  | queued => false

/-! ## The next step -/

section
variable (fmtLocal : FmtLocal)

/-- `first = {v.verdict: v for v in reversed(verdicts)}`. -/
def firstWith (verdicts : List KindVerdict) : Verdict → Option KindVerdict :=
  verdicts.reverse.foldl (fun first v => Function.update first v.verdict (some v)) fun _ => none

/-- `first[v]`. -/
def lookUp (verdicts : List KindVerdict) (v : Verdict) : Except PyExc KindVerdict :=
  match firstWith verdicts v with
  | none => .error (.other "KeyError" ("'" ++ v.name ++ "'"))
  | some k => .ok k

def failedStep (v : KindVerdict) : String :=
  if (v.job.bind JobRow.errorCategory).getD "" = "config" then
    "Fix the configuration for " ++ v.kind ++
      " (see its action), then enqueue; nothing automatic will help."
  else v.kind ++ " exhausted its attempts; enqueue it again (the next planned run will also try)."

def missedStep (inp : SelfCheckInput) (v : KindVerdict) : String :=
  if inp.catchupEnabled then "Enqueue " ++ v.kind ++ " now, or wait for the worker's catch-up."
  else "Enqueue " ++ v.kind ++ " now."

def throttledStep (inp : SelfCheckInput) (v : KindVerdict) : String :=
  "Do nothing until " ++ fmtLocal v.nextAt inp.tz ++
    "; the worker retries by itself and every request before then fails."

def waitingStep (inp : SelfCheckInput) (v : KindVerdict) : String :=
  "The worker retries " ++ v.kind ++ " at " ++ fmtLocal v.nextAt inp.tz ++
    "; press Run now to skip the wait."

def plannedStep (verdicts : List KindVerdict) (inp : SelfCheckInput) : String :=
  match (verdicts.filterMap KindVerdict.nextAt).min? with
  | none => "Nothing to do."
  | some next => "Nothing to do; next planned run " ++ fmtLocal (some next) inp.tz ++ "."

/-- `_next_step`. -/
def nextStep (overall : Overall) (verdicts : List KindVerdict) (inp : SelfCheckInput) :
    Except PyExc String :=
  match overall with
  | .kind .failed => (lookUp verdicts .failed).map failedStep
  | .kind .missed => (lookUp verdicts .missed).map (missedStep inp)
  | .kind .throttled => (lookUp verdicts .throttled).map (throttledStep fmtLocal inp)
  | .kind .waiting => (lookUp verdicts .waiting).map (waitingStep fmtLocal inp)
  | .kind .running => .ok "A job is in flight; refresh in a minute."
  | .kind .queued => .ok "A job is in flight; refresh in a minute."
  | .kind .ok => .ok (plannedStep fmtLocal verdicts inp)
  | .kind .idle => .ok (plannedStep fmtLocal verdicts inp)
  | .attention => .ok (plannedStep fmtLocal verdicts inp)
  | .unknown => .ok (plannedStep fmtLocal verdicts inp)

/-! ## The answer -/

/-- A job as the answer shows it. -/
structure JobReport where
  id : ℕ
  status : Status
  attempts : ℕ
  maxAttempts : ℕ
  errorCategory : Option String
  notBefore : Option String
  createdAt : Option String
  finishedAt : Option String
  error : Option String
  manual : Bool

structure KindReport where
  kind : String
  verdict : Verdict
  headline : String
  detail : Option String
  nextAt : Option String
  nextInSeconds : Option ℤ
  lastSuccessAt : Option String
  job : Option JobReport
  actions : List OpsAction

structure SelfCheck where
  generatedAt : Option String
  timezone : String
  verdict : Overall
  nextStep : String
  kinds : List KindReport
  checks : List Check

variable (iso : Timestamp → String)

def jobReport (r : JobRow) : JobReport where
  id := r.id
  status := r.status
  attempts := r.attempts
  maxAttempts := r.maxAttempts
  errorCategory := r.errorCategory
  notBefore := r.notBefore.map iso
  createdAt := some (iso r.createdAt)
  finishedAt := r.finishedAt.map iso
  error := orNone (short (jobError r) 500)
  manual := (r.payload.get "manual").any Json.truthy

def kindReport (now : Timestamp) (v : KindVerdict) : KindReport where
  kind := v.kind
  verdict := v.verdict
  headline := v.headline
  detail := v.detail
  nextAt := v.nextAt.map iso
  nextInSeconds := v.nextAt.map fun t => max 0 ((t - now).tdiv (seconds 1))
  lastSuccessAt := v.lastSuccessAt.map iso
  job := v.job.map (jobReport iso)
  actions := v.actions

/-- The verdicts of the kinds. -/
def verdicts (inp : SelfCheckInput) : List KindVerdict :=
  inp.kinds.map fun k => assessKind fmtLocal k inp.toCheckInput

/-- `overall`. -/
def overall (inp : SelfCheckInput) : Overall :=
  let worstKind := worst ((verdicts fmtLocal inp).map KindVerdict.verdict)
  if (worstKind = .kind .ok ∨ worstKind = .kind .idle) ∧ (checks fmtLocal inp).any (!·.ok) then
    .attention
  else worstKind

/-- `diagnose`. -/
def diagnose (inp : SelfCheckInput) : Except PyExc SelfCheck :=
  (nextStep fmtLocal (overall fmtLocal inp) (verdicts fmtLocal inp) inp).map fun next =>
    { generatedAt := some (iso inp.now)
      timezone := (inp.tz.bind orNone).getD "UTC"
      verdict := overall fmtLocal inp
      nextStep := next
      kinds := (verdicts fmtLocal inp).map (kindReport iso inp.now)
      checks := checks fmtLocal inp }

end

/-! ## The worst verdict -/

theorem idxOf_find?_le {α : Type} [DecidableEq α] {l : List α} {p : α → Bool} {a b : α}
    (ha : l.find? p = some a) (hb : p b = true) : l.idxOf a ≤ l.idxOf b := by
  induction l with
  | nil => cases ha
  | cons x xs ih =>
    cases hx : p x with
    | true =>
      rw [List.find?_cons_of_pos hx, Option.some.injEq] at ha
      rw [ha, List.idxOf_cons_self]
      exact Nat.zero_le _
    | false =>
      have hne : ∀ c, p c = true → x ≠ c := by
        rintro c hc rfl
        rw [hx] at hc
        cases hc
      rw [List.find?_cons_of_neg (by simp [hx])] at ha
      have hpa : p a = true := List.find?_some ha
      rw [List.idxOf_cons_ne _ (hne a hpa), List.idxOf_cons_ne _ (hne b hb)]
      exact Nat.succ_le_succ (ih ha)

theorem mem_verdictOrder (v : Verdict) : Overall.kind v ∈ VERDICT_ORDER := by
  cases v <;> decide

/-- The worst of some verdicts is one of them, and none ranks before it. -/
theorem worst_spec {verdicts : List Verdict} (h : verdicts ≠ []) :
    ∃ v ∈ verdicts, worst verdicts = .kind v ∧ ∀ u ∈ verdicts, v.rank ≤ u.rank := by
  obtain ⟨u, hu⟩ := List.exists_mem_of_ne_nil verdicts h
  have hsome : (VERDICT_ORDER.find? fun o => o ∈ verdicts.map Overall.kind).isSome := by
    rw [List.find?_isSome]
    exact ⟨.kind u, mem_verdictOrder u, by simpa using hu⟩
  obtain ⟨o, ho⟩ := Option.isSome_iff_exists.mp hsome
  have hmem : o ∈ verdicts.map Overall.kind := by simpa using List.find?_some ho
  obtain ⟨v, hv, rfl⟩ := List.mem_map.mp hmem
  refine ⟨v, hv, by rw [worst, ho, Option.getD_some], fun u hu => ?_⟩
  exact idxOf_find?_le ho (by simpa using hu)

theorem worst_nil : worst [] = .unknown := by decide

theorem quiet_rank : ∀ v : Verdict, v.quiet = true ↔ Verdict.queued.rank < v.rank := by
  intro v
  cases v <;> decide

theorem quiet_iff {v : Verdict} : v.quiet = true ↔ v = .ok ∨ v = .idle := by
  cases v <;> simp [Verdict.quiet]

/-- The worst verdict is a quiet one exactly when all are. -/
theorem worst_quiet {verdicts : List Verdict} :
    (worst verdicts = .kind .ok ∨ worst verdicts = .kind .idle) ↔
      verdicts ≠ [] ∧ ∀ v ∈ verdicts, v.quiet = true := by
  by_cases hne : verdicts = []
  · subst hne
    rw [worst_nil]
    simp
  · obtain ⟨v, hv, hworst, hrank⟩ := worst_spec hne
    rw [hworst, Overall.kind.injEq, Overall.kind.injEq, ← quiet_iff]
    constructor
    · intro hquiet
      refine ⟨hne, fun u hu => (quiet_rank u).mpr ?_⟩
      exact lt_of_lt_of_le ((quiet_rank v).mp hquiet) (hrank u hu)
    · intro h
      exact h.2 v hv

/-! ## The look-up -/

/-- The last write of the reversed list is the first entry of the list. -/
theorem firstWith_eq (verdicts : List KindVerdict) (v : Verdict) :
    firstWith verdicts v = verdicts.find? fun k => k.verdict = v := by
  unfold firstWith
  induction verdicts with
  | nil => rfl
  | cons k ks ih =>
    rw [List.reverse_cons, List.foldl_append, List.foldl_cons, List.foldl_nil]
    by_cases hk : k.verdict = v
    · subst hk
      rw [Function.update_self, List.find?_cons_of_pos (by simp)]
    · rw [Function.update_of_ne (Ne.symm hk), ih, List.find?_cons_of_neg (by simpa using hk)]

/-- The first kind with a verdict. -/
def FirstOf (v : Verdict) (verdicts : List KindVerdict) (k : KindVerdict) : Prop :=
  k.verdict = v ∧ ∃ before after, verdicts = before ++ k :: after ∧ ∀ u ∈ before, u.verdict ≠ v

theorem lookUp_ok {verdicts : List KindVerdict} {v : Verdict}
    (h : v ∈ verdicts.map KindVerdict.verdict) :
    ∃ k, lookUp verdicts v = .ok k ∧ FirstOf v verdicts k := by
  obtain ⟨u, hu, hv⟩ := List.mem_map.mp h
  have hsome : (verdicts.find? fun k => k.verdict = v).isSome := by
    rw [List.find?_isSome]
    exact ⟨u, hu, by simpa using hv⟩
  obtain ⟨k, hk⟩ := Option.isSome_iff_exists.mp hsome
  obtain ⟨hverdict, before, after, hlist, hbefore⟩ := List.find?_eq_some_iff_append.mp hk
  refine ⟨k, ?_, by simpa using hverdict, before, after, hlist, fun u hu => ?_⟩
  · unfold lookUp
    rw [firstWith_eq, hk]
  · simpa using hbefore u hu

/-! ## Never falsely green -/

section
variable (fmtLocal : FmtLocal)

/-- A kind is quiet exactly when its newest job, if any, is done and no plan was missed. -/
theorem assessKind_quiet {k : KindInput} {inp : CheckInput} :
    (assessKind fmtLocal k inp).verdict.quiet = true ↔
      missedPlan k inp = false ∧ ∀ job, k.job = some job → job.status = .done := by
  change (assessJob fmtLocal k inp).verdict.quiet = true ↔ _
  unfold assessJob
  cases hjob : k.job with
  | none =>
    cases hmissed : missedPlan k inp <;> simp [missedVerdict, Verdict.quiet]
  | some job =>
    simp only [Option.some.injEq, forall_eq']
    cases hst : job.status with
    | running => exact iff_of_false (by rintro ⟨⟩) (by rintro ⟨_, ⟨⟩⟩)
    | pending =>
      refine iff_of_false ?_ (by rintro ⟨_, ⟨⟩⟩)
      simp only [assessPending]
      split
      · split <;> rintro ⟨⟩
      · rintro ⟨⟩
    | failed =>
      refine iff_of_false ?_ (by rintro ⟨_, ⟨⟩⟩)
      simp only [assessFailed]
      split <;> rintro ⟨⟩
    | done =>
      unfold assessDone
      cases hmissed : missedPlan k inp <;> simp [missedVerdict, Verdict.quiet]

/-- A planned fire between the grace and a day old, and no job created since. -/
def PlanMissed (k : KindInput) (inp : CheckInput) : Prop :=
  ∃ planned, k.plannedLast = some planned ∧ seconds inp.graceSec ≤ inp.now - planned ∧
    inp.now - planned ≤ seconds 86400 ∧ ∀ job, k.job = some job → job.createdAt < planned

/-- What the answer owes the one who reads it. -/
structure Honest (inp : SelfCheckInput) (out : SelfCheck) : Prop where
  green : out.verdict = .kind .ok ∨ out.verdict = .kind .idle ↔
    inp.kinds ≠ [] ∧
      (∀ k ∈ inp.kinds, (assessKind fmtLocal k inp.toCheckInput).verdict.quiet = true) ∧
      ∀ c ∈ out.checks, c.ok = true
  attention : inp.kinds ≠ [] →
    (∀ k ∈ inp.kinds, (assessKind fmtLocal k inp.toCheckInput).verdict.quiet = true) →
    (∃ c ∈ out.checks, c.ok = false) → out.verdict = .attention
  worst : (∃ k ∈ inp.kinds, (assessKind fmtLocal k inp.toCheckInput).verdict.quiet = false) →
    ∃ k ∈ inp.kinds, out.verdict = .kind (assessKind fmtLocal k inp.toCheckInput).verdict ∧
      ∀ k' ∈ inp.kinds, (assessKind fmtLocal k inp.toCheckInput).verdict.rank ≤
        (assessKind fmtLocal k' inp.toCheckInput).verdict.rank
  failed : out.verdict = .kind .failed →
    ∃ v, FirstOf .failed (verdicts fmtLocal inp) v ∧ out.nextStep = failedStep v
  missed : out.verdict = .kind .missed →
    ∃ v, FirstOf .missed (verdicts fmtLocal inp) v ∧ out.nextStep = missedStep inp v
  throttled : out.verdict = .kind .throttled →
    ∃ v, FirstOf .throttled (verdicts fmtLocal inp) v ∧ out.nextStep = throttledStep fmtLocal inp v
  waiting : out.verdict = .kind .waiting →
    ∃ v, FirstOf .waiting (verdicts fmtLocal inp) v ∧ out.nextStep = waitingStep fmtLocal inp v
  busy : ∀ k ∈ inp.kinds, ∀ job, k.job = some job →
    job.status = .pending ∨ job.status = .running ∨ job.status = .failed →
      (assessKind fmtLocal k inp.toCheckInput).verdict.quiet = false
  overdue : ∀ k ∈ inp.kinds, PlanMissed k inp.toCheckInput →
    (assessKind fmtLocal k inp.toCheckInput).verdict.quiet = false

/-- The verdict of the whole, told from the verdicts of the kinds and the checks. -/
theorem overall_cases (inp : SelfCheckInput) :
    let ws := (verdicts fmtLocal inp).map KindVerdict.verdict
    (overall fmtLocal inp = .attention ∧ ws ≠ [] ∧ (∀ v ∈ ws, v.quiet = true) ∧
        ∃ c ∈ checks fmtLocal inp, c.ok = false) ∨
      (overall fmtLocal inp = worst ws ∧
        ((ws ≠ [] ∧ ∀ v ∈ ws, v.quiet = true) → ∀ c ∈ checks fmtLocal inp, c.ok = true)) := by
  intro ws
  have hquiet := @worst_quiet ws
  unfold overall
  simp only
  by_cases hfail : ∃ c ∈ checks fmtLocal inp, c.ok = false
  · have hany : (checks fmtLocal inp).any (fun c => !c.ok) = true := by simpa using hfail
    by_cases hgreen : worst ws = .kind .ok ∨ worst ws = .kind .idle
    · obtain ⟨hne, hall⟩ := hquiet.mp hgreen
      exact Or.inl ⟨if_pos ⟨hgreen, hany⟩, hne, hall, hfail⟩
    · refine Or.inr ⟨if_neg fun h => hgreen h.1, fun h => ?_⟩
      exact absurd (hquiet.mpr h) hgreen
  · push Not at hfail
    have hany : (checks fmtLocal inp).any (fun c => !c.ok) = false := by simpa using hfail
    refine Or.inr ⟨if_neg fun h => ?_, fun _ c hc => by simpa using hfail c hc⟩
    rw [hany] at h
    cases h.2

/-- A step that speaks of the first kind with a verdict. -/
theorem lookUp_map {vs : List KindVerdict} {v : Verdict} (step : KindVerdict → String)
    (h : v ∈ vs.map KindVerdict.verdict) :
    ∃ k, FirstOf v vs k ∧ (lookUp vs v).map step = .ok (step k) := by
  obtain ⟨k, hk, hfirst⟩ := lookUp_ok h
  refine ⟨k, hfirst, ?_⟩
  rw [hk]
  rfl

/-- The next step is found, and where it speaks of a kind, of the first with that verdict. -/
theorem nextStep_ok {whole : Overall} {vs : List KindVerdict} (inp : SelfCheckInput)
    (h : ∀ v, whole = .kind v → v ∈ vs.map KindVerdict.verdict) :
    ∃ text, nextStep fmtLocal whole vs inp = .ok text ∧
      (whole = .kind .failed → ∃ v, FirstOf .failed vs v ∧ text = failedStep v) ∧
      (whole = .kind .missed → ∃ v, FirstOf .missed vs v ∧ text = missedStep inp v) ∧
      (whole = .kind .throttled →
        ∃ v, FirstOf .throttled vs v ∧ text = throttledStep fmtLocal inp v) ∧
      (whole = .kind .waiting →
        ∃ v, FirstOf .waiting vs v ∧ text = waitingStep fmtLocal inp v) := by
  cases whole with
  | attention => exact ⟨_, rfl, by simp⟩
  | unknown => exact ⟨_, rfl, by simp⟩
  | kind v =>
    have hmem := h v rfl
    cases v with
    | failed =>
      obtain ⟨k, hfirst, htext⟩ := lookUp_map failedStep hmem
      exact ⟨failedStep k, htext, by simpa using ⟨k, hfirst, rfl⟩⟩
    | missed =>
      obtain ⟨k, hfirst, htext⟩ := lookUp_map (missedStep inp) hmem
      exact ⟨missedStep inp k, htext, by simpa using ⟨k, hfirst, rfl⟩⟩
    | throttled =>
      obtain ⟨k, hfirst, htext⟩ := lookUp_map (throttledStep fmtLocal inp) hmem
      exact ⟨throttledStep fmtLocal inp k, htext, by simpa using ⟨k, hfirst, rfl⟩⟩
    | waiting =>
      obtain ⟨k, hfirst, htext⟩ := lookUp_map (waitingStep fmtLocal inp) hmem
      exact ⟨waitingStep fmtLocal inp k, htext, by simpa using ⟨k, hfirst, rfl⟩⟩
    | running => exact ⟨_, rfl, by simp⟩
    | queued => exact ⟨_, rfl, by simp⟩
    | ok => exact ⟨_, rfl, by simp⟩
    | idle => exact ⟨_, rfl, by simp⟩

variable (iso : Timestamp → String)

/-- **The self-check is never falsely green**, and always has a next step: it answers, for every
input, and the answer is honest. -/
theorem diagnose_honest (inp : SelfCheckInput) :
    ∃ out, diagnose fmtLocal iso inp = .ok out ∧ Honest fmtLocal inp out := by
  have hws : ∀ P : Verdict → Prop,
      (∀ v ∈ (verdicts fmtLocal inp).map KindVerdict.verdict, P v) ↔
        ∀ k ∈ inp.kinds, P (assessKind fmtLocal k inp.toCheckInput).verdict := by
    intro P
    simp [verdicts]
  have hne : (verdicts fmtLocal inp).map KindVerdict.verdict ≠ [] ↔ inp.kinds ≠ [] := by
    simp [verdicts]
  have hcases := overall_cases fmtLocal inp
  simp only [hws, hne] at hcases
  have hspec := @worst_spec ((verdicts fmtLocal inp).map KindVerdict.verdict)
  have hgreen := @worst_quiet ((verdicts fmtLocal inp).map KindVerdict.verdict)
  rw [hne] at hspec hgreen
  rw [hws] at hgreen
  have hmem : ∀ v, overall fmtLocal inp = .kind v →
      v ∈ (verdicts fmtLocal inp).map KindVerdict.verdict := by
    intro v hv
    rcases hcases with ⟨hatt, _⟩ | ⟨hworst, _⟩
    · rw [hatt] at hv
      cases hv
    · by_cases hkinds : inp.kinds = []
      · rw [hworst, show (verdicts fmtLocal inp).map KindVerdict.verdict = [] by
          simp [verdicts, hkinds], worst_nil] at hv
        cases hv
      · obtain ⟨u, hu, hkind, _⟩ := hspec hkinds
        rw [hworst, hkind, Overall.kind.injEq] at hv
        rwa [← hv]
  obtain ⟨text, htext, hfailed, hmissed, hthrottled, hwaiting⟩ := nextStep_ok fmtLocal inp hmem
  refine ⟨_, by rw [diagnose, htext]; rfl, ?_⟩
  constructor
  case green =>
    show overall fmtLocal inp = .kind .ok ∨ overall fmtLocal inp = .kind .idle ↔ _
    rcases hcases with ⟨hatt, _, _, c, hc, hbad⟩ | ⟨hworst, hchecks⟩
    · rw [hatt]
      refine iff_of_false (by simp) fun h => ?_
      rw [h.2.2 c hc] at hbad
      cases hbad
    · rw [hworst, hgreen]
      constructor
      · intro h
        exact ⟨h.1, h.2, hchecks h⟩
      · intro h
        exact ⟨h.1, h.2.1⟩
  case attention =>
    intro hkinds hall hbad
    obtain ⟨c, hc, hbad⟩ := hbad
    rcases hcases with ⟨hatt, _⟩ | ⟨_, hchecks⟩
    · exact hatt
    · rw [hchecks ⟨hkinds, hall⟩ c hc] at hbad
      cases hbad
  case worst =>
    rintro ⟨k, hk, hloud⟩
    have hkinds : inp.kinds ≠ [] := List.ne_nil_of_mem hk
    rcases hcases with ⟨_, _, hall, _⟩ | ⟨hworst, _⟩
    · rw [hall k hk] at hloud
      cases hloud
    · obtain ⟨v, hv, hkind, hrank⟩ := hspec hkinds
      rw [hws] at hrank
      obtain ⟨w, hw, rfl⟩ := List.mem_map.mp hv
      obtain ⟨k', hk', rfl⟩ := List.mem_map.mp hw
      exact ⟨k', hk', hworst.trans hkind, hrank⟩
  case failed => exact hfailed
  case missed => exact hmissed
  case throttled => exact hthrottled
  case waiting => exact hwaiting
  case busy =>
    intro k _ job hjob hst
    rw [← Bool.not_eq_true, assessKind_quiet]
    rintro ⟨_, hdone⟩
    rw [hdone job hjob] at hst
    simp at hst
  case overdue =>
    intro k _ hplan
    rw [← Bool.not_eq_true, assessKind_quiet, missedPlan_iff.mpr hplan]
    rintro ⟨⟨⟩, _⟩

end

end FlexQuery
