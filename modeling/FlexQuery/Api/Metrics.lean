import FlexQuery.Library.Families
import FlexQuery.Api.MetricsLine
import FlexQuery.Ops.SelfCheck

/-!
# The metrics text

`render_metrics` of `api/metrics.py`.

* `Snapshot` — what `collect_metrics` has read.
* `Section` — what is written between two groups of heads; `metricSections` is the text in order.
* `lastAttemptOk` of `Schema/Freshness` is the second gauge of `freshnessSection`.
* `renderMetrics_toList` — the text is the lines of blocks, each read back.
* `OneGroupEach` — every metric in one group with one head, and no sample twice.
* `renderMetrics_groups_iff` — when the text is so.
-/

set_option autoImplicit false

namespace FlexQuery

open Exposition Grouping

namespace Metrics

/-- A `datetime`: its wall clock in microseconds from the epoch, and its offset from UTC. -/
structure Stamp where
  wall : ℤ
  utcoffset : Option ℤ

/-- `dt.timestamp()` of a time with an offset. -/
def Stamp.timestamp (dt : Stamp) : PyFloat :=
  let micros := dt.wall - dt.utcoffset.getD 0
  PyFloat.ofSign (micros < 0) (.ofScientific micros.natAbs (-6))

/-- `_ts`. -/
def ts : Option Stamp → Option PyFloat
  | none => none
  | some dt =>
    let dt := if dt.utcoffset.isNone then { dt with utcoffset := some 0 } else dt
    some dt.timestamp

example : (ts (some ⟨1500000, some 3600000000⟩)).map strFloat = some "-3598.5" := by
  decide +kernel

/-- A row of `flex_ingest_freshness`. -/
structure FreshnessStat where
  dimension : String
  latestTs : Option Stamp
  lastOk : Option Bool
  processedRows : Option ℤ
  newRows : Option ℤ

/-- The newest job of a kind. -/
structure LastJob where
  kind : String
  status : Option String
  errorCategory : Option String
  notBefore : Option Stamp

structure PlannedSlot where
  slot : String
  last : Option Stamp
  next : Option Stamp

structure DataTable where
  table : String
  latest : Option Stamp

structure WorkerStat where
  seenAt : Option Stamp
  counters : List (String × ℤ)

structure Snapshot where
  version : String
  freshness : List FreshnessStat
  lastJobs : List LastJob
  counts : List (String × ℤ)
  planned : List PlannedSlot
  data : List DataTable
  coverage : Option Coverage
  heartbeat : Option WorkerStat
  tokens : List (String × Bool)
  tokenAgeSeconds : Option ℤ

/-! ## Sections -/

/-- The arguments of `_line`. -/
structure MetricSample where
  name : String
  value : MetricNumber
  labels : List (String × String)

/-- Families whose heads are written together, and the samples that follow. -/
structure Section where
  families : List Family
  samples : List MetricSample

/-- One family with its samples. -/
def Section.single (f : Family) (rows : List (MetricNumber × List (String × String))) : Section :=
  ⟨[f], rows.map fun r => ⟨f.name, r.1, r.2⟩⟩

/-- `head`. -/
def head (f : Family) : List String :=
  ["# HELP " ++ f.name ++ " " ++ f.help, "# TYPE " ++ f.name ++ " " ++ f.kind]

/-- What is appended to `out`. -/
def Section.lines (s : Section) : List String :=
  s.families.flatMap head ++ s.samples.map fun r => metricsLine r.name r.value r.labels

def JOB_STATUSES : List String := ["pending", "running", "done", "failed"]

def pluginInfo : Family := ⟨"bifrost_flex_plugin_info", "gauge", "Flex Query plugin version."⟩

def infoSection (snap : Snapshot) : Section :=
  .single pluginInfo [(.int 1, [("version", snap.version)])]

def lastSuccess : Family :=
  ⟨"bifrost_flex_ingest_last_success_timestamp_seconds", "gauge",
    "When this kind last completed a run."⟩

def attemptOk : Family :=
  ⟨"bifrost_flex_ingest_last_attempt_ok", "gauge",
    "1 if the most recent attempt of this kind succeeded."⟩

def processedRows : Family :=
  ⟨"bifrost_flex_ingest_last_processed_rows", "gauge",
    "Rows upserted by the last successful run."⟩

def newRows : Family :=
  ⟨"bifrost_flex_ingest_last_new_rows", "gauge",
    "Rows the last successful run added that did not exist before."⟩

def freshnessSamples (r : FreshnessStat) : List MetricSample :=
  ((ts r.latestTs).map fun t => ⟨lastSuccess.name, .float t, [("kind", r.dimension)]⟩).toList ++
  (r.lastOk.map fun ok =>
    ⟨attemptOk.name, .int (if ok then 1 else 0), [("kind", r.dimension)]⟩).toList ++
  (r.processedRows.map fun n =>
    ⟨processedRows.name, .int n, [("kind", r.dimension)]⟩).toList ++
  (r.newRows.map fun n => ⟨newRows.name, .int n, [("kind", r.dimension)]⟩).toList

def freshnessSection (snap : Snapshot) : Section :=
  ⟨[lastSuccess, attemptOk, processedRows, newRows], snap.freshness.flatMap freshnessSamples⟩

def jobStatus : Family :=
  ⟨"bifrost_flex_ingest_last_job_status", "gauge",
    "1 for the status of the newest job of this kind."⟩

def jobCategory : Family :=
  ⟨"bifrost_flex_ingest_last_job_category", "gauge",
    "1 for the error category of the newest job of this kind."⟩

def nextRetry : Family :=
  ⟨"bifrost_flex_ingest_next_retry_timestamp_seconds", "gauge",
    "When the newest job of this kind may run again (pending with not_before)."⟩

def jobSamples (r : LastJob) : List MetricSample :=
  JOB_STATUSES.map (fun st =>
    ⟨jobStatus.name, .int (if r.status = some st then 1 else 0),
      [("kind", r.kind), ("status", st)]⟩) ++
  -- an empty category is false
  ((r.errorCategory.filter (· ≠ "")).map fun category =>
    ⟨jobCategory.name, .int 1, [("kind", r.kind), ("category", category)]⟩).toList ++
  (if r.status = some "pending" then
    ((ts r.notBefore).map fun t => ⟨nextRetry.name, .float t, [("kind", r.kind)]⟩).toList
  else [])

def lastJobsSection (snap : Snapshot) : Section :=
  ⟨[jobStatus, jobCategory, nextRetry], snap.lastJobs.flatMap jobSamples⟩

def jobsByStatus : Family :=
  ⟨"bifrost_flex_ingest_jobs", "gauge", "Jobs in the queue by status."⟩

def jobsSection (snap : Snapshot) : Section :=
  .single jobsByStatus
    (JOB_STATUSES.map fun st => (.int ((Tally.find snap.counts st).getD 0), [("status", st)]))

def plannedLast : Family :=
  ⟨"bifrost_flex_planned_last_timestamp_seconds", "gauge", "Most recent planned fire of the slot."⟩

def plannedNext : Family :=
  ⟨"bifrost_flex_planned_next_timestamp_seconds", "gauge", "Next planned fire of the slot."⟩

def plannedSamples (r : PlannedSlot) : List MetricSample :=
  ((ts r.last).map fun t => ⟨plannedLast.name, .float t, [("slot", r.slot)]⟩).toList ++
  ((ts r.next).map fun t => ⟨plannedNext.name, .float t, [("slot", r.slot)]⟩).toList

def plannedSection (snap : Snapshot) : Section :=
  ⟨[plannedLast, plannedNext], snap.planned.flatMap plannedSamples⟩

def dataLatest : Family :=
  ⟨"bifrost_flex_data_latest_timestamp_seconds", "gauge",
    "Newest row timestamp in the landed data."⟩

def dataSection (snap : Snapshot) : Section :=
  .single dataLatest
    (snap.data.filterMap fun r => (ts r.latest).map fun t => (.float t, [("table", r.table)]))

/-- `gap_months_by_account`. -/
def gapMonthsByAccount (coverage : Coverage) : List (String × ℤ) :=
  let out := coverage.accounts.foldl (fun out a => Tally.upsert a (fun _ => 0) out) []
  coverage.gaps.foldl (fun out g => Tally.upsert g.accountId (fun n => n.getD 0 + 1) out) out

def gapMonths : Family :=
  ⟨"bifrost_flex_coverage_gap_months", "gauge",
    "Closed months with Flex executions but no cash transactions, " ++
      "per account (should be 0)."⟩

def coverageSection (coverage : Coverage) : Section :=
  .single gapMonths
    ((sortedItems (gapMonthsByAccount coverage)).map fun e => (.int e.2, [("account", e.1)]))

def workerLastSeen : Family :=
  ⟨"bifrost_flex_worker_last_seen_timestamp_seconds", "gauge",
    "When the worker last reported in."⟩

def workerCounter : Family :=
  ⟨"bifrost_flex_worker_counter", "gauge", "Worker counters since its last start."⟩

def WORKER_COUNTERS : List String :=
  ["jobs_done", "jobs_failed", "jobs_retried", "catchups", "db_reconnects", "stale_reclaimed"]

def lastSeenSection (t : PyFloat) : Section := .single workerLastSeen [(.float t, [])]

def countersSection (hb : WorkerStat) : Section :=
  .single workerCounter (WORKER_COUNTERS.map fun key =>
    (.int ((Tally.find hb.counters key).getD 0), [("name", key)]))

/-- Of a worker that has reported in. -/
def heartbeatSections (hb : WorkerStat) : List Section :=
  match ts hb.seenAt with
  | none => []
  | some t => [lastSeenSection t, countersSection hb]

def tokenConfigured : Family :=
  ⟨"bifrost_flex_token_configured", "gauge", "1 when a Flex token is present for the side."⟩

def tokensSection (snap : Snapshot) : Section :=
  .single tokenConfigured
    (snap.tokens.map fun e => (.int (if e.2 then 1 else 0), [("side", e.1)]))

def tokenAge : Family :=
  ⟨"bifrost_flex_token_age_seconds", "gauge",
    "Seconds since the Flex tokens were issued (IB expires them after a year)."⟩

def ageSection (age : ℤ) : Section := .single tokenAge [(.int age, [])]

/-- The text, in order. -/
def metricSections (snap : Snapshot) : List Section :=
  [infoSection snap, freshnessSection snap, lastJobsSection snap, jobsSection snap,
    plannedSection snap, dataSection snap] ++
  (snap.coverage.map coverageSection).toList ++
  (snap.heartbeat.map heartbeatSections).getD [] ++
  [tokensSection snap] ++
  (snap.tokenAgeSeconds.map ageSection).toList

/-- `render_metrics`. -/
def renderMetrics (snap : Snapshot) : String :=
  "\n".intercalate ((metricSections snap).flatMap Section.lines) ++ "\n"

/-! ## The text read back -/

/-- What a reader makes of a section. -/
def Section.block (s : Section) : Block :=
  ⟨s.families, s.samples.map fun r => sampleRead r.name r.value r.labels⟩

def metricBlocks (snap : Snapshot) : List Block := (metricSections snap).map Section.block

theorem head_toList (f : Family) : (head f).map String.toList = f.head.map Line.text := by
  simp [head, Family.head, Line.text, HELP, TYPE]

theorem Section.lines_toList (s : Section) :
    s.lines.map String.toList = s.block.lines.map Line.text := by
  have hheads : ∀ families : List Family, (families.flatMap head).map String.toList =
      (families.flatMap Family.head).map Line.text := by
    intro families
    rw [List.map_flatMap, List.map_flatMap]
    simp only [head_toList]
  have hsamples : (s.samples.map fun r => metricsLine r.name r.value r.labels).map String.toList =
      (s.block.samples.map Line.sample).map Line.text := by
    simp [Section.block, metricsLine_toList, Line.text]
  rw [Section.lines, Block.lines, List.map_append, List.map_append, hheads, hsamples]
  rfl

/-- The text of the lines. -/
theorem renderMetrics_toList (snap : Snapshot) :
    (renderMetrics snap).toList = linesText (linesOf (metricBlocks snap)) := by
  have hlines : ((metricSections snap).flatMap Section.lines).map String.toList =
      (linesOf (metricBlocks snap)).map Line.text := by
    rw [linesOf, metricBlocks, List.flatMap_map, List.map_flatMap, List.map_flatMap]
    simp only [Section.lines_toList]
  have hne : linesOf (metricBlocks snap) ≠ [] := by
    simp [linesOf, metricBlocks, metricSections, infoSection, Section.single, Section.block,
      Block.lines, Family.head]
  rw [renderMetrics, String.toList_append, String.toList_intercalate, hlines,
    ← intercalate_newline hne]
  rfl

/-- Something about each section. -/
theorem forall_sections {snap : Snapshot} {P : Section → Prop} :
    (∀ s ∈ metricSections snap, P s) ↔
      P (infoSection snap) ∧ P (freshnessSection snap) ∧ P (lastJobsSection snap) ∧
      P (jobsSection snap) ∧ P (plannedSection snap) ∧ P (dataSection snap) ∧
      (∀ coverage ∈ snap.coverage, P (coverageSection coverage)) ∧
      (∀ hb ∈ snap.heartbeat, ∀ t ∈ ts hb.seenAt,
        P (lastSeenSection t) ∧ P (countersSection hb)) ∧
      P (tokensSection snap) ∧ (∀ age ∈ snap.tokenAgeSeconds, P (ageSection age)) := by
  have hhb : (∀ s ∈ (snap.heartbeat.map heartbeatSections).getD [], P s) ↔
      ∀ hb ∈ snap.heartbeat, ∀ t ∈ ts hb.seenAt, P (lastSeenSection t) ∧ P (countersSection hb) := by
    cases snap.heartbeat with
    | none => simp
    | some hb =>
      cases hseen : ts hb.seenAt with
      | none => simp [heartbeatSections, hseen]
      | some t => simp [heartbeatSections, hseen]
  simp only [metricSections, List.forall_mem_append, List.forall_mem_cons, hhb]
  cases snap.coverage with
  | none => cases snap.tokenAgeSeconds <;> simp [and_assoc]
  | some coverage => cases snap.tokenAgeSeconds <;> simp [and_assoc]

/-- Every family, in order. -/
def FAMILIES : List Family :=
  [pluginInfo, lastSuccess, attemptOk, processedRows, newRows, jobStatus, jobCategory, nextRetry,
    jobsByStatus, plannedLast, plannedNext, dataLatest, gapMonths, workerLastSeen, workerCounter,
    tokenConfigured, tokenAge]

def LABEL_NAMES : List String :=
  ["version", "kind", "status", "category", "slot", "table", "account", "name", "side"]

theorem families_nodup : (FAMILIES.map Family.name).Nodup := by decide +kernel

theorem families_valid : ∀ f ∈ FAMILIES, isName isMetricStart isMetricChar f.name.toList = true ∧
    '\n' ∉ f.help.toList ∧ '\n' ∉ f.kind.toList := by decide +kernel

theorem labelNames_valid : ∀ k ∈ LABEL_NAMES, isName isLabelStart isLabelChar k.toList = true := by
  decide +kernel

/-- Some of the heads are left out, none is moved. -/
theorem families_sublist (snap : Snapshot) :
    ((metricSections snap).flatMap Section.families).Sublist FAMILIES := by
  have hcoverage : ((snap.coverage.map coverageSection).toList.flatMap Section.families).Sublist
      [gapMonths] := by
    cases snap.coverage with
    | none => simp
    | some coverage => exact List.Sublist.refl _
  have hheartbeat : (((snap.heartbeat.map heartbeatSections).getD []).flatMap
      Section.families).Sublist [workerLastSeen, workerCounter] := by
    cases snap.heartbeat with
    | none => simp
    | some hb =>
      show ((heartbeatSections hb).flatMap Section.families).Sublist _
      unfold heartbeatSections
      cases ts hb.seenAt with
      | none => simp
      | some t => exact List.Sublist.refl _
  have hage : ((snap.tokenAgeSeconds.map ageSection).toList.flatMap Section.families).Sublist
      [tokenAge] := by
    cases snap.tokenAgeSeconds with
    | none => simp
    | some age => exact List.Sublist.refl _
  simp only [metricSections, List.flatMap_append]
  exact ((((List.Sublist.refl _).append hcoverage).append hheartbeat).append
    (List.Sublist.refl [tokenConfigured])).append hage

/-- A section's samples are of its own families. -/
structure Section.Sound (s : Section) : Prop where
  owned : ∀ r ∈ s.samples, r.name ∈ s.families.map Family.name
  labels : ∀ r ∈ s.samples, ∀ p ∈ r.labels, p.1 ∈ LABEL_NAMES

theorem Section.single_sound {f : Family} {rows : List (MetricNumber × List (String × String))}
    (h : ∀ r ∈ rows, ∀ p ∈ r.2, p.1 ∈ LABEL_NAMES) : (Section.single f rows).Sound where
  owned := by
    intro r hr
    obtain ⟨row, -, rfl⟩ := List.mem_map.mp hr
    simp [Section.single]
  labels := by
    intro r hr
    obtain ⟨row, hrow, rfl⟩ := List.mem_map.mp hr
    exact h row hrow

theorem Section.rows_sound {ρ : Type} {families : List Family} {f : ρ → List MetricSample}
    (h : ∀ row, ∀ r ∈ f row, r.name ∈ families.map Family.name ∧
      ∀ p ∈ r.labels, p.1 ∈ LABEL_NAMES) (rows : List ρ) :
    (Section.mk families (rows.flatMap f)).Sound where
  owned := by
    intro r hr
    obtain ⟨row, -, hrow⟩ := List.mem_flatMap.mp hr
    exact (h row r hrow).1
  labels := by
    intro r hr
    obtain ⟨row, -, hrow⟩ := List.mem_flatMap.mp hr
    exact (h row r hrow).2

theorem sections_sound (snap : Snapshot) : ∀ s ∈ metricSections snap, s.Sound := by
  have hfreshness : (freshnessSection snap).Sound := by
    refine Section.rows_sound ?_ snap.freshness
    intro row r hr
    simp only [freshnessSamples, List.mem_append, Option.mem_toList, Option.map_eq_some_iff] at hr
    rcases hr with ((⟨_, _, rfl⟩ | ⟨_, _, rfl⟩) | ⟨_, _, rfl⟩) | ⟨_, _, rfl⟩ <;>
      simp [LABEL_NAMES]
  have hjobs : (lastJobsSection snap).Sound := by
    refine Section.rows_sound ?_ snap.lastJobs
    intro row r hr
    simp only [jobSamples, List.mem_append, List.mem_map, Option.mem_toList,
      Option.map_eq_some_iff, List.mem_ite_nil_right] at hr
    rcases hr with (⟨_, _, rfl⟩ | ⟨_, _, rfl⟩) | ⟨_, _, _, rfl⟩ <;> simp [LABEL_NAMES]
  have hplanned : (plannedSection snap).Sound := by
    refine Section.rows_sound ?_ snap.planned
    intro row r hr
    simp only [plannedSamples, List.mem_append, Option.mem_toList, Option.map_eq_some_iff] at hr
    rcases hr with ⟨_, _, rfl⟩ | ⟨_, _, rfl⟩ <;> simp [LABEL_NAMES]
  have hdata : (dataSection snap).Sound := by
    refine Section.single_sound ?_
    intro r hr
    obtain ⟨row, -, hrow⟩ := List.mem_filterMap.mp hr
    obtain ⟨t, -, rfl⟩ := Option.map_eq_some_iff.mp hrow
    simp [LABEL_NAMES]
  have hrest : ∀ {ρ : Type} {rows : List ρ} {value : ρ → MetricNumber} {k : String}
      {key : ρ → String}, k ∈ LABEL_NAMES → ∀ r ∈ rows.map (fun row => (value row, [(k, key row)])),
        ∀ p ∈ r.2, p.1 ∈ LABEL_NAMES := by
    intro ρ rows value k key hk r hr p hp
    obtain ⟨row, -, rfl⟩ := List.mem_map.mp hr
    rw [List.mem_singleton.mp hp]
    exact hk
  rw [forall_sections]
  refine ⟨Section.single_sound ?_, hfreshness, hjobs, Section.single_sound ?_, hplanned, hdata,
    fun coverage _ => Section.single_sound ?_,
    fun hb _ t _ => ⟨Section.single_sound ?_, Section.single_sound ?_⟩, Section.single_sound ?_,
    fun age _ => Section.single_sound ?_⟩
  · simp [LABEL_NAMES]
  · exact hrest (by simp [LABEL_NAMES])
  · exact hrest (by simp [LABEL_NAMES])
  · simp
  · exact hrest (by simp [LABEL_NAMES])
  · exact hrest (by simp [LABEL_NAMES])
  · simp

theorem metricBlocks_ownHeads (snap : Snapshot) : OwnHeads (metricBlocks snap) where
  once := by
    have hsub := (families_sublist snap).map Family.name
    rw [List.map_flatMap] at hsub
    have hnames : (metricBlocks snap).flatMap Block.names =
        (metricSections snap).flatMap fun s => s.families.map Family.name := by
      rw [metricBlocks, List.flatMap_map]
      rfl
    rw [hnames]
    exact families_nodup.sublist hsub
  owned := by
    intro b hb r hr
    obtain ⟨s, hs, rfl⟩ := List.mem_map.mp hb
    obtain ⟨sample, hsample, rfl⟩ := List.mem_map.mp hr
    exact (sections_sound snap s hs).owned sample hsample

/-- **Read back.**  Every line of the text is a head or a sample. -/
theorem readText_renderMetrics (snap : Snapshot) :
    readText (renderMetrics snap).toList = some (linesOf (metricBlocks snap)) := by
  have hfamily : ∀ s ∈ metricSections snap, ∀ f ∈ s.families, f ∈ FAMILIES := by
    intro s hs f hf
    exact (families_sublist snap).mem (List.mem_flatMap.mpr ⟨s, hs, hf⟩)
  rw [renderMetrics_toList]
  refine readText_linesOf ?_ ?_
  · intro b hb f hf
    obtain ⟨s, hs, rfl⟩ := List.mem_map.mp hb
    exact families_valid f (hfamily s hs f hf)
  · intro b hb r hr
    obtain ⟨s, hs, rfl⟩ := List.mem_map.mp hb
    obtain ⟨sample, hsample, rfl⟩ := List.mem_map.mp hr
    have hsound := sections_sound snap s hs
    obtain ⟨f, hf, hname⟩ := List.mem_map.mp (hsound.owned sample hsample)
    refine sampleRead_readable ?_ ?_ sample.value
    · rw [← hname]
      exact (families_valid f (hfamily s hs f hf)).1
    · intro p hp
      exact labelNames_valid p.1 (hsound.labels sample hsample p hp)

/-! ## Groups -/

/-- All samples are of the family whose head is written last. -/
def Section.Together (s : Section) : Prop :=
  ∀ r ∈ s.samples, (s.families.map Family.name).getLast? = some r.name

theorem Section.single_together (f : Family)
    (rows : List (MetricNumber × List (String × String))) : (Section.single f rows).Together := by
  intro r hr
  obtain ⟨row, -, rfl⟩ := List.mem_map.mp hr
  simp [Section.single]

/-- Rows whose samples are all of a family whose head comes last. -/
structure Snapshot.LastHeadOnly (snap : Snapshot) : Prop where
  freshness : ∀ r ∈ snap.freshness, r.latestTs = none ∧ r.lastOk = none ∧ r.processedRows = none
  lastJobs : snap.lastJobs = []
  planned : ∀ r ∈ snap.planned, r.last = none

theorem ts_eq_none {dt : Option Stamp} : ts dt = none ↔ dt = none := by
  cases dt with
  | none => simp [ts]
  | some dt => simp [ts]

theorem Section.rows_together {ρ : Type} {families : List Family} {f : ρ → List MetricSample}
    {rows : List ρ} : (Section.mk families (rows.flatMap f)).Together ↔
      ∀ row ∈ rows, ∀ r ∈ f row, (families.map Family.name).getLast? = some r.name := by
  constructor
  · intro h row hrow r hr
    exact h r (List.mem_flatMap.mpr ⟨row, hrow, hr⟩)
  · intro h r hr
    obtain ⟨row, hrow, hr⟩ := List.mem_flatMap.mp hr
    exact h row hrow r hr

/-- A sample that is written where a value is there. -/
theorem forall_mem_optional {α β : Type} {o : Option α} {f : α → β} {P : β → Prop} :
    (∀ r ∈ (o.map f).toList, P r) ↔ ∀ a ∈ o, P (f a) := by
  cases o with
  | none => simp
  | some a => simp

theorem forall_mem_false {α : Type} {o : Option α} : (∀ a ∈ o, False) ↔ o = none := by
  cases o with
  | none => simp
  | some a => simp

theorem freshnessSection_together {snap : Snapshot} : (freshnessSection snap).Together ↔
    ∀ r ∈ snap.freshness, r.latestTs = none ∧ r.lastOk = none ∧ r.processedRows = none := by
  have hnames : newRows.name ≠ lastSuccess.name ∧ newRows.name ≠ attemptOk.name ∧
      newRows.name ≠ processedRows.name := by decide +kernel
  obtain ⟨hsuccess, hok, hprocessed⟩ := hnames
  rw [freshnessSection, Section.rows_together]
  refine forall₂_congr fun row _ => ?_
  simp only [freshnessSamples, List.forall_mem_append, forall_mem_optional, List.map_cons,
    List.map_nil, List.getLast?_cons_cons, List.getLast?_singleton, Option.some.injEq, hsuccess,
    hok, hprocessed, forall_mem_false, ts_eq_none, implies_true, and_true, and_assoc]

theorem lastJobsSection_together {snap : Snapshot} : (lastJobsSection snap).Together ↔
    snap.lastJobs = [] := by
  have hname : nextRetry.name ≠ jobStatus.name := by decide +kernel
  rw [lastJobsSection, Section.rows_together]
  constructor
  · intro h
    cases hjobs : snap.lastJobs with
    | nil => rfl
    | cons row rest =>
      rw [hjobs] at h
      have hfirst := h row List.mem_cons_self _ (List.mem_append_left _ (List.mem_append_left _
        (List.mem_map.mpr ⟨"pending", List.mem_cons_self, rfl⟩)))
      exact absurd (Option.some.inj hfirst) hname
  · intro h row hrow
    rw [h] at hrow
    cases hrow

theorem plannedSection_together {snap : Snapshot} : (plannedSection snap).Together ↔
    ∀ r ∈ snap.planned, r.last = none := by
  have hname : plannedNext.name ≠ plannedLast.name := by decide +kernel
  rw [plannedSection, Section.rows_together]
  refine forall₂_congr fun row _ => ?_
  simp only [plannedSamples, List.forall_mem_append, forall_mem_optional, List.map_cons,
    List.map_nil, List.getLast?_cons_cons, List.getLast?_singleton, Option.some.injEq, hname,
    forall_mem_false, ts_eq_none, implies_true, and_true]

/-- **Where the heads of several families are written first**, their samples are not together. -/
theorem grouped_metrics_iff {snap : Snapshot} :
    Grouped Line.name (linesOf (metricBlocks snap)) ↔ snap.LastHeadOnly := by
  have hsections : Grouped Line.name (linesOf (metricBlocks snap)) ↔
      ∀ s ∈ metricSections snap, s.Together := by
    rw [grouped_iff (metricBlocks_ownHeads snap), metricBlocks, List.forall_mem_map]
    refine forall₂_congr fun s _ => ?_
    rw [Section.block, List.forall_mem_map]
    rfl
  rw [hsections, forall_sections, freshnessSection_together, lastJobsSection_together,
    plannedSection_together]
  constructor
  · rintro ⟨-, hfreshness, hjobs, -, hplanned, -⟩
    exact ⟨hfreshness, hjobs, hplanned⟩
  · rintro ⟨hfreshness, hjobs, hplanned⟩
    exact ⟨Section.single_together _ _, hfreshness, hjobs, Section.single_together _ _, hplanned,
      Section.single_together _ _, fun _ _ => Section.single_together _ _,
      fun _ _ _ _ => ⟨Section.single_together _ _, Section.single_together _ _⟩,
      Section.single_together _ _, fun _ _ => Section.single_together _ _⟩

/-! ## Samples -/

/-- The keys of a snapshot's rows; the accounts are the keys of a dictionary in any case. -/
structure Snapshot.DistinctKeys (snap : Snapshot) : Prop where
  freshness : (snap.freshness.map FreshnessStat.dimension).Nodup
  lastJobs : (snap.lastJobs.map LastJob.kind).Nodup
  planned : (snap.planned.map PlannedSlot.slot).Nodup
  data : (snap.data.map DataTable.table).Nodup
  tokens : (snap.tokens.map Prod.fst).Nodup

/-- The keys of the rows with a sample in the last family of their loop are still distinct when
each line feed is a blank. -/
structure Snapshot.KeysApart (snap : Snapshot) : Prop where
  freshness : ((snap.freshness.filter (·.newRows.isSome)).map fun r => spaced r.dimension).Nodup
  planned : ((snap.planned.filter (·.next.isSome)).map fun r => spaced r.slot).Nodup
  data : ((snap.data.filter (·.latest.isSome)).map fun r => spaced r.table).Nodup
  accounts : ∀ coverage ∈ snap.coverage,
    ((gapMonthsByAccount coverage).map fun e => spaced e.1).Nodup
  tokens : (snap.tokens.map fun e => spaced e.1).Nodup

/-- Name and labels, as they are read. -/
def MetricSample.series (r : MetricSample) : String × List (String × String) :=
  (sampleRead r.name r.value r.labels).series

def Section.DistinctSamples (s : Section) : Prop := (s.samples.map MetricSample.series).Nodup

theorem nodup_keyed {ρ : Type} {rows : List ρ} {name k : String} {key : ρ → String} :
    (rows.map fun row => (name, [(k, spaced (key row))])).Nodup ↔
      (rows.map fun row => spaced (key row)).Nodup := by
  have hinj : Function.Injective fun t : String => (name, [(k, t)]) := by
    intro t u h
    simpa using h
  rw [← List.nodup_map_iff hinj, List.map_map]
  rfl

theorem Section.single_distinct {ρ : Type} {f : Family} {rows : List ρ}
    {value : ρ → MetricNumber} {k : String} {key : ρ → String} :
    (Section.single f (rows.map fun row => (value row, [(k, key row)]))).DistinctSamples ↔
      (rows.map fun row => spaced (key row)).Nodup := by
  rw [← @nodup_keyed ρ rows f.name k key, DistinctSamples, single, List.map_map, List.map_map]
  rfl

/-- Samples of the rows with a value. -/
theorem nodup_optional {ρ α : Type} (name k : String) (value : α → MetricNumber)
    {samples : List MetricSample} {rows : List ρ} {o : ρ → Option α} {key : ρ → String}
    (h : samples = rows.flatMap fun row =>
      ((o row).map fun a => (⟨name, value a, [(k, key row)]⟩ : MetricSample)).toList) :
    (samples.map MetricSample.series).Nodup ↔
      ((rows.filter fun row => (o row).isSome).map fun row => spaced (key row)).Nodup := by
  have hseries : samples.map MetricSample.series =
      (rows.filter fun row => (o row).isSome).map fun row => (name, [(k, spaced (key row))]) := by
    rw [h]
    clear h
    induction rows with
    | nil => rfl
    | cons row rows ih =>
      rw [List.flatMap_cons, List.map_append, ih]
      cases ho : o row with
      | none => simp [ho]
      | some a => simp [ho, MetricSample.series, sampleRead, SampleLine.series]
  rw [hseries]
  exact nodup_keyed

theorem ts_isSome (dt : Option Stamp) : (ts dt).isSome = dt.isSome := by
  cases dt <;> rfl

theorem freshnessSection_distinct {snap : Snapshot} (h : snap.LastHeadOnly) :
    (freshnessSection snap).DistinctSamples ↔
      ((snap.freshness.filter (·.newRows.isSome)).map fun r => spaced r.dimension).Nodup := by
  refine nodup_optional newRows.name "kind" .int (List.flatMap_congr fun r hr => ?_)
  obtain ⟨hts, hok, hprocessed⟩ := h.freshness r hr
  simp only [freshnessSamples, hts, hok, hprocessed, ts, Option.map_none, Option.toList_none,
    List.nil_append]

theorem plannedSection_distinct {snap : Snapshot} (h : snap.LastHeadOnly) :
    (plannedSection snap).DistinctSamples ↔
      ((snap.planned.filter (·.next.isSome)).map fun r => spaced r.slot).Nodup := by
  simp only [← ts_isSome]
  refine nodup_optional plannedNext.name "slot" .float (List.flatMap_congr fun r hr => ?_)
  simp only [plannedSamples, h.planned r hr, ts, Option.map_none, Option.toList_none,
    List.nil_append]

theorem dataSection_distinct {snap : Snapshot} : (dataSection snap).DistinctSamples ↔
    ((snap.data.filter (·.latest.isSome)).map fun r => spaced r.table).Nodup := by
  simp only [← ts_isSome]
  refine nodup_optional dataLatest.name "table" .float ?_
  rw [dataSection, Section.single, List.filterMap_eq_flatMap_toList, List.map_flatMap]
  refine List.flatMap_congr fun r _ => ?_
  cases ts r.latest <;> rfl

theorem coverageSection_distinct {coverage : Coverage} :
    (coverageSection coverage).DistinctSamples ↔
      ((gapMonthsByAccount coverage).map fun e => spaced e.1).Nodup := by
  have hperm : (sortedItems (gapMonthsByAccount coverage)).Perm (gapMonthsByAccount coverage) :=
    List.perm_insertionSort _ _
  rw [coverageSection, Section.single_distinct]
  exact (hperm.map _).nodup_iff

/-- Where the metrics are together, two samples coincide only through their keys. -/
theorem distinct_metrics_iff {snap : Snapshot} (h : snap.LastHeadOnly) :
    Distinct (linesOf (metricBlocks snap)) ↔ snap.KeysApart := by
  have hsections : Distinct (linesOf (metricBlocks snap)) ↔
      ∀ s ∈ metricSections snap, s.DistinctSamples := by
    rw [distinct_iff (metricBlocks_ownHeads snap), metricBlocks, List.forall_mem_map]
    refine forall₂_congr fun s _ => ?_
    rw [Section.block, List.map_map]
    rfl
  have hone : ∀ f (row : MetricNumber × List (String × String)),
      (Section.single f [row]).DistinctSamples := fun f row => List.nodup_singleton _
  have hjobs : (lastJobsSection snap).DistinctSamples := by
    simp [Section.DistinctSamples, lastJobsSection, h.lastJobs]
  have hstatuses : (jobsSection snap).DistinctSamples := by
    rw [jobsSection, Section.single_distinct]
    decide +kernel
  have hcounters : ∀ hb, (countersSection hb).DistinctSamples := by
    intro hb
    rw [countersSection, Section.single_distinct]
    decide +kernel
  have htokens : (tokensSection snap).DistinctSamples ↔
      (snap.tokens.map fun e => spaced e.1).Nodup := by
    rw [tokensSection, Section.single_distinct]
  rw [hsections, forall_sections, freshnessSection_distinct h, plannedSection_distinct h,
    dataSection_distinct, htokens]
  simp only [coverageSection_distinct]
  constructor
  · rintro ⟨-, hfreshness, -, -, hplanned, hdata, haccounts, -, htokens, -⟩
    exact ⟨hfreshness, hplanned, hdata, haccounts, htokens⟩
  · rintro ⟨hfreshness, hplanned, hdata, haccounts, htokens⟩
    exact ⟨hone _ _, hfreshness, hjobs, hstatuses, hplanned, hdata, haccounts,
      fun hb _ t _ => ⟨hone _ _, hcounters hb⟩, htokens, fun age _ => hone _ _⟩

/-! ## One group for each metric -/

/-- What the format asks of the lines of a snapshot. -/
structure OneGroupEach (snap : Snapshot) (ls : List Line) : Prop where
  grouped : Grouped Line.name ls
  headed : Headed ls
  distinct : snap.DistinctKeys → Distinct ls

/-- **Groups.**  The text has each metric in one group, under its head, and no sample twice,
exactly when the loops over several families write samples of the last one only, and the keys of
their rows differ in more than line feeds. -/
theorem renderMetrics_groups_iff (snap : Snapshot) :
    (∃ ls, readText (renderMetrics snap).toList = some ls ∧ OneGroupEach snap ls) ↔
      snap.LastHeadOnly ∧ (snap.DistinctKeys → snap.KeysApart) := by
  rw [readText_renderMetrics]
  constructor
  · rintro ⟨ls, hread, hgrouped, -, hdistinct⟩
    cases hread
    have hlast := grouped_metrics_iff.mp hgrouped
    exact ⟨hlast, fun hkeys => (distinct_metrics_iff hlast).mp (hdistinct hkeys)⟩
  · rintro ⟨hlast, hapart⟩
    exact ⟨_, rfl, grouped_metrics_iff.mpr hlast, headed_linesOf (metricBlocks_ownHeads snap),
      fun hkeys => (distinct_metrics_iff hlast).mpr (hapart hkeys)⟩

/-- Two kinds that have run and have jobs: the snapshot of the source's own test. -/
def twoKinds : Snapshot where
  version := "0.6.0"
  freshness :=
    [⟨"flex-trades", some ⟨1788618960000000, some 0⟩, some false, some 50, some 2⟩,
      ⟨"flex-transactions", none, none, none, none⟩]
  lastJobs :=
    [⟨"flex-trades", some "pending", some "not_ready", some ⟨1788692400000000, some 0⟩⟩,
      ⟨"flex-transactions", some "failed", some "throttled", none⟩]
  counts := [("pending", 1), ("failed", 21), ("done", 23)]
  planned :=
    [⟨"flex-trades", some ⟨1788618960000000, some 0⟩, some ⟨1788777000000000, some 0⟩⟩]
  data :=
    [⟨"executions_raw_flex", some ⟨1788480000000000, some 0⟩⟩, ⟨"transactions", none⟩]
  coverage := none
  heartbeat := none
  tokens := [("host", true), ("secondary", false)]
  tokenAgeSeconds := some 1123200

/-- Its metrics are not each in one group. -/
theorem renderMetrics_interleaved :
    ¬ ∃ ls, readText (renderMetrics twoKinds).toList = some ls ∧ OneGroupEach twoKinds ls := by
  rintro ⟨ls, hread, hgrouped, -, -⟩
  rw [readText_renderMetrics] at hread
  cases hread
  have hjobs := (grouped_metrics_iff.mp hgrouped).lastJobs
  cases hjobs

end Metrics

end FlexQuery
