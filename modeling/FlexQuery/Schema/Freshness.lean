import FlexQuery.Schema.Jobs

/-!
# The table `ops_jobs.flex_ingest_freshness`

`record_freshness` of `schema/ddl.py`: one row per kind, the primary key of the table.

* `recordFreshness` — a success replaces the row, a failure keeps what the last success left.
* `lastAttemptOk` — the gauge `bifrost_flex_ingest_last_attempt_ok` of `api/metrics.py`.
-/

set_option autoImplicit false

namespace FlexQuery

structure FreshnessRow where
  latestTs : Option Timestamp
  rowCount : Option ℤ
  updatedAt : Timestamp
  lastOk : Option Bool
  lastError : Option String
  processedRows : Option ℤ
  newRows : Option ℕ
  lastJobId : Option ℕ
  lastFinishedAt : Option Timestamp
  deriving DecidableEq, Repr

/-- The row of each `dimension`. -/
abbrev FreshnessTable := String → Option FreshnessRow

/-- The arguments of `record_freshness`. -/
structure FreshnessRecord where
  dimension : String
  ok : Bool
  processedRows : ℤ := 0
  newRows : Option ℕ := none
  error : Option String := none
  jobId : Option ℕ := none
  deriving DecidableEq, Repr

/-- `(error or "")[:2000] or None`. -/
def FreshnessRecord.errorText (a : FreshnessRecord) : Option String :=
  orNone (slice (a.error.getD "") 2000)

/-- What the upsert makes of the row. -/
def freshnessRow (now : Timestamp) (a : FreshnessRecord) (row : Option FreshnessRow) :
    FreshnessRow :=
  if a.ok then
    { latestTs := some now
      rowCount := some a.processedRows
      updatedAt := now
      lastOk := some true
      lastError := none
      processedRows := some a.processedRows
      newRows := a.newRows
      lastJobId := a.jobId
      lastFinishedAt := some now }
  else
    match row with
    | none =>
      { latestTs := none
        rowCount := none
        updatedAt := now
        lastOk := some false
        lastError := a.errorText
        processedRows := none
        newRows := none
        lastJobId := a.jobId
        lastFinishedAt := some now }
    | some r =>
      { r with
        updatedAt := now
        lastOk := some false
        lastError := a.errorText
        lastJobId := a.jobId
        lastFinishedAt := some now }

/-- `record_freshness`. -/
def recordFreshness (now : Timestamp) (a : FreshnessRecord) (t : FreshnessTable) :
    FreshnessTable :=
  Function.update t a.dimension (some (freshnessRow now a (t a.dimension)))

/-- `last_attempt_ok`; there is no line for a row without an outcome. -/
def lastAttemptOk (r : FreshnessRow) : Option ℕ := r.lastOk.map fun ok => if ok then 1 else 0

/-! ## Reading a row -/

/-- The row of the kind says that its last attempt succeeded. -/
def FreshnessTable.saysOk (t : FreshnessTable) (kind : String) : Bool :=
  (t kind).any fun r => r.lastOk = some true

/-- `latest_ts` of the kind. -/
def FreshnessTable.latestTs (t : FreshnessTable) (kind : String) : Option Timestamp :=
  (t kind).bind FreshnessRow.latestTs

/-- The gauge is 1 exactly then. -/
theorem lastAttemptOk_iff (t : FreshnessTable) (kind : String) :
    (t kind).bind lastAttemptOk = some 1 ↔ t.saysOk kind = true := by
  unfold FreshnessTable.saysOk lastAttemptOk
  cases t kind with
  | none => simp
  | some r => rcases r.lastOk with _ | _ | _ <;> simp

theorem recordFreshness_saysOk (now : Timestamp) (a : FreshnessRecord) (t : FreshnessTable) :
    (recordFreshness now a t).saysOk = Function.update t.saysOk a.dimension a.ok := by
  funext kind
  unfold FreshnessTable.saysOk recordFreshness
  by_cases hk : kind = a.dimension
  · rw [hk, Function.update_self, Function.update_self]
    cases hok : a.ok with
    | true => simp [freshnessRow, hok]
    | false => cases t a.dimension <;> simp [freshnessRow, hok]
  · rw [Function.update_of_ne hk, Function.update_of_ne hk]

/-- A failure keeps the time of the last success. -/
theorem recordFreshness_latestTs (now : Timestamp) (a : FreshnessRecord) (t : FreshnessTable) :
    (recordFreshness now a t).latestTs =
      if a.ok then Function.update t.latestTs a.dimension (some now) else t.latestTs := by
  funext kind
  unfold FreshnessTable.latestTs recordFreshness
  by_cases hk : kind = a.dimension
  · rw [hk, Function.update_self]
    cases hok : a.ok with
    | true => simp [freshnessRow, hok]
    | false => cases hrow : t a.dimension <;> simp [freshnessRow, hok, hrow]
  · cases a.ok <;> simp [Function.update_of_ne hk]

end FlexQuery
