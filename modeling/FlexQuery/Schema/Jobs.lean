import FlexQuery.Library.RowTable
import FlexQuery.Python.Base

/-!
# The table `ops_jobs.job_flex_ingest`

`schema/ddl.py`: one row per job, a `bigserial` primary key and the partial unique index
`job_flex_ingest_kind_hash_active` on `(kind, payload_hash)` over `pending` and `running` rows.
Both constraints are fields of `JobTable`, so a table that breaks them cannot be built.

* `JobTable.update` — an `UPDATE`; it fails as a whole when the index would be violated.
* `JobTable.insert` — an `INSERT … ON CONFLICT DO NOTHING`.
* `JobTable.update_isOk` — an update that gives no row a new index entry does not fail.
* `JobTable.row_update`, `JobTable.row_insert` — what each does, row by row.
-/

set_option autoImplicit false

namespace FlexQuery

open RowTable

/-- A `timestamptz`, in microseconds. -/
abbrev Timestamp := ℤ

/-- `make_interval(secs => n)`. -/
def seconds (n : ℤ) : ℤ := 1000000 * n

inductive Status where
  | pending
  | running
  | done
  | failed
  deriving DecidableEq, Repr

namespace Status

def text : Status → String
  | pending => "pending"
  | running => "running"
  | done => "done"
  | failed => "failed"

/-- `status IN ('pending', 'running')`. -/
def active : Status → Bool
  | pending => true
  | running => true
  | done => false
  | failed => false

end Status

/-- A row of `job_flex_ingest`. -/
structure JobRow where
  id : ℕ
  kind : String
  payload : Dict
  payloadHash : Option String
  priority : ℤ := 0
  status : Status := .pending
  attempts : ℕ := 0
  maxAttempts : ℕ := 3
  result : Option Json := none
  errorCategory : Option String := none
  notBefore : Option Timestamp := none
  createdAt : Timestamp
  updatedAt : Timestamp
  startedAt : Option Timestamp := none
  finishedAt : Option Timestamp := none

/-- The entry of a row in `job_flex_ingest_kind_hash_active`. -/
def JobRow.activeKey (r : JobRow) : Option (String × String) :=
  if r.status.active then r.payloadHash.map fun h => (r.kind, h) else none

theorem JobRow.activeKey_final {r : JobRow} (h : r.status.active = false) :
    r.activeKey = none := by
  simp [JobRow.activeKey, h]

/-- Two rows with the same kind and hash, both active, share their entry. -/
theorem JobRow.activeKey_congr {r r' : JobRow} (hk : r'.kind = r.kind)
    (hh : r'.payloadHash = r.payloadHash) (hr : r.status.active = true)
    (hr' : r'.status.active = true) : r'.activeKey = r.activeKey := by
  simp only [JobRow.activeKey, hr, hr', if_true, hk, hh]

/-- The table with its constraints. -/
structure JobTable where
  rows : List JobRow
  nextId : ℕ
  ids_nodup : (rows.map JobRow.id).Nodup
  id_lt : ∀ r ∈ rows, r.id < nextId
  unique : UniqueIndex JobRow.activeKey rows

inductive DbError where
  | uniqueViolation
  deriving DecidableEq, Repr

namespace JobTable

def empty : JobTable where
  rows := []
  nextId := 1
  ids_nodup := List.nodup_nil
  id_lt := fun _ h => absurd h List.not_mem_nil
  unique := List.nodup_nil

instance (rows : List JobRow) : Decidable (UniqueIndex JobRow.activeKey rows) :=
  inferInstanceAs (Decidable (rows.filterMap JobRow.activeKey).Nodup)

/-- The row `WHERE id = k`. -/
def row (t : JobTable) (k : ℕ) : Option JobRow := rowOf JobRow.id t.rows k

theorem row_some {t : JobTable} {k : ℕ} {r : JobRow} (h : t.row k = some r) :
    r ∈ t.rows ∧ r.id = k :=
  rowOf_some h

theorem row_mem {t : JobTable} {r : JobRow} (h : r ∈ t.rows) : t.row r.id = some r :=
  rowOf_mem t.ids_nodup h

/-- `UPDATE job_flex_ingest SET f WHERE p`. -/
def update (t : JobTable) (p : JobRow → Bool) (f : JobRow → JobRow)
    (hid : ∀ r, (f r).id = r.id) : Except DbError JobTable :=
  if h : UniqueIndex JobRow.activeKey (RowTable.update p f t.rows) then
    .ok {
      rows := RowTable.update p f t.rows
      nextId := t.nextId
      ids_nodup := by rw [map_key_update hid]; exact t.ids_nodup
      id_lt := forall_update (fun r hr _ => t.id_lt r hr)
        fun r hr _ => by rw [hid]; exact t.id_lt r hr
      unique := h }
  else .error .uniqueViolation

section Update
variable {t t' : JobTable} {p : JobRow → Bool} {f : JobRow → JobRow}
  {hid : ∀ r, (f r).id = r.id}

theorem update_rows (h : t.update p f hid = .ok t') :
    t'.rows = RowTable.update p f t.rows ∧ t'.nextId = t.nextId := by
  unfold update at h
  split at h
  · cases h; exact ⟨rfl, rfl⟩
  · cases h

/-- An update that gives no row a new index entry does not fail. -/
theorem update_isOk (t : JobTable)
    (hidx : ∀ r ∈ t.rows, p r = true → (f r).activeKey = r.activeKey ∨ (f r).activeKey = none)
    (hid : ∀ r, (f r).id = r.id) : ∃ t', t.update p f hid = .ok t' := by
  unfold update
  rw [dif_pos (t.unique.update hidx)]
  exact ⟨_, rfl⟩

theorem row_update (h : t.update p f hid = .ok t') (k : ℕ) :
    t'.row k = (t.row k).map fun r => if p r then f r else r := by
  unfold row
  rw [(update_rows h).1, rowOf_update hid]

theorem mem_rows_update (h : t.update p f hid = .ok t') {r' : JobRow} :
    r' ∈ t'.rows ↔ ∃ r ∈ t.rows, (if p r then f r else r) = r' := by
  rw [(update_rows h).1]
  exact mem_update

/-- What holds of every row, and of what the update makes of it, holds after the update. -/
theorem forall_rows_update {P : JobRow → Prop} (h : t.update p f hid = .ok t')
    (hkeep : ∀ r ∈ t.rows, p r = false → P r) (hset : ∀ r ∈ t.rows, p r = true → P (f r)) :
    ∀ r ∈ t'.rows, P r := by
  rw [(update_rows h).1]
  exact forall_update hkeep hset

end Update

/-- `INSERT … ON CONFLICT DO NOTHING RETURNING id`; a conflict uses up an id too. -/
def insert (t : JobTable) (r : JobRow) : JobTable × Option ℕ :=
  let r' : JobRow := { r with id := t.nextId }
  if h : UniqueIndex JobRow.activeKey (t.rows ++ [r']) then
    ({ rows := t.rows ++ [r']
       nextId := t.nextId + 1
       ids_nodup := by
        rw [List.map_append, List.nodup_append]
        refine ⟨t.ids_nodup, List.nodup_singleton _, ?_⟩
        intro a ha b hb hab
        obtain ⟨x, hx, rfl⟩ := List.mem_map.mp ha
        have hb' : b = t.nextId := by simpa [r'] using hb
        exact absurd (hab.trans hb') (t.id_lt x hx).ne
       id_lt := by
        intro x hx
        rcases List.mem_append.mp hx with hx | hx
        · exact (t.id_lt x hx).trans (Nat.lt_succ_self _)
        · rw [List.mem_singleton.mp hx]
          exact Nat.lt_succ_self _
       unique := h },
      some t.nextId)
  else
    ({ rows := t.rows
       nextId := t.nextId + 1
       ids_nodup := t.ids_nodup
       id_lt := fun x hx => (t.id_lt x hx).trans (Nat.lt_succ_self _)
       unique := t.unique },
      none)

/-- Either the row is appended under the next id, or nothing is and its entry was taken. -/
theorem insert_cases (t : JobTable) (r : JobRow) :
    ((t.insert r).1.rows = t.rows ++ [{ r with id := t.nextId }] ∧
      (t.insert r).2 = some t.nextId ∧ (t.insert r).1.nextId = t.nextId + 1) ∨
    ((t.insert r).1.rows = t.rows ∧ (t.insert r).2 = none ∧
      (t.insert r).1.nextId = t.nextId + 1 ∧
      ∃ x ∈ t.rows, x.activeKey = { r with id := t.nextId }.activeKey ∧ x.activeKey ≠ none) := by
  unfold insert
  by_cases h : UniqueIndex JobRow.activeKey (t.rows ++ [{ r with id := t.nextId }])
  · rw [dif_pos h]
    exact Or.inl ⟨rfl, rfl, rfl⟩
  · rw [dif_neg h]
    refine Or.inr ⟨rfl, rfl, rfl, ?_⟩
    by_contra hfree
    push Not at hfree
    apply h
    apply t.unique.insert
    intro k hk x hx hxk
    have := hfree x hx (hxk.trans hk.symm)
    rw [this] at hxk
    cases hxk

/-- An insert is dropped exactly when an active row has its entry. -/
theorem insert_rows_eq_iff {t : JobTable} {r : JobRow} {key : String × String}
    (hkey : ({ r with id := t.nextId } : JobRow).activeKey = some key) :
    (t.insert r).1.rows = t.rows ↔ ∃ x ∈ t.rows, x.activeKey = some key := by
  rcases t.insert_cases r with ⟨hrows, _⟩ | ⟨hrows, _, _, x, hx, hxk, _⟩
  · constructor
    · intro hsame
      rw [hrows] at hsame
      have := congrArg List.length hsame
      simp at this
    · rintro ⟨x, hx, hxk⟩
      have hu := (t.insert r).1.unique
      rw [hrows] at hu
      exact absurd hxk (hu.of_append hkey hx)
  · exact iff_of_true hrows ⟨x, hx, hxk.trans hkey⟩

/-- A row outside the index is always inserted. -/
theorem insert_of_activeKey_none {t : JobTable} {r : JobRow} (h : r.payloadHash = none) :
    (t.insert r).1.rows = t.rows ++ [{ r with id := t.nextId }] ∧
      (t.insert r).2 = some t.nextId := by
  rcases t.insert_cases r with ⟨hrows, hid, _⟩ | ⟨_, _, _, x, _, hx, hne⟩
  · exact ⟨hrows, hid⟩
  · exact absurd (hx.trans (by simp [JobRow.activeKey, h])) hne

theorem row_insert {t : JobTable} {r : JobRow} {k : ℕ} (hk : k ≠ t.nextId) :
    (t.insert r).1.row k = t.row k := by
  unfold row
  rcases t.insert_cases r with ⟨hrows, _⟩ | ⟨hrows, _⟩
  · rw [hrows, rowOf_insert (show ({ r with id := t.nextId } : JobRow).id ≠ k from hk.symm)]
  · rw [hrows]

theorem forall_rows_insert {t : JobTable} {r : JobRow} {P : JobRow → Prop}
    (h : ∀ x ∈ t.rows, P x) (hr : P { r with id := t.nextId }) :
    ∀ x ∈ (t.insert r).1.rows, P x := by
  intro x hx
  rcases t.insert_cases r with ⟨hrows, _⟩ | ⟨hrows, _⟩
  · rw [hrows] at hx
    rcases List.mem_append.mp hx with hx | hx
    · exact h x hx
    · rw [List.mem_singleton.mp hx]
      exact hr
  · rw [hrows] at hx
    exact h x hx

/-- The next id is no row's. -/
theorem row_nextId (t : JobTable) : t.row t.nextId = none := by
  cases h : t.row t.nextId with
  | none => rfl
  | some r =>
    obtain ⟨hr, hk⟩ := row_some h
    exact absurd hk (t.id_lt r hr).ne

/-! ## Following one row -/

/-- The row with id `k` is there and satisfies `P`. -/
def At (t : JobTable) (k : ℕ) (P : JobRow → Prop) : Prop := ∃ r, t.row k = some r ∧ P r

section At
variable {t t' : JobTable} {k : ℕ} {P : JobRow → Prop}

theorem At.of_mem {r : JobRow} (hr : r ∈ t.rows) (hP : P r) : t.At r.id P :=
  ⟨r, row_mem hr, hP⟩

theorem At.update {p : JobRow → Bool} {f : JobRow → JobRow} {hid : ∀ r, (f r).id = r.id}
    (h : t.At k P) (hup : t.update p f hid = .ok t')
    (hf : ∀ r ∈ t.rows, r.id = k → P r → p r = true → P (f r)) : t'.At k P := by
  obtain ⟨r, hr, hP⟩ := h
  refine ⟨if p r then f r else r, by rw [row_update hup, hr]; rfl, ?_⟩
  split
  · rename_i hp
    exact hf r (row_some hr).1 (row_some hr).2 hP hp
  · exact hP

theorem At.ne_nextId (h : t.At k P) : k ≠ t.nextId := by
  rintro rfl
  obtain ⟨r, hr, _⟩ := h
  rw [row_nextId] at hr
  cases hr

theorem At.insert {r : JobRow} (h : t.At k P) : (t.insert r).1.At k P := by
  obtain ⟨x, hx, hP⟩ := h
  exact ⟨x, by rw [row_insert (At.ne_nextId ⟨x, hx, hP⟩)]; exact hx, hP⟩

end At

/-- The attempts recorded for job `k`; none when there is no such job. -/
def attemptsOf (t : JobTable) (k : ℕ) : ℕ := ((t.row k).map JobRow.attempts).getD 0

theorem attemptsOf_update {t t' : JobTable} {p : JobRow → Bool} {f : JobRow → JobRow}
    {hid : ∀ r, (f r).id = r.id} (hup : t.update p f hid = .ok t')
    (hf : ∀ r, (f r).attempts = r.attempts) (k : ℕ) : t'.attemptsOf k = t.attemptsOf k := by
  unfold attemptsOf
  rw [row_update hup]
  cases t.row k with
  | none => rfl
  | some r =>
    simp only [Option.map_some, Option.getD_some]
    split
    · exact hf r
    · rfl

theorem attemptsOf_insert (t : JobTable) (r : JobRow) (k : ℕ) :
    t.attemptsOf k ≤ (t.insert r).1.attemptsOf k := by
  by_cases hk : k = t.nextId
  · rw [hk, attemptsOf, row_nextId]
    exact Nat.zero_le _
  · rw [attemptsOf, attemptsOf, row_insert hk]

end JobTable

end FlexQuery
