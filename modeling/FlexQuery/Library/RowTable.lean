import Mathlib

/-!
# Tables as lists of rows

* `update p f` — `UPDATE … SET f WHERE p`: row by row, nothing added or removed.
* `rowOf key k` — the row with primary key `k`.
* `UniqueIndex idx` — a partial unique index: `idx r = none` for a row outside it, and no two
  rows share an entry.  An update that adds no entry keeps it (`UniqueIndex.update`), and so
  does an insert of a row whose entry is free (`UniqueIndex.insert`).
* `firstBy` — `ORDER BY … LIMIT 1`.
-/

set_option autoImplicit false

namespace RowTable

variable {ρ κ ι : Type*}

/-- `UPDATE … SET f WHERE p`. -/
def update (p : ρ → Bool) (f : ρ → ρ) (rows : List ρ) : List ρ :=
  rows.map fun r => if p r then f r else r

theorem mem_update {p : ρ → Bool} {f : ρ → ρ} {rows : List ρ} {r' : ρ} :
    r' ∈ update p f rows ↔ ∃ r ∈ rows, (if p r then f r else r) = r' := by
  simp [update]

/-- What holds of every row, and of what the update makes of it, holds after the update. -/
theorem forall_update {p : ρ → Bool} {f : ρ → ρ} {rows : List ρ} {P : ρ → Prop}
    (hkeep : ∀ r ∈ rows, p r = false → P r) (hset : ∀ r ∈ rows, p r = true → P (f r)) :
    ∀ r ∈ update p f rows, P r := by
  intro r' hr'
  obtain ⟨r, hr, rfl⟩ := mem_update.mp hr'
  cases hp : p r with
  | false => simpa [hp] using hkeep r hr hp
  | true => simpa [hp] using hset r hr hp

theorem map_key_update {key : ρ → κ} {p : ρ → Bool} {f : ρ → ρ} (hf : ∀ r, key (f r) = key r)
    (rows : List ρ) : (update p f rows).map key = rows.map key := by
  simp only [update, List.map_map]
  apply List.map_congr_left
  intro r _
  simp only [Function.comp_apply]
  split
  · exact hf r
  · rfl

/-- The row with primary key `k`. -/
def rowOf [DecidableEq κ] (key : ρ → κ) (rows : List ρ) (k : κ) : Option ρ :=
  rows.find? fun r => key r = k

section Rows
variable [DecidableEq κ] {key : ρ → κ}

theorem rowOf_some {rows : List ρ} {k : κ} {r : ρ} (h : rowOf key rows k = some r) :
    r ∈ rows ∧ key r = k :=
  ⟨List.mem_of_find?_eq_some h, by simpa using List.find?_some h⟩

/-- With a primary key, looking a row's key up finds that row. -/
theorem rowOf_mem {rows : List ρ} (hk : (rows.map key).Nodup) {r : ρ} (hr : r ∈ rows) :
    rowOf key rows (key r) = some r := by
  cases h : rowOf key rows (key r) with
  | none =>
    have hne := List.find?_eq_none.mp h r hr
    simp at hne
  | some r' =>
    obtain ⟨hr', he⟩ := rowOf_some h
    rw [List.inj_on_of_nodup_map hk hr' hr he]

theorem rowOf_update {p : ρ → Bool} {f : ρ → ρ} (hf : ∀ r, key (f r) = key r) (rows : List ρ)
    (k : κ) :
    rowOf key (update p f rows) k = (rowOf key rows k).map fun r => if p r then f r else r := by
  simp only [rowOf, update, List.find?_map]
  have hkey : ((fun r => decide (key r = k)) ∘ fun r => if p r then f r else r) =
      fun r => decide (key r = k) := by
    funext r
    simp only [Function.comp_apply]
    split
    · rw [hf]
    · rfl
  rw [hkey]

theorem rowOf_insert {rows : List ρ} {r : ρ} {k : κ} (h : key r ≠ k) :
    rowOf key (rows ++ [r]) k = rowOf key rows k := by
  simp [rowOf, List.find?_append, h]

end Rows

/-! ## Partial unique indexes -/

/-- No two rows share an index entry; `idx r = none` for a row the index leaves out. -/
def UniqueIndex (idx : ρ → Option ι) (rows : List ρ) : Prop := (rows.filterMap idx).Nodup

theorem UniqueIndex.update {idx : ρ → Option ι} {p : ρ → Bool} {f : ρ → ρ} {rows : List ρ}
    (h : UniqueIndex idx rows)
    (hidx : ∀ r ∈ rows, p r = true → idx (f r) = idx r ∨ idx (f r) = none) :
    UniqueIndex idx (update p f rows) := by
  refine List.Nodup.sublist ?_ h
  clear h
  induction rows with
  | nil => exact List.Sublist.refl _
  | cons r rows ih =>
    have hrest := ih fun x hx => hidx x (List.mem_cons_of_mem _ hx)
    have hhead : idx (if p r then f r else r) = idx r ∨ idx (if p r then f r else r) = none := by
      cases hp : p r with
      | false => exact Or.inl (by simp)
      | true => simpa using hidx r List.mem_cons_self hp
    simp only [RowTable.update, List.map_cons, List.filterMap_cons] at hrest ⊢
    rcases hhead with hsame | hgone
    · rw [hsame]
      cases idx r with
      | none => exact hrest
      | some k => exact hrest.cons_cons k
    · rw [hgone]
      cases idx r with
      | none => exact hrest
      | some k => exact hrest.cons k

theorem UniqueIndex.insert {idx : ρ → Option ι} {rows : List ρ} {r : ρ}
    (h : UniqueIndex idx rows) (hfree : ∀ k, idx r = some k → ∀ x ∈ rows, idx x ≠ some k) :
    UniqueIndex idx (rows ++ [r]) := by
  unfold UniqueIndex at *
  rw [List.filterMap_append]
  cases hr : idx r with
  | none => simpa [List.filterMap_cons, hr] using h
  | some k =>
    simp only [List.filterMap_cons, hr, List.filterMap_nil]
    refine List.Nodup.append h (List.nodup_singleton k) ?_
    intro j hj hk
    obtain ⟨x, hx, hxj⟩ := List.mem_filterMap.mp hj
    exact hfree k hr x hx (by rw [hxj, List.mem_singleton.mp hk])

/-- A row that could be appended shares its entry with no other row. -/
theorem UniqueIndex.of_append {idx : ρ → Option ι} {rows : List ρ} {r x : ρ} {k : ι}
    (h : UniqueIndex idx (rows ++ [r])) (hr : idx r = some k) (hx : x ∈ rows) :
    idx x ≠ some k := by
  unfold UniqueIndex at h
  rw [List.filterMap_append, List.nodup_append] at h
  intro hxk
  refine h.2.2 k (List.mem_filterMap.mpr ⟨x, hx, hxk⟩) k ?_ rfl
  simp [hr]

/-! ## `ORDER BY … LIMIT 1` -/

/-- The row that sorts first; of rows that sort alike, the earliest. -/
def firstBy (before : ρ → ρ → Bool) : List ρ → Option ρ
  | [] => none
  | r :: rows =>
    match firstBy before rows with
    | none => some r
    | some m => if before m r then some m else some r

theorem firstBy_mem {before : ρ → ρ → Bool} {rows : List ρ} {r : ρ}
    (h : firstBy before rows = some r) : r ∈ rows := by
  induction rows generalizing r with
  | nil => cases h
  | cons x rows ih =>
    simp only [firstBy] at h
    split at h
    · cases h; exact List.mem_cons_self
    · rename_i m hm
      split at h
      · cases h; exact List.mem_cons_of_mem _ (ih hm)
      · cases h; exact List.mem_cons_self

theorem firstBy_eq_none {before : ρ → ρ → Bool} {rows : List ρ} :
    firstBy before rows = none ↔ rows = [] := by
  cases rows with
  | nil => simp [firstBy]
  | cons x rows =>
    simp only [firstBy, reduceCtorEq, iff_false]
    split
    · simp
    · split <;> simp

/-- Where `before` is the strict part of a total preorder, no row sorts before the first. -/
theorem firstBy_least {before : ρ → ρ → Bool}
    (hasymm : ∀ a b, before a b = true → before b a = false)
    (htrans : ∀ a b c, before a b = false → before b c = false → before a c = false)
    {rows : List ρ} {r : ρ} (h : firstBy before rows = some r) :
    ∀ x ∈ rows, before x r = false := by
  have hirrefl : ∀ a, before a a = false := by
    intro a
    cases ha : before a a with
    | false => rfl
    | true => exact ha ▸ hasymm a a ha
  induction rows generalizing r with
  | nil => cases h
  | cons y rows ih =>
    intro x hx
    simp only [firstBy] at h
    cases hm : firstBy before rows with
    | none =>
      rw [hm] at h
      cases h
      rw [firstBy_eq_none.mp hm, List.mem_singleton] at hx
      rw [hx]
      exact hirrefl y
    | some m =>
      simp only [hm] at h
      split at h
      · rename_i hmy
        cases h
        rcases List.mem_cons.mp hx with rfl | hx
        · exact hasymm _ _ hmy
        · exact ih hm x hx
      · rename_i hmy
        cases h
        rcases List.mem_cons.mp hx with rfl | hx
        · exact hirrefl x
        · exact htrans x m y (ih hm x hx) (Bool.eq_false_of_not_eq_true hmy)

end RowTable
