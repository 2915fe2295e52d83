import Mathlib

/-!
# Groups that meet no row

`GROUP BY` a nullable key, joined on the left with the distinct keys of another table.

* `keysOf` — the keys of a table; a row without one is in no group.
* `leftJoin` — the groups in order, each with its size and whether the other table lacks its key.
* `mem_unmatched` — the groups that the other table lacks.
* `nodup_leftJoin` — each key is the key of one group.
-/

set_option autoImplicit false

namespace LeftJoin

variable {α β κ : Type*} {kl : α → Option κ} {kr : β → Option κ}

/-- The keys of the rows. -/
def keysOf (key : α → Option κ) (rows : List α) : List κ := rows.filterMap key

theorem mem_keysOf {rows : List α} {k : κ} : k ∈ keysOf kl rows ↔ ∃ a ∈ rows, kl a = some k := by
  simp [keysOf]

structure Bucket (κ : Type*) where
  key : κ
  size : ℕ
  unmatched : Bool
  deriving DecidableEq

variable [DecidableEq κ]

/-- `SELECT k, count(*), (r.k IS NULL) FROM l LEFT JOIN (SELECT DISTINCT k FROM r) USING (k)
GROUP BY k ORDER BY k`. -/
def leftJoin (le : κ → κ → Bool) (kl : α → Option κ) (kr : β → Option κ) (l : List α) (r : List β) :
    List (Bucket κ) :=
  ((keysOf kl l).dedup.mergeSort le).map fun k =>
    ⟨k, (keysOf kl l).count k, decide (k ∉ keysOf kr r)⟩

variable {le : κ → κ → Bool} {l : List α} {r : List β}

theorem mem_leftJoin {g : Bucket κ} : g ∈ leftJoin le kl kr l r ↔
    g.key ∈ keysOf kl l ∧ g.size = (keysOf kl l).count g.key ∧
      g.unmatched = decide (g.key ∉ keysOf kr r) := by
  simp only [leftJoin, List.mem_map, List.mem_mergeSort, List.mem_dedup]
  constructor
  · rintro ⟨k, hk, rfl⟩
    exact ⟨hk, rfl, rfl⟩
  · rintro ⟨hk, hsize, hunmatched⟩
    exact ⟨g.key, hk, by rw [← hsize, ← hunmatched]⟩

/-- The keys of the groups are those of the left rows. -/
theorem mem_map_key {k : κ} :
    k ∈ (leftJoin le kl kr l r).map Bucket.key ↔ k ∈ keysOf kl l := by
  simp [leftJoin, Function.comp_def]

theorem nodup_leftJoin : ((leftJoin le kl kr l r).map Bucket.key).Nodup := by
  have hkeys : (leftJoin le kl kr l r).map Bucket.key = (keysOf kl l).dedup.mergeSort le := by
    simp [leftJoin, Function.comp_def]
  rw [hkeys]
  exact (List.mergeSort_perm _ _).nodup_iff.mpr (List.nodup_dedup _)

/-- **The groups that the other table lacks.** -/
theorem mem_unmatched {k : κ} :
    k ∈ ((leftJoin le kl kr l r).filter Bucket.unmatched).map Bucket.key ↔
      k ∈ keysOf kl l ∧ k ∉ keysOf kr r := by
  simp only [List.mem_map, List.mem_filter, mem_leftJoin]
  constructor
  · rintro ⟨g, ⟨⟨hk, _, hunmatched⟩, htrue⟩, rfl⟩
    exact ⟨hk, by simpa [htrue] using hunmatched⟩
  · rintro ⟨hk, hlack⟩
    exact ⟨⟨k, (keysOf kl l).count k, true⟩, ⟨⟨hk, rfl, by simpa using hlack⟩, rfl⟩, rfl⟩

end LeftJoin
