import FlexQuery.Library.Exposition
import FlexQuery.Library.Grouping

/-!
# Families of samples

* `Block` — the heads of some families, one after the other, and then the samples of them all.
* `OwnHeads` — every family has one head, in the block of its samples.
* `grouped_iff` — the lines of each metric are together exactly when the samples of a block are of
  the family whose head comes last.
* `headed_linesOf` — a metric's head comes once, before its samples.
* `distinct_iff` — samples can only coincide within a block.
-/

set_option autoImplicit false

namespace Exposition

open Grouping

structure Family where
  name : String
  kind : String
  help : String

def Family.head (f : Family) : List Line := [.help f.name f.help, .type f.name f.kind]

structure Block where
  families : List Family
  samples : List SampleLine

namespace Block

def names (b : Block) : List String := b.families.map Family.name

def lines (b : Block) : List Line := b.families.flatMap Family.head ++ b.samples.map .sample

end Block

def linesOf (blocks : List Block) : List Line := blocks.flatMap Block.lines

structure OwnHeads (blocks : List Block) : Prop where
  once : (blocks.flatMap Block.names).Nodup
  owned : ∀ b ∈ blocks, ∀ s ∈ b.samples, s.name ∈ b.names

/-! ## What a text must be -/

/-- What is said about a metric comes once, before its samples. -/
def Headed (ls : List Line) : Prop :=
  ∀ n ∈ ls.map Line.name, ∃ (text kind : String) (samples : List SampleLine),
    ls.filter (·.name = n) = .help n text :: .type n kind :: samples.map .sample

def sampleLines (ls : List Line) : List SampleLine :=
  ls.filterMap fun
    | .sample s => some s
    | _ => none

/-- What no two samples may share. -/
def SampleLine.series (s : SampleLine) : String × List (String × String) := (s.name, s.labels)

def Distinct (ls : List Line) : Prop := ((sampleLines ls).map SampleLine.series).Nodup

/-! ## When it is -/

section
variable {blocks : List Block}

theorem head_name (f : Family) : ∀ l ∈ f.head, l.name = f.name := by
  simp [Family.head, Line.name]

theorem mem_names {b : Block} (howned : ∀ s ∈ b.samples, s.name ∈ b.names) {l : Line}
    (hl : l ∈ b.lines) : l.name ∈ b.names := by
  rcases List.mem_append.mp hl with hl | hl
  · obtain ⟨f, hf, hhead⟩ := List.mem_flatMap.mp hl
    rw [head_name f l hhead]
    exact List.mem_map_of_mem hf
  · obtain ⟨s, hs, rfl⟩ := List.mem_map.mp hl
    exact howned s hs

theorem OwnHeads.names_nodup (h : OwnHeads blocks) {b : Block} (hb : b ∈ blocks) :
    b.names.Nodup := by
  have honce := h.once
  rw [List.flatMap_def, List.nodup_flatten] at honce
  exact honce.1 _ (List.mem_map_of_mem hb)

/-- The blocks have no metric in common. -/
theorem OwnHeads.apart (h : OwnHeads blocks) : Apart Line.name (blocks.map Block.lines) := by
  have honce := h.once
  rw [List.flatMap_def, List.nodup_flatten, List.pairwise_map] at honce
  rw [Apart, List.pairwise_map]
  refine honce.2.imp_of_mem ?_
  intro a b ha hb hdisjoint x hx y hy hname
  have hx' := mem_names (h.owned a ha) hx
  rw [hname] at hx'
  exact hdisjoint hx' (mem_names (h.owned b hb) hy)

theorem grouped_iff (h : OwnHeads blocks) : Grouped Line.name (linesOf blocks) ↔
    ∀ b ∈ blocks, ∀ s ∈ b.samples, b.names.getLast? = some s.name := by
  rw [linesOf, List.flatMap_def, grouped_flatten h.apart, List.forall_mem_map]
  refine forall₂_congr fun b hb => ?_
  have hbody : ∀ l ∈ b.samples.map Line.sample, l.name ∈ b.families.map Family.name := by
    intro l hl
    obtain ⟨s, hs, rfl⟩ := List.mem_map.mp hl
    exact h.owned b hb s hs
  have hsome : ∀ f : Family, f.head ≠ [] := by
    intro f
    simp [Family.head]
  rw [Block.lines, grouped_headed (h.names_nodup hb) head_name hsome hbody, List.forall_mem_map]
  rfl

theorem headed_linesOf (h : OwnHeads blocks) : Headed (linesOf blocks) := by
  intro n hn
  obtain ⟨l, hl, hname⟩ := List.mem_map.mp hn
  obtain ⟨b, hb, hlb⟩ := List.mem_flatMap.mp hl
  obtain ⟨f, hf, hfl⟩ := List.mem_map.mp (mem_names (h.owned b hb) hlb)
  have hfn : f.name = n := hfl.trans hname
  refine ⟨f.help, f.kind, b.samples.filter fun s => decide (s.name = n), ?_⟩
  -- the block, and within it the head
  have hmem : n ∈ b.lines.map Line.name := List.mem_map.mpr ⟨l, hlb, hname⟩
  have hmem' : n ∈ f.head.map Line.name := by
    simp [Family.head, Line.name, hfn]
  have hheads : (b.families.flatMap Family.head).filter (fun x => decide (x.name = n)) =
      [.help n f.help, .type n f.kind] := by
    rw [List.flatMap_def, filter_flatten (apart_map (h.names_nodup hb) head_name)
      (List.mem_map_of_mem hf) hmem']
    simp [Family.head, Line.name, hfn]
  rw [linesOf, List.flatMap_def, filter_flatten h.apart (List.mem_map_of_mem hb) hmem,
    Block.lines, List.filter_append, hheads, List.filter_map]
  rfl

theorem sampleLines_linesOf (blocks : List Block) :
    sampleLines (linesOf blocks) = blocks.flatMap Block.samples := by
  unfold sampleLines linesOf
  rw [List.filterMap_flatMap]
  congr 1
  funext b
  have hheads : ∀ families : List Family, (families.flatMap Family.head).filterMap
      (fun l => match l with
        | .sample s => some s
        | _ => none) = [] := by
    intro families
    rw [List.filterMap_flatMap]
    simp [Family.head]
  rw [Block.lines, List.filterMap_append, hheads, List.filterMap_map]
  simp

theorem distinct_iff (h : OwnHeads blocks) : Distinct (linesOf blocks) ↔
    ∀ b ∈ blocks, (b.samples.map SampleLine.series).Nodup := by
  rw [Distinct, sampleLines_linesOf, List.map_flatMap, List.flatMap_def, List.nodup_flatten,
    List.forall_mem_map, List.pairwise_map, and_iff_left]
  have honce := h.once
  rw [List.flatMap_def, List.nodup_flatten, List.pairwise_map] at honce
  refine honce.2.imp_of_mem ?_
  intro a b ha hb hdisjoint series hsa hsb
  obtain ⟨s, hs, rfl⟩ := List.mem_map.mp hsa
  obtain ⟨t, ht, hseries⟩ := List.mem_map.mp hsb
  have hname : t.name = s.name := congrArg Prod.fst hseries
  have ht' := h.owned b hb t ht
  rw [hname] at ht'
  exact hdisjoint (h.owned a ha s hs) ht'

/-- Blocks that can be read back, line by line. -/
theorem readText_linesOf
    (hfamilies : ∀ b ∈ blocks, ∀ f ∈ b.families,
      isName isMetricStart isMetricChar f.name.toList = true ∧ '\n' ∉ f.help.toList ∧
        '\n' ∉ f.kind.toList)
    (hsamples : ∀ b ∈ blocks, ∀ s ∈ b.samples, s.Readable) :
    readText (linesText (linesOf blocks)) = some (linesOf blocks) := by
  apply readText_linesText
  intro l hl
  obtain ⟨b, hb, hlb⟩ := List.mem_flatMap.mp hl
  rcases List.mem_append.mp hlb with hlb | hlb
  · obtain ⟨f, hf, hhead⟩ := List.mem_flatMap.mp hlb
    obtain ⟨hname, hhelp, hkind⟩ := hfamilies b hb f hf
    rcases List.mem_pair.mp hhead with rfl | rfl
    · exact ⟨hname, hhelp⟩
    · exact ⟨hname, hkind⟩
  · obtain ⟨s, hs, rfl⟩ := List.mem_map.mp hlb
    exact hsamples b hb s hs

end

end Exposition
