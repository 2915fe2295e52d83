import Mathlib

/-!
# Elements of one key, one after the other

* `Grouped key l` — between two elements of a key stand only elements of that key.
* `Apart key ls` — no two of the lists share a key.
* `grouped_flatten` — such lists are grouped, one after the other, exactly when each of them is.
* `filter_flatten` — the elements of a key all come from one of them.
* `grouped_headed` — several heads before a common body: only the last head's key may go on.
-/

set_option autoImplicit false

namespace Grouping

variable {α β κ : Type*} {key : α → κ}

def Grouped (key : α → κ) (l : List α) : Prop :=
  ∀ x y z, [x, y, z].Sublist l → key x = key z → key y = key x

def Apart (key : α → κ) (ls : List (List α)) : Prop :=
  ls.Pairwise fun a b => ∀ x ∈ a, ∀ y ∈ b, key x ≠ key y

theorem Grouped.sublist {a b : List α} (h : Grouped key b) (hsub : a.Sublist b) : Grouped key a :=
  fun x y z hxyz => h x y z (hxyz.trans hsub)

theorem grouped_of_const {l : List α} (k : κ) (h : ∀ x ∈ l, key x = k) : Grouped key l := by
  intro x y z hxyz _
  have hx : x ∈ l := hxyz.mem (by simp)
  have hy : y ∈ l := hxyz.mem (by simp)
  rw [h x hx, h y hy]

/-- Two lists without a common key. -/
theorem grouped_append {a b : List α} (hne : ∀ x ∈ a, ∀ y ∈ b, key x ≠ key y) :
    Grouped key (a ++ b) ↔ Grouped key a ∧ Grouped key b := by
  constructor
  · intro h
    exact ⟨h.sublist (List.sublist_append_left a b), h.sublist (List.sublist_append_right a b)⟩
  · rintro ⟨ha, hb⟩ x y z hxyz hkey
    obtain ⟨before, after, hsplit, hbefore, hafter⟩ := List.sublist_append_iff.mp hxyz
    -- `x` and `z` have one key, so they stand in the same list, and `y` between them
    cases before with
    | nil =>
      rw [List.nil_append] at hsplit
      exact hb x y z (hsplit ▸ hafter) hkey
    | cons p rest =>
      obtain ⟨rfl, hrest⟩ := List.cons.inj hsplit
      have hx : x ∈ a := hbefore.mem List.mem_cons_self
      by_cases hz : z ∈ after
      · exact absurd hkey (hne x hx z (hafter.mem hz))
      · have hend : after = [] := by
          cases hlast : after.getLast? with
          | none => exact List.getLast?_eq_none_iff.mp hlast
          | some w =>
            have hw : ([y, z] : List α).getLast? = some w := by
              rw [hrest, List.append_eq, List.getLast?_append, hlast]
              rfl
            cases hw
            exact absurd (List.mem_of_getLast? hlast) hz
        rw [hend, List.append_nil] at hsplit
        exact ha x y z (hsplit ▸ hbefore) hkey

/-- Any number of them. -/
theorem grouped_flatten {ls : List (List α)} (h : Apart key ls) :
    Grouped key ls.flatten ↔ ∀ l ∈ ls, Grouped key l := by
  induction ls with
  | nil =>
    have hnil : Grouped key ([] : List α) := by
      intro x y z hxyz
      cases hxyz
    simp [hnil]
  | cons a ls ih =>
    obtain ⟨ha, hrest⟩ := List.pairwise_cons.mp h
    have hne : ∀ x ∈ a, ∀ y ∈ ls.flatten, key x ≠ key y := by
      intro x hx y hy
      obtain ⟨b, hb, hyb⟩ := List.mem_flatten.mp hy
      exact ha b hb x hx y hyb
    rw [List.flatten_cons, grouped_append hne, ih hrest, List.forall_mem_cons]

theorem filter_flatten [DecidableEq κ] {ls : List (List α)} (h : Apart key ls) {l : List α}
    (hl : l ∈ ls) {k : κ} (hk : k ∈ l.map key) :
    ls.flatten.filter (key · = k) = l.filter (key · = k) := by
  have hother : ∀ a : List α, k ∉ a.map key → a.filter (key · = k) = [] := by
    intro a ha
    rw [List.filter_eq_nil_iff]
    intro x hx hkey
    exact ha (List.mem_map.mpr ⟨x, hx, of_decide_eq_true hkey⟩)
  obtain ⟨x, hx, rfl⟩ := List.mem_map.mp hk
  induction ls with
  | nil => cases hl
  | cons a ls ih =>
    obtain ⟨ha, hrest⟩ := List.pairwise_cons.mp h
    rw [List.flatten_cons, List.filter_append]
    rcases List.mem_cons.mp hl with rfl | hl
    · have hlater : key x ∉ ls.flatten.map key := by
        intro hmem
        obtain ⟨y, hy, hkey⟩ := List.mem_map.mp hmem
        obtain ⟨b, hb, hyb⟩ := List.mem_flatten.mp hy
        exact ha b hb x hx y hyb hkey.symm
      rw [hother _ hlater, List.append_nil]
    · have hfirst : key x ∉ a.map key := by
        intro hmem
        obtain ⟨y, hy, hkey⟩ := List.mem_map.mp hmem
        exact ha l hl y hy x hx hkey
      rw [hother _ hfirst, List.nil_append, ih hrest hl]

/-! ## Heads before a body -/

section
variable {name : β → κ} {head : β → List α}

/-- Heads of different names. -/
theorem apart_map {bs : List β} (hnames : (bs.map name).Nodup)
    (hhead : ∀ b, ∀ x ∈ head b, key x = name b) : Apart key (bs.map head) := by
  rw [Apart, List.pairwise_map]
  refine (List.pairwise_map.mp hnames).imp ?_
  intro b c hne x hx y hy hkey
  rw [hhead b x hx, hhead c y hy] at hkey
  exact hne hkey

/-- **Several heads, then one body.**  It is grouped only where the body goes on with the last. -/
theorem grouped_headed {bs : List β} (hnames : (bs.map name).Nodup)
    (hhead : ∀ b, ∀ x ∈ head b, key x = name b) (hsome : ∀ b, head b ≠ []) {body : List α}
    (hbody : ∀ x ∈ body, key x ∈ bs.map name) :
    Grouped key (bs.flatMap head ++ body) ↔
      ∀ x ∈ body, (bs.map name).getLast? = some (key x) := by
  constructor
  · intro h x hx
    obtain ⟨b, hb, hkey⟩ := List.mem_map.mp (hbody x hx)
    obtain ⟨before, after, rfl⟩ := List.append_of_mem hb
    cases after with
    | nil => simp [hkey]
    | cons c after =>
      -- another head stands between this one and the body
      obtain ⟨u, hu⟩ := List.exists_mem_of_ne_nil _ (hsome b)
      obtain ⟨v, hv⟩ := List.exists_mem_of_ne_nil _ (hsome c)
      have hsub : [u, v, x].Sublist ((before ++ b :: c :: after).flatMap head ++ body) := by
        have hrest : [u, v].Sublist ((before ++ b :: c :: after).flatMap head) := by
          rw [List.flatMap_append, List.flatMap_cons, List.flatMap_cons]
          refine List.Sublist.trans ?_ (List.sublist_append_right _ _)
          exact (List.singleton_sublist.mpr hu).append
            ((List.singleton_sublist.mpr hv).trans (List.sublist_append_left _ _))
        exact hrest.append (List.singleton_sublist.mpr hx)
      have hsame := h u v x hsub (by rw [hhead b u hu, hkey])
      rw [hhead b u hu, hhead c v hv] at hsame
      simp [hsame, List.nodup_append] at hnames
  · intro h
    rcases List.eq_nil_or_concat bs with rfl | ⟨before, b, rfl⟩
    · have hnil : body = [] := List.eq_nil_iff_forall_not_mem.mpr fun x hx => by
        simpa using hbody x hx
      intro x y z hxyz
      simp [hnil] at hxyz
    · have hlast : ∀ x ∈ body, key x = name b := by
        intro x hx
        simpa [eq_comm] using h x hx
      have hrest : ∀ x ∈ head b ++ body, key x = name b := by
        intro x hx
        rcases List.mem_append.mp hx with hx | hx
        · exact hhead b x hx
        · exact hlast x hx
      have hnames' := hnames
      rw [List.concat_eq_append, List.map_append, List.nodup_append] at hnames'
      have hne : ∀ x ∈ before.flatMap head, ∀ y ∈ head b ++ body, key x ≠ key y := by
        intro x hx y hy hkey
        obtain ⟨c, hc, hxc⟩ := List.mem_flatMap.mp hx
        rw [hhead c x hxc, hrest y hy] at hkey
        exact hnames'.2.2 _ (List.mem_map_of_mem hc) _ (by simp) hkey
      rw [List.concat_eq_append, List.flatMap_append, List.append_assoc, List.flatMap_singleton,
        grouped_append hne]
      refine ⟨?_, grouped_of_const _ hrest⟩
      rw [List.flatMap_def, grouped_flatten (apart_map hnames'.1 hhead)]
      intro l hl
      obtain ⟨c, -, rfl⟩ := List.mem_map.mp hl
      exact grouped_of_const _ (hhead c)

end

end Grouping
