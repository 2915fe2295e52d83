import FlexQuery.Client.FlexClient
import FlexQuery.Library.Interval

/-!
# The cash-transactions window

`transactions_window` and `split_window` of `orchestration/transactions.py`.  Every date addition
may leave the calendar, and then raises.

* `transactionsWindow` — from the oldest last day of any account, at least the margin.
* `splitWindow` — consecutive chunks of at most `max_span_days` days between both ends.
* `splitWindow_spec` — the chunks tile the window, and all but the last are full.
* `transactions_windows_exact` — both together: the window reaches back as far as it should, its
  chunks cover it exactly with as few requests as possible, and each passes the client's check.
-/

set_option autoImplicit false

namespace FlexQuery

open Interval

/-- `MAX_FLEX_DAYS - 2`. -/
def CHUNK_MAX_SPAN_DAYS : ℕ := 364

inductive RangeMode where
  | manual
  | auto
  | init
  | incremental
  deriving DecidableEq, Repr

def RangeMode.text : RangeMode → String
  | manual => "manual"
  | auto => "auto"
  | init => "init"
  | incremental => "incremental"

/-- A scheduled window: `(from, to, mode, days)`. -/
structure Window where
  start : Date
  stop : Date
  mode : RangeMode
  days : ℤ
  deriving DecidableEq, Repr

/-- `min(dates)`, for a first date and the others. -/
def minDate (d : Date) (ds : List Date) : Date := ds.foldl min d

/-- `transactions_window`; the map is a list of its items. -/
def transactionsWindow (lastDates : List (String × Date)) (defaultDays initDays : ℤ)
    (today : Date) : Except PyExc Window :=
  match today.addDays (-1) with
  | .error e => .error e
  | .ok yesterday =>
    match lastDates with
    | [] =>
      match yesterday.addDays (-(max 1 initDays)) with
      | .error e => .error e
      | .ok start => .ok ⟨start, yesterday, .init, yesterday.daysSince start⟩
    | entry :: rest =>
      match yesterday.addDays (-(max 1 defaultDays)) with
      | .error e => .error e
      | .ok margin =>
        let start := min (minDate entry.2 (rest.map (·.2))) margin
        .ok ⟨start, yesterday, .incremental, yesterday.daysSince start⟩

theorem minDate_le (d : Date) (ds : List Date) :
    minDate d ds ≤ d ∧ ∀ e ∈ ds, minDate d ds ≤ e := by
  induction ds generalizing d with
  | nil => exact ⟨le_refl d, nofun⟩
  | cons x xs ih =>
    obtain ⟨hmin, hall⟩ := ih (min d x)
    refine ⟨hmin.trans (min_le_left d x), ?_⟩
    intro e he
    rcases List.mem_cons.mp he with rfl | he
    · exact hmin.trans (min_le_right d e)
    · exact hall e he

theorem minDate_mem (d : Date) (ds : List Date) : minDate d ds = d ∨ minDate d ds ∈ ds := by
  induction ds generalizing d with
  | nil => exact Or.inl rfl
  | cons x xs ih =>
    rcases ih (min d x) with h | h
    · rcases min_choice d x with hd | hx
      · exact Or.inl (h.trans hd)
      · exact Or.inr (List.mem_cons.mpr (Or.inl (h.trans hx)))
    · exact Or.inr (List.mem_cons_of_mem _ h)

/-- The margin a scheduled window keeps before yesterday. -/
def windowMargin (lastDates : List (String × Date)) (defaultDays initDays : ℤ) : ℤ :=
  if lastDates = [] then max 1 initDays else max 1 defaultDays

/-- What a scheduled window is: the exact start, in day numbers. -/
theorem transactionsWindow_ok {lastDates : List (String × Date)} {defaultDays initDays : ℤ}
    {today : Date} {w : Window} (h : transactionsWindow lastDates defaultDays initDays today = .ok w) :
    w.stop.ord = today.ord - 1 ∧ w.days = w.stop.ord - w.start.ord ∧
      w.start.ord ≤ w.stop.ord - windowMargin lastDates defaultDays initDays ∧
      (∀ e ∈ lastDates, w.start ≤ e.2) ∧
      (w.start.ord = w.stop.ord - windowMargin lastDates defaultDays initDays ∨
        ∃ e ∈ lastDates, w.start = e.2) ∧
      w.mode = if lastDates = [] then .init else .incremental := by
  unfold transactionsWindow at h
  split at h
  · cases h
  · rename_i yesterday hy
    have hyord := Date.addDays_eq_ok.mp hy
    split at h
    · split at h
      · cases h
      · rename_i start hs
        cases h
        have hsord := Date.addDays_eq_ok.mp hs
        have hstart : start.ord = yesterday.ord - windowMargin [] defaultDays initDays := by
          simp only [windowMargin, if_true]
          omega
        exact ⟨hyord, rfl, hstart.le, nofun, Or.inl hstart, rfl⟩
    · rename_i entry rest
      split at h
      · cases h
      · rename_i margin hm
        cases h
        have hmord := Date.addDays_eq_ok.mp hm
        obtain ⟨hmin, hall⟩ := minDate_le entry.2 (rest.map (·.2))
        have hmargin : windowMargin (entry :: rest) defaultDays initDays = max 1 defaultDays := by
          simp [windowMargin]
        have hm : margin.ord = yesterday.ord - windowMargin (entry :: rest) defaultDays initDays := by
          rw [hmargin]
          omega
        refine ⟨hyord, rfl, ?_, ?_, ?_, by simp⟩
        · exact hm ▸ Date.le_iff.mp (min_le_right (minDate entry.2 (rest.map (·.2))) margin)
        · intro e he
          rcases List.mem_cons.mp he with rfl | he
          · exact (min_le_left _ _).trans hmin
          · exact (min_le_left _ _).trans (hall e.2 (List.mem_map_of_mem he))
        · rcases min_choice (minDate entry.2 (rest.map (·.2))) margin with hd | hd
          · apply Or.inr
            rcases minDate_mem entry.2 (rest.map (·.2)) with he | he
            · exact ⟨entry, List.mem_cons_self, hd.trans he⟩
            · obtain ⟨e, hmem, hee⟩ := List.mem_map.mp he
              exact ⟨e, List.mem_cons_of_mem _ hmem, by simp only [hd]; exact hee.symm⟩
          · exact Or.inl ((congrArg Date.ord hd).trans hm)

/-- The window exists as long as its margin stays inside the calendar. -/
theorem transactionsWindow_isOk {lastDates : List (String × Date)} {defaultDays initDays : ℤ}
    {today : Date} (h : 1 ≤ today.ord - 1 - windowMargin lastDates defaultDays initDays) :
    ∃ w, transactionsWindow lastDates defaultDays initDays today = .ok w := by
  have hmax := today.le_max
  have hpos : 1 ≤ windowMargin lastDates defaultDays initDays := by
    unfold windowMargin
    split <;> exact le_max_left _ _
  obtain ⟨yesterday, hy, hyord⟩ := today.addDays_isOk (n := -1) (by omega) (by omega)
  unfold transactionsWindow
  rw [hy]
  cases lastDates with
  | nil =>
    simp only [windowMargin, if_true] at h hpos
    obtain ⟨start, hs, _⟩ := yesterday.addDays_isOk (n := -(max 1 initDays)) (by omega) (by omega)
    simp only [hs]
    exact ⟨_, rfl⟩
  | cons entry rest =>
    simp only [windowMargin, reduceCtorEq, if_false] at h hpos
    obtain ⟨margin, hm, _⟩ :=
      yesterday.addDays_isOk (n := -(max 1 defaultDays)) (by omega) (by omega)
    simp only [hm]
    exact ⟨_, rfl⟩

/-! ## Chunks -/

/-- Each round of the loop brings `cur` closer to the end. -/
theorem splitFrom_decreases {stop cur reach next : Date} {m : ℕ} (hle : cur ≤ stop)
    (hr : cur.addDays m = .ok reach) (hn : (min stop reach).addDays 1 = .ok next) :
    (stop.ord + 1 - next.ord).toNat < (stop.ord + 1 - cur.ord).toNat := by
  have hreach := Date.addDays_eq_ok.mp hr
  have hnext := Date.addDays_eq_ok.mp hn
  have hcur := Date.le_iff.mp hle
  rw [Date.min_ord] at hnext
  omega

/-- The `while cur <= end` loop. -/
def splitFrom (stop : Date) (m : ℕ) (cur : Date) : Except PyExc (List (Date × Date)) :=
  if hle : cur ≤ stop then
    match hr : cur.addDays m with
    | .error e => .error e
    | .ok reach =>
      match hn : (min stop reach).addDays 1 with
      | .error e => .error e
      | .ok next =>
        have := splitFrom_decreases hle hr hn
        match splitFrom stop m next with
        | .error e => .error e
        | .ok chunks => .ok ((cur, min stop reach) :: chunks)
  else .ok []
termination_by (stop.ord + 1 - cur.ord).toNat

/-- `split_window`. -/
def splitWindow (start stop : Date) (m : ℕ) : Except PyExc (List (Date × Date)) :=
  if stop < start then .ok [(start, stop)] else splitFrom stop m start

/-- The chunks in day numbers. -/
def dayNumbers (chunks : List (Date × Date)) : List (ℤ × ℤ) :=
  chunks.map fun c => (c.1.ord, c.2.ord)

/-- The first day of the last chunk. -/
def lastChunkStart (start stop : ℤ) (m : ℕ) : ℤ := start + (stop - start) / (m + 1) * (m + 1)

/-- The additions of the loop stay inside the calendar. -/
def InCalendar (start stop : Date) (m : ℕ) : Prop :=
  lastChunkStart start.ord stop.ord m + m ≤ 3652059 ∧ stop.ord + 1 ≤ 3652059

theorem lastChunkStart_next (start stop : ℤ) (m : ℕ) :
    lastChunkStart (start + m + 1) stop m = lastChunkStart start stop m := by
  unfold lastChunkStart
  have hdiv : (stop - (start + m + 1)) / ((m : ℤ) + 1) = (stop - start) / ((m : ℤ) + 1) - 1 := by
    rw [show stop - (start + m + 1) = stop - start + (-1) * ((m : ℤ) + 1) by ring,
      Int.add_mul_ediv_right _ _ (by omega)]
    ring
  rw [hdiv]
  ring

theorem le_lastChunkStart {start stop : ℤ} {m : ℕ} (h : start ≤ stop) :
    start ≤ lastChunkStart start stop m := by
  unfold lastChunkStart
  have : 0 ≤ (stop - start) / ((m : ℤ) + 1) * (m + 1) :=
    mul_nonneg (Int.ediv_nonneg (by omega) (by omega)) (by omega)
  omega

/-- The chunks of `[a, b]`: a tiling, no chunk longer than `m` days, and only the last one
shorter. -/
structure ChunksOf (a b : ℤ) (m : ℕ) (cs : List (ℤ × ℤ)) : Prop where
  tiles : Tiles a b cs
  spans : ∀ c ∈ cs, c.2 - c.1 ≤ m
  full : Full m cs

theorem ChunksOf.cons {a b c : ℤ} {m : ℕ} {cs : List (ℤ × ℤ)} (h : ChunksOf (c + 1) b m cs)
    (hac : a ≤ c) (hc : c - a ≤ m) (hfull : c < b → c - a = m) :
    ChunksOf a b m ((a, c) :: cs) where
  tiles := ⟨rfl, hac, h.tiles⟩
  spans := by
    intro d hd
    rcases List.mem_cons.mp hd with rfl | hd
    · exact hc
    · exact h.spans d hd
  full := by
    cases cs with
    | nil => trivial
    | cons d ds =>
      have hlt := h.tiles.bounds d List.mem_cons_self
      exact ⟨hfull (by omega), h.full⟩

/-- One round of the loop. -/
theorem splitFrom_eq {stop cur : Date} {m : ℕ} (hle : cur ≤ stop) :
    splitFrom stop m cur =
      match cur.addDays m with
      | .error e => .error e
      | .ok reach =>
        match (min stop reach).addDays 1 with
        | .error e => .error e
        | .ok next =>
          match splitFrom stop m next with
          | .error e => .error e
          | .ok chunks => .ok ((cur, min stop reach) :: chunks) := by
  rw [splitFrom]
  simp only [hle, dif_pos]
  split
  · rename_i e hr
    rw [hr]
  · rename_i reach hr
    simp only [hr]
    split
    · rename_i e hn
      simp only [hn]
    · rename_i next hn
      simp only [hn]

theorem splitFrom_end {stop cur : Date} {m : ℕ} (h : ¬ cur ≤ stop) :
    splitFrom stop m cur = .ok [] := by
  rw [splitFrom, dif_neg h]

/-- **The loop**, by induction on the days left: what it returns are the chunks of
`[cur, stop]`. -/
theorem splitFrom_chunks {stop : Date} {m : ℕ} (n : ℕ) {cur : Date} {chunks : List (Date × Date)}
    (hn : (stop.ord + 1 - cur.ord).toNat ≤ n) (hle : cur.ord ≤ stop.ord + 1)
    (h : splitFrom stop m cur = .ok chunks) : ChunksOf cur.ord stop.ord m (dayNumbers chunks) := by
  induction n generalizing cur chunks with
  | zero =>
    have hend : cur.ord = stop.ord + 1 := by omega
    have hgt : ¬ cur ≤ stop := by
      intro h
      have := Date.le_iff.mp h
      omega
    rw [splitFrom_end hgt] at h
    cases h
    exact ⟨hend, nofun, trivial⟩
  | succ n ih =>
    by_cases hcur : cur ≤ stop
    · have hcur' := Date.le_iff.mp hcur
      cases hr : cur.addDays m with
      | error e =>
        rw [splitFrom_eq hcur, hr] at h
        cases h
      | ok reach =>
        have hreach := Date.addDays_eq_ok.mp hr
        have hmin := Date.min_ord stop reach
        cases hnx : (min stop reach).addDays 1 with
        | error e =>
          simp only [splitFrom_eq hcur, hr, hnx] at h
          cases h
        | ok next =>
          have hnext := Date.addDays_eq_ok.mp hnx
          simp only [splitFrom_eq hcur, hr, hnx] at h
          split at h
          · cases h
          · rename_i rest hrest
            cases h
            have hspec := ih (by omega) (by omega) hrest
            rw [hnext] at hspec
            exact hspec.cons (by omega) (by omega) (by omega)
    · have hgt : stop.ord < cur.ord := not_le.mp fun h => hcur (Date.le_iff.mpr h)
      have hend : cur.ord = stop.ord + 1 := by omega
      rw [splitFrom_end hcur] at h
      cases h
      exact ⟨hend, nofun, trivial⟩

/-- It ends, as long as its additions stay inside the calendar. -/
theorem splitFrom_isOk {stop : Date} {m : ℕ} (n : ℕ) {cur : Date}
    (hn : (stop.ord + 1 - cur.ord).toNat ≤ n) (hcal : cur ≤ stop → InCalendar cur stop m) :
    ∃ chunks, splitFrom stop m cur = .ok chunks := by
  induction n generalizing cur with
  | zero =>
    have hgt : ¬ cur ≤ stop := by
      intro h
      have := Date.le_iff.mp h
      omega
    exact ⟨[], splitFrom_end hgt⟩
  | succ n ih =>
    by_cases hcur : cur ≤ stop
    · obtain ⟨hlast, hstop⟩ := hcal hcur
      have hcur' := Date.le_iff.mp hcur
      have hfirst := le_lastChunkStart (m := m) hcur'
      have h₁ := cur.one_le
      obtain ⟨reach, hr, hreach⟩ := cur.addDays_isOk (n := m) (by omega) (by omega)
      have hmin := Date.min_ord stop reach
      obtain ⟨next, hnx, hnext⟩ := (min stop reach).addDays_isOk (n := 1) (by omega) (by omega)
      have hinner : next ≤ stop → InCalendar next stop m := by
        intro hlt
        have hlt := Date.le_iff.mp hlt
        refine ⟨?_, hstop⟩
        rw [show next.ord = cur.ord + m + 1 by omega, lastChunkStart_next]
        exact hlast
      obtain ⟨chunks, hchunks⟩ := ih (by omega) hinner
      exact ⟨(cur, min stop reach) :: chunks, by simp only [splitFrom_eq hcur, hr, hnx, hchunks]⟩
    · exact ⟨[], splitFrom_end hcur⟩

/-- The chunks of a window that does not end before it starts. -/
theorem splitWindow_chunks {start stop : Date} {m : ℕ} {chunks : List (Date × Date)}
    (hle : start ≤ stop) (h : splitWindow start stop m = .ok chunks) :
    chunks ≠ [] ∧ ChunksOf start.ord stop.ord m (dayNumbers chunks) := by
  have hord := Date.le_iff.mp hle
  rw [splitWindow, if_neg (not_lt.mpr hle)] at h
  have hspec := splitFrom_chunks (stop.ord + 1 - start.ord).toNat le_rfl (by omega) h
  refine ⟨?_, hspec⟩
  rintro rfl
  have : start.ord = stop.ord + 1 := hspec.tiles
  omega

theorem splitWindow_spec {start stop : Date} {m : ℕ} (hle : start ≤ stop)
    (hcal : InCalendar start stop m) :
    ∃ chunks, splitWindow start stop m = .ok chunks ∧ chunks ≠ [] ∧
      ChunksOf start.ord stop.ord m (dayNumbers chunks) := by
  obtain ⟨chunks, hchunks⟩ :=
    splitFrom_isOk (stop.ord + 1 - start.ord).toNat le_rfl fun _ => hcal
  have hsplit : splitWindow start stop m = .ok chunks := by
    rw [splitWindow, if_neg (not_lt.mpr hle), hchunks]
  exact ⟨chunks, hsplit, splitWindow_chunks hle hsplit⟩

/-- A window of at most `m` days that stays inside the calendar is one chunk. -/
theorem splitWindow_one {start stop : Date} {m : ℕ} (hle : start ≤ stop)
    (hspan : stop.ord - start.ord ≤ m) (hcal : InCalendar start stop m) :
    splitWindow start stop m = .ok [(start, stop)] := by
  obtain ⟨chunks, hsplit, hne, hspec⟩ := splitWindow_spec hle hcal
  have hcover : Covers start.ord stop.ord [(start.ord, stop.ord)] :=
    fun d h₁ h₂ => ⟨_, List.mem_singleton_self _, h₁, h₂⟩
  have hlen := hspec.tiles.length_le_of_full hspec.full hcover (by simpa using hspan)
  rw [dayNumbers, List.length_map] at hlen
  obtain ⟨c, rfl⟩ : ∃ c, chunks = [c] :=
    List.length_eq_one_iff.mp (le_antisymm hlen (List.length_pos_iff.mpr hne))
  obtain ⟨hfirst, _, hlast⟩ := hspec.tiles
  have hstop : c.2.ord = stop.ord := add_right_cancel hlast
  have hc : c = (start, stop) := Prod.ext (Date.ext_ord hfirst) (Date.ext_ord hstop)
  rw [hsplit, hc]

/-- **Transactions windows are exact.**  A scheduled window ends yesterday, reaches back past
every last stored day and at least its margin, and starts no earlier than these ask for.  Split
into chunks of at most `m` days, for any `m` and any window whose arithmetic stays inside the
calendar, it is covered day by day, without overlap, by as few chunks as any cover needs; and
with the default `m` the client accepts each formatted chunk. -/
theorem transactions_windows_exact {lastDates : List (String × Date)} {defaultDays initDays : ℤ}
    {today : Date} (hcal : 1 ≤ today.ord - 1 - windowMargin lastDates defaultDays initDays) :
    (∃ w, transactionsWindow lastDates defaultDays initDays today = .ok w ∧
      w.stop.ord = today.ord - 1 ∧ w.start < w.stop ∧
      (∀ e ∈ lastDates, w.start ≤ e.2) ∧
      (lastDates ≠ [] → w.start.ord ≤ w.stop.ord - max 1 defaultDays ∧ w.mode = .incremental) ∧
      (lastDates = [] → w.start.ord = w.stop.ord - max 1 initDays ∧ w.mode = .init) ∧
      (w.start.ord = w.stop.ord - windowMargin lastDates defaultDays initDays ∨
        ∃ e ∈ lastDates, w.start = e.2) ∧
      w.days = w.stop.ord - w.start.ord) ∧
    ∀ (start stop : Date) (m : ℕ), start ≤ stop → InCalendar start stop m →
      ∃ chunks, splitWindow start stop m = .ok chunks ∧ chunks ≠ [] ∧
        Tiles start.ord stop.ord (dayNumbers chunks) ∧
        (∀ d, (∃ c ∈ dayNumbers chunks, c.1 ≤ d ∧ d ≤ c.2) ↔ start.ord ≤ d ∧ d ≤ stop.ord) ∧
        (dayNumbers chunks).Pairwise (fun c d => c.2 < d.1) ∧
        (∀ c ∈ dayNumbers chunks, c.2 - c.1 ≤ m) ∧
        (∀ ds, Covers start.ord stop.ord ds → (∀ c ∈ ds, c.2 - c.1 ≤ m) →
          chunks.length ≤ ds.length) ∧
        (m = CHUNK_MAX_SPAN_DAYS → ∀ c ∈ chunks,
          checkSpan (strftimeYmd c.1) (strftimeYmd c.2) = .ok ()) := by
  constructor
  · obtain ⟨w, hw⟩ := transactionsWindow_isOk hcal
    obtain ⟨hstop, hdays, hmargin, hlast, hexact, hmode⟩ := transactionsWindow_ok hw
    have hpos : 1 ≤ windowMargin lastDates defaultDays initDays := by
      unfold windowMargin
      split <;> exact le_max_left _ _
    refine ⟨w, hw, hstop, Date.lt_iff.mpr (by omega), hlast, ?_, ?_, hexact, hdays⟩
    · intro hne
      rw [windowMargin, if_neg hne] at hmargin
      rw [if_neg hne] at hmode
      exact ⟨hmargin, hmode⟩
    · rintro rfl
      rcases hexact with hexact | ⟨e, he, _⟩
      · exact ⟨hexact, hmode⟩
      · cases he
  · intro start stop m hle hin
    obtain ⟨chunks, hchunks, hne, hspec⟩ := splitWindow_spec hle hin
    refine ⟨chunks, hchunks, hne, hspec.tiles, hspec.tiles.mem_iff, hspec.tiles.pairwise_lt,
      hspec.spans, ?_, ?_⟩
    · intro ds hcov hds
      have hmin := hspec.tiles.length_le_of_full hspec.full hcov hds
      rwa [dayNumbers, List.length_map] at hmin
    · rintro rfl c hc
      have hspan := hspec.spans (c.1.ord, c.2.ord) (List.mem_map_of_mem hc)
      have hlimit : c.2.ord - c.1.ord ≤ 364 := hspan
      exact (checkSpan_strftimeYmd c.1 c.2).mpr (hlimit.trans (by decide))

/-- An account last seen 400 days before 2026-09-04: two requests. -/
theorem transactions_windows_exact_outage :
    ∃ w chunks, transactionsWindow [("U1", ⟨739463, by decide, by decide⟩),
        ("U2", ⟨739860, by decide, by decide⟩)] 30 360 ⟨739863, by decide, by decide⟩ = .ok w ∧
      w.start.ord ≤ 739463 ∧
      splitWindow ⟨739463, by decide, by decide⟩ ⟨739862, by decide, by decide⟩ 364 = .ok chunks ∧
      ∀ c ∈ chunks, checkSpan (strftimeYmd c.1) (strftimeYmd c.2) = .ok () := by
  obtain ⟨⟨w, hw, _, _, hlast, _⟩, hsplit⟩ :=
    @transactions_windows_exact [("U1", ⟨739463, by decide, by decide⟩),
      ("U2", ⟨739860, by decide, by decide⟩)] 30 360 ⟨739863, by decide, by decide⟩ (by decide)
  obtain ⟨chunks, hchunks, _, _, _, _, _, _, hcheck⟩ :=
    hsplit ⟨739463, by decide, by decide⟩ ⟨739862, by decide, by decide⟩ 364 (by decide)
      ⟨by decide, by decide⟩
  have hstart := Date.le_iff.mp (hlast ("U1", ⟨739463, by decide, by decide⟩) List.mem_cons_self)
  exact ⟨w, chunks, hw, hstart, hchunks, hcheck rfl⟩

end FlexQuery
