import FlexQuery.Python.DateTime
import FlexQuery.Python.Number
import FlexQuery.Schema.Jobs

/-!
# Five-field crons

`scheduler/cronutil.py`.  A cron is read on the clock of a zone and scanned minute by minute.

* `parseCron`, `CronFields.matches` — the fields, and the readings of the clock they accept.
* `iterCronFires`, `previousFire`, `nextFires` — the scan, the last fire before an instant, and the
  first ones after it.
* `mem_iterCronFires` — the scan finds the whole minutes of its range whose reading is accepted.
* `previousFire_eq_some` — `previous_fire` is the last of them.
-/

set_option autoImplicit false

namespace FlexQuery

/-! ## Fields -/

/-- `_parse_part`: the numbers of one item of a field. -/
def parsePart (part : String) (minimum maximum : ℕ) : Except PyExc (List ℤ) :=
  let p := (strip part).toList
  if ['*', '/'].isPrefixOf p then
    match pyInt (String.ofList (p.drop 2)) with
    | .error e => .error e
    | .ok step =>
      if step ≤ 0 then .error (.valueError ("invalid step in cron field: '" ++ part ++ "'"))
      else .ok (((List.range' minimum (maximum + 1 - minimum)).map Int.ofNat).filter (· % step = 0))
  else if '-' ∈ p then
    match pyInt (String.ofList (p.takeWhile (· ≠ '-'))),
        pyInt (String.ofList ((p.dropWhile (· ≠ '-')).drop 1)) with
    | .error e, _ => .error e
    | .ok _, .error e => .error e
    | .ok a, .ok b => .ok ((List.range (b + 1 - a).toNat).map fun i => a + i)
  else (pyInt (String.ofList p)).map ([·])

/-- `_parse_field`; none is `*`. -/
def parseField (field : String) (minimum maximum : ℕ) : Except PyExc (Option (List ℤ)) :=
  if strip field = "*" then .ok none
  else
    (((strip field).toList.splitOn ',').mapM fun part =>
      parsePart (String.ofList part) minimum maximum).map fun sets => some sets.flatten

/-- The sets of a cron; day of month and month are not read. -/
structure CronFields where
  minutes : Option (List ℤ)
  hours : Option (List ℤ)
  dows : Option (List ℤ)
  deriving DecidableEq, Repr

/-- `s.split()`. -/
def splitBlank (s : String) : List String :=
  ((s.toList.splitOnP isSpace).filter (· ≠ [])).map String.ofList

/-- `parse_cron`. -/
def parseCron (expr : String) : Except PyExc CronFields :=
  match splitBlank (strip expr) with
  | [minute, hour, _, _, dow] =>
    match parseField minute 0 59, parseField hour 0 23, parseField dow 0 6 with
    | .error e, _, _ => .error e
    | .ok _, .error e, _ => .error e
    | .ok _, .ok _, .error e => .error e
    | .ok minutes, .ok hours, .ok dows => .ok ⟨minutes, hours, dows⟩
  | _ => .error (.valueError ("expected 5-field cron, got '" ++ expr ++ "'"))

/-- The value is in the field; `*` takes any. -/
def inField : Option (List ℤ) → ℤ → Bool
  | none, _ => true
  | some values, v => v ∈ values

/-! ## The clock of a zone -/

/-- UTC. -/
def Zone.utc : Zone := ⟨fun _ => 0, fun _ => 0⟩

/-- What a clock in the zone shows at an instant, counted like the instant itself. -/
def Zone.clock (zone : Zone) (t : ℤ) : ℤ := t + seconds (zone.utcoffset (t / 1000000))

/-- `dt.weekday()` of a reading; 1970-01-01 was a Thursday. -/
def weekday (clock : ℤ) : ℤ := (clock / 86400000000 + 3) % 7

/-- `_matches`, of a reading. -/
def CronFields.matches (f : CronFields) (clock : ℤ) : Bool :=
  inField f.minutes (clock / 60000000 % 60) && inField f.hours (clock / 3600000000 % 24) &&
    inField f.dows (if weekday clock = 6 then 0 else weekday clock + 1)

/-- The date a clock in the zone shows, `isoformat()`. -/
def Zone.day (zone : Zone) (t : ℤ) : String :=
  isoformat (Calendar.ofOrdinal (zone.clock t / 86400000000 + 719163).toNat)

/-! ## The scan -/

/-- One minute. -/
def MINUTE : ℤ := 60000000

/-- The minutes from `cur` on, so many at most, that are before `stop` and match. -/
def cronScan (fires : ℤ → Bool) (stop : ℤ) : ℕ → ℤ → List ℤ
  | 0, _ => []
  | n + 1, cur =>
    if cur < stop then
      if fires cur then cur :: cronScan fires stop n (cur + MINUTE)
      else cronScan fires stop n (cur + MINUTE)
    else []

/-- The first whole minute from `start` on. -/
def firstMinute (start : ℤ) : ℤ :=
  let cur := start - start % MINUTE
  if cur < start then cur + MINUTE else cur

/-- `iter_cron_fires`. -/
def iterCronFires (expr : String) (start stop : ℤ) (zone : Zone) :
    Except PyExc (List ℤ) :=
  match parseCron expr with
  | .error e => .error e
  | .ok fields =>
    .ok (cronScan (fun t => fields.matches (zone.clock t)) stop
      ((stop - firstMinute start) / MINUTE + 1).toNat (firstMinute start))

/-- `previous_fire`; it looks back two weeks. -/
def previousFire (expr : String) (before : ℤ) (zone : Zone) :
    Except PyExc (Option ℤ) :=
  (iterCronFires expr (before - seconds (14 * 86400)) before zone).map List.getLast?

/-- `next_fires`; it looks two weeks ahead. -/
def nextFires (expr : String) (after count : ℤ) (zone : Zone) : Except PyExc (List ℤ) :=
  (iterCronFires expr (after + MINUTE) (after + seconds (14 * 86400)) zone).map
    (·.take (max 0 count).toNat)

/-! ## What the scan finds -/

theorem mem_cronScan {fires : ℤ → Bool} {stop : ℤ} {n : ℕ} {cur t : ℤ}
    (hn : (stop - cur) / MINUTE < n) :
    t ∈ cronScan fires stop n cur ↔
      cur ≤ t ∧ t < stop ∧ (t - cur) % MINUTE = 0 ∧ fires t = true := by
  induction n generalizing cur with
  | zero =>
    refine iff_of_false List.not_mem_nil ?_
    rintro ⟨hle, hlt, _⟩
    unfold MINUTE at hn
    omega
  | succ n ih =>
    have hrest : (stop - (cur + MINUTE)) / MINUTE < n := by
      unfold MINUTE at hn ⊢
      omega
    unfold cronScan
    split
    · rename_i hcur
      have hstep : (cur ≤ t ∧ t < stop ∧ (t - cur) % MINUTE = 0 ∧ fires t = true) ↔
          (t = cur ∧ fires cur = true) ∨
            (cur + MINUTE ≤ t ∧ t < stop ∧ (t - (cur + MINUTE)) % MINUTE = 0 ∧ fires t = true) := by
        constructor
        · rintro ⟨hle, hlt, hmod, hfires⟩
          by_cases heq : t = cur
          · exact Or.inl ⟨heq, heq ▸ hfires⟩
          · refine Or.inr ⟨?_, hlt, ?_, hfires⟩ <;> unfold MINUTE at hmod ⊢ <;> omega
        · rintro (⟨rfl, hfires⟩ | ⟨hle, hlt, hmod, hfires⟩)
          · exact ⟨le_rfl, hcur, by simp, hfires⟩
          · refine ⟨?_, hlt, ?_, hfires⟩ <;> unfold MINUTE at * <;> omega
      rw [hstep]
      split
      · rename_i hfires
        rw [List.mem_cons, ih hrest]
        simp [hfires]
      · rename_i hfires
        rw [ih hrest]
        simp [hfires]
    · rename_i hcur
      refine iff_of_false List.not_mem_nil ?_
      rintro ⟨hle, hlt, _⟩
      omega

theorem cronScan_sorted (fires : ℤ → Bool) (stop : ℤ) (n : ℕ) (cur : ℤ) :
    (∀ t ∈ cronScan fires stop n cur, cur ≤ t) ∧
      (cronScan fires stop n cur).Pairwise (· < ·) := by
  induction n generalizing cur with
  | zero => exact ⟨nofun, List.Pairwise.nil⟩
  | succ n ih =>
    obtain ⟨hge, hsorted⟩ := ih (cur + MINUTE)
    have hlater : ∀ t ∈ cronScan fires stop n (cur + MINUTE), cur < t := by
      intro t ht
      have := hge t ht
      unfold MINUTE at this
      omega
    unfold cronScan
    split
    · split
      · refine ⟨?_, List.pairwise_cons.mpr ⟨hlater, hsorted⟩⟩
        intro t ht
        rcases List.mem_cons.mp ht with rfl | ht
        · exact le_rfl
        · exact (hlater t ht).le
      · exact ⟨fun t ht => (hlater t ht).le, hsorted⟩
    · exact ⟨nofun, List.Pairwise.nil⟩

theorem firstMinute_spec (start : ℤ) :
    start ≤ firstMinute start ∧ firstMinute start < start + MINUTE ∧
      firstMinute start % MINUTE = 0 := by
  unfold firstMinute MINUTE
  simp only
  split <;> omega

/-- The whole minutes of the range whose reading the fields accept. -/
theorem mem_iterCronFires {expr : String} {start stop : ℤ} {zone : Zone}
    {fields : CronFields} (hparse : parseCron expr = .ok fields) {fires : List ℤ}
    (h : iterCronFires expr start stop zone = .ok fires) :
    fires.Pairwise (· < ·) ∧ ∀ t, t ∈ fires ↔
      start ≤ t ∧ t < stop ∧ t % MINUTE = 0 ∧ fields.matches (zone.clock t) = true := by
  obtain ⟨hge, hlt, hwhole⟩ := firstMinute_spec start
  unfold iterCronFires at h
  rw [hparse] at h
  cases h
  refine ⟨(cronScan_sorted _ _ _ _).2, ?_⟩
  intro t
  rw [mem_cronScan (by omega)]
  constructor
  · rintro ⟨hle, hstop, hmod, hfires⟩
    refine ⟨hge.trans hle, hstop, ?_, hfires⟩
    unfold MINUTE at *
    omega
  · rintro ⟨hle, hstop, hmod, hfires⟩
    refine ⟨?_, hstop, ?_, hfires⟩ <;> unfold MINUTE at * <;> omega

/-- A fire between two instants. -/
def PlannedIn (fields : CronFields) (zone : Zone) (start stop t : ℤ) : Prop :=
  start ≤ t ∧ t < stop ∧ t % MINUTE = 0 ∧ fields.matches (zone.clock t) = true

/-- The fires of a range, in increasing order. -/
theorem iterCronFires_planned {expr : String} {fields : CronFields}
    (hparse : parseCron expr = .ok fields) (start stop : ℤ) (zone : Zone) :
    ∃ fires, iterCronFires expr start stop zone = .ok fires ∧ fires.Pairwise (· < ·) ∧
      ∀ t, t ∈ fires ↔ PlannedIn fields zone start stop t := by
  have hok : ∃ fires, iterCronFires expr start stop zone = .ok fires := by
    unfold iterCronFires
    rw [hparse]
    exact ⟨_, rfl⟩
  obtain ⟨fires, hfires⟩ := hok
  exact ⟨fires, hfires, mem_iterCronFires hparse hfires⟩

/-- `previous_fire` is the last fire of the two weeks before. -/
theorem previousFire_eq_some {expr : String} {before : ℤ} {zone : Zone}
    {fields : CronFields} (hparse : parseCron expr = .ok fields) {f : ℤ} :
    previousFire expr before zone = .ok (some f) ↔
      PlannedIn fields zone (before - seconds (14 * 86400)) before f ∧
        ∀ t, PlannedIn fields zone (before - seconds (14 * 86400)) before t → t ≤ f := by
  obtain ⟨fires, hfires, hsorted, hplanned⟩ :=
    iterCronFires_planned hparse (before - seconds (14 * 86400)) before zone
  unfold previousFire
  rw [hfires]
  simp only [Except.map, Except.ok.injEq, ← hplanned]
  constructor
  · intro hlast
    obtain ⟨init, rfl⟩ := List.getLast?_eq_some_iff.mp hlast
    refine ⟨List.mem_append_right _ (List.mem_singleton_self f), ?_⟩
    intro t ht
    rcases List.mem_append.mp ht with ht | ht
    · exact ((List.pairwise_append.mp hsorted).2.2 t ht f (List.mem_singleton_self f)).le
    · exact (List.mem_singleton.mp ht).le
  · rintro ⟨hf, hall⟩
    cases hlast : fires.getLast? with
    | none =>
      rw [List.getLast?_eq_none_iff] at hlast
      rw [hlast] at hf
      cases hf
    | some g =>
      obtain ⟨init, rfl⟩ := List.getLast?_eq_some_iff.mp hlast
      have hgf := hall g (List.mem_append_right _ (List.mem_singleton_self g))
      rcases List.mem_append.mp hf with hf | hf
      · have := (List.pairwise_append.mp hsorted).2.2 f hf g (List.mem_singleton_self g)
        omega
      · rw [List.mem_singleton.mp hf]

theorem parse_halfPastSix : parseCron "30 6 * * *" = .ok ⟨some [30], some [6], none⟩ := by
  decide +kernel

example : (parseCron "30 6 * * 1-6").toOption =
    some ⟨some [30], some [6], some [1, 2, 3, 4, 5, 6]⟩ := by
  decide +kernel

end FlexQuery
