import FlexQuery.Library.Crontab
import FlexQuery.Scheduler.Cron

/-!
# The plan and a standard scheduler

* `readCron` — the five fields of an expression, in the grammar `_parse_part` reads.
* `parseCron_readCron` — the sets `parse_cron` builds of three of them.
* `matches_weekly` — `_matches` is the weekly reading of the line.
* `standard_iff` — for which expressions the plan is the standard one.
* `first_of_month_daily` — a day of month and a Sunday written 7.
-/

set_option autoImplicit false

namespace FlexQuery

open Crontab

/-! ## The text -/

/-- One item of a field. -/
def readItem (part : String) : Except PyExc Item :=
  let p := (strip part).toList
  if ['*', '/'].isPrefixOf p then
    match pyInt (String.ofList (p.drop 2)) with
    | .error e => .error e
    | .ok step =>
      if step ≤ 0 then .error (.valueError ("invalid step in cron field: '" ++ part ++ "'"))
      else .ok (.every step)
  else if '-' ∈ p then
    match pyInt (String.ofList (p.takeWhile (· ≠ '-'))),
        pyInt (String.ofList ((p.dropWhile (· ≠ '-')).drop 1)) with
    | .error e, _ => .error e
    | .ok _, .error e => .error e
    | .ok a, .ok b => .ok (.range a b)
  else (pyInt (String.ofList p)).map Item.value

/-- A comma list, or `*`. -/
def readField (field : String) : Except PyExc Field :=
  if strip field = "*" then .ok none
  else
    (((strip field).toList.splitOn ',').mapM fun part => readItem (String.ofList part)).map some

/-- The five fields. -/
def readCron (expr : String) : Except PyExc Line :=
  match splitBlank (strip expr) with
  | [minute, hour, dayOfMonth, month, dayOfWeek] => do
    let minute ← readField minute
    let hour ← readField hour
    let dayOfMonth ← readField dayOfMonth
    let month ← readField month
    let dayOfWeek ← readField dayOfWeek
    pure ⟨minute, hour, dayOfMonth, month, dayOfWeek⟩
  | _ => .error (.valueError ("expected 5-field cron, got '" ++ expr ++ "'"))

/-! ## The sets -/

/-- The set `_parse_part` builds of an item. -/
def itemValues (minimum maximum : ℕ) : Item → List ℤ
  | .every n =>
    ((List.range' minimum (maximum + 1 - minimum)).map Int.ofNat).filter (· % n = 0)
  | .range a b => (List.range (b + 1 - a).toNat).map fun i => a + i
  | .value a => [a]

theorem parsePart_readItem (part : String) (minimum maximum : ℕ) :
    parsePart part minimum maximum = (readItem part).map (itemValues minimum maximum) := by
  unfold parsePart readItem
  simp only
  split
  · cases pyInt (String.ofList ((strip part).toList.drop 2)) with
    | error e => rfl
    | ok step =>
      simp only
      split <;> rfl
  · split
    · cases pyInt (String.ofList ((strip part).toList.takeWhile (· ≠ '-'))) with
      | error e => rfl
      | ok a =>
        cases pyInt (String.ofList (((strip part).toList.dropWhile (· ≠ '-')).drop 1)) <;> rfl
    · cases pyInt (String.ofList (strip part).toList) <;> rfl

/-- The set holds the values of its range that the item selects. -/
theorem mem_itemValues {maximum : ℕ} {item : Item} {v : ℤ} (h₀ : 0 ≤ v) (h₁ : v ≤ maximum) :
    v ∈ itemValues 0 maximum item ↔ item.Selects 0 v := by
  cases item with
  | every n =>
    simp only [itemValues, Item.Selects, List.mem_filter, List.mem_map, List.mem_range'_1,
      decide_eq_true_eq, sub_zero, and_iff_right_iff_imp]
    intro _
    exact ⟨v.toNat, by omega, by simp; omega⟩
  | range a b =>
    simp only [itemValues, Item.Selects, bind_pure_comp, List.map_eq_map, List.mem_map,
      List.mem_range]
    constructor
    · rintro ⟨_, ⟨i, hi, rfl⟩, rfl⟩
      omega
    · rintro ⟨ha, hb⟩
      exact ⟨v - a, ⟨(v - a).toNat, by omega, by omega⟩, by omega⟩
  | value a => simp [itemValues, Item.Selects]

/-- The set of a field; none for `*`. -/
def fieldValues (minimum maximum : ℕ) (field : Field) : Option (List ℤ) :=
  field.map fun items => (items.map (itemValues minimum maximum)).flatten

theorem mapM_map_ok {α β γ : Type} {f : α → Except PyExc β} (g : β → γ) (xs : List α) :
    xs.mapM (fun x => (f x).map g) = (xs.mapM f).map (List.map g) := by
  induction xs with
  | nil => rfl
  | cons x xs ih =>
    rw [List.mapM_cons, List.mapM_cons, ih]
    cases f x with
    | error e => rfl
    | ok y => cases xs.mapM f <;> rfl

theorem parseField_readField (field : String) (minimum maximum : ℕ) :
    parseField field minimum maximum = (readField field).map (fieldValues minimum maximum) := by
  unfold parseField readField
  split
  · rfl
  · simp only [parsePart_readItem]
    rw [mapM_map_ok]
    cases ((strip field).toList.splitOn ',').mapM fun part => readItem (String.ofList part) <;> rfl

theorem inField_fieldValues {maximum : ℕ} {field : Field} {v : ℤ} (h₀ : 0 ≤ v)
    (h₁ : v ≤ maximum) : inField (fieldValues 0 maximum field) v = true ↔ field.Selects 0 v := by
  cases field with
  | none => simp [fieldValues, inField, Field.Selects]
  | some items =>
    simp only [fieldValues, inField, Field.Selects, Option.map_some, decide_eq_true_eq,
      List.mem_flatten, List.mem_map, exists_exists_and_eq_and, mem_itemValues h₀ h₁]

/-- What `parse_cron` makes of the line. -/
def lineFields (c : Line) : CronFields :=
  ⟨fieldValues 0 59 c.minute, fieldValues 0 23 c.hour, fieldValues 0 6 c.dayOfWeek⟩

/-- The day of month and the month are dropped. -/
theorem parseCron_readCron {expr : String} {c : Line} (h : readCron expr = .ok c) :
    parseCron expr = .ok (lineFields c) := by
  have hfive : ∃ minute hour dayOfMonth month dayOfWeek,
      splitBlank (strip expr) = [minute, hour, dayOfMonth, month, dayOfWeek] := by
    unfold readCron at h
    split at h
    · rename_i hsplit
      exact ⟨_, _, _, _, _, hsplit⟩
    · cases h
  obtain ⟨minute, hour, dayOfMonth, month, dayOfWeek, hsplit⟩ := hfive
  unfold readCron at h
  unfold parseCron
  simp only [hsplit] at h ⊢
  simp only [parseField_readField]
  cases hminute : readField minute with
  | error e =>
    rw [hminute] at h
    cases h
  | ok minute' =>
    cases hhour : readField hour with
    | error e =>
      rw [hminute, hhour] at h
      cases h
    | ok hour' =>
      cases hday : readField dayOfMonth with
      | error e =>
        rw [hminute, hhour, hday] at h
        cases h
      | ok day' =>
        cases hmonth : readField month with
        | error e =>
          rw [hminute, hhour, hday, hmonth] at h
          cases h
        | ok month' =>
          cases hweek : readField dayOfWeek with
          | error e =>
            rw [hminute, hhour, hday, hmonth, hweek] at h
            cases h
          | ok week' =>
            rw [hminute, hhour, hday, hmonth, hweek] at h
            cases h
            rfl

/-! ## The clock and the calendar -/

/-- What a clock and a calendar show in the zone. -/
def Zone.moment (zone : Zone) (t : ℤ) : Moment :=
  let clock := zone.clock t
  let civil := Calendar.ofOrdinal (clock / 86400000000 + 719163).toNat
  { minute := clock / 60000000 % 60
    hour := clock / 3600000000 % 24
    day := civil.day
    month := civil.month
    weekday := (clock / 86400000000 + 4) % 7 }

theorem dateInYear_ofOrdinal (n : ℕ) :
    DateInYear (Calendar.ofOrdinal n).month (Calendar.ofOrdinal n).day := by
  have hvalid : (Calendar.ofOrdinal n).Valid := by
    cases n with
    | zero => exact @Calendar.ofOrdinal_valid 1 le_rfl
    | succ n => exact Calendar.ofOrdinal_valid (by omega)
  obtain ⟨_, h₂, h₃, h₄, h₅⟩ := hvalid
  have hleap : ∀ leap, ∀ m < 13, Calendar.daysInMonth leap m ≤ Calendar.daysInMonth true m := by
    decide
  have := hleap (Calendar.isLeap (Calendar.ofOrdinal n).year) (Calendar.ofOrdinal n).month (by omega)
  refine ⟨by omega, by omega, by omega, ?_⟩
  rw [Int.toNat_natCast]
  omega

theorem moment_valid (zone : Zone) (t : ℤ) : (zone.moment t).Valid := by
  unfold Zone.moment
  constructor
  · exact ⟨by simp only; omega, by simp only; omega⟩
  · exact ⟨by simp only; omega, by simp only; omega⟩
  · exact dateInYear_ofOrdinal _
  · exact ⟨by simp only; omega, by simp only; omega⟩

/-- `_matches` reads the line by the week. -/
theorem matches_weekly (c : Line) (zone : Zone) (t : ℤ) :
    (lineFields c).matches (zone.clock t) = true ↔ c.Weekly (zone.moment t) := by
  have hweekday : (if weekday (zone.clock t) = 6 then 0 else weekday (zone.clock t) + 1) =
      (zone.moment t).weekday := by
    unfold weekday Zone.moment
    split <;> simp only <;> omega
  obtain ⟨⟨hm₀, hm₁⟩, ⟨hh₀, hh₁⟩, _, hw₀, hw₁⟩ := moment_valid zone t
  unfold CronFields.matches lineFields Line.Weekly
  rw [hweekday, Bool.and_eq_true, Bool.and_eq_true, and_assoc,
    inField_fieldValues hw₀ (by omega)]
  exact and_congr (inField_fieldValues hm₀ (by exact Int.le_of_lt_add_one hm₁))
    (and_congr (inField_fieldValues hh₀ (by exact Int.le_of_lt_add_one hh₁)) Iff.rfl)

/-- The same date four years later, in this century. -/
theorem toOrdinal_leap {month day k : ℕ} (hk : k < 7) :
    Calendar.toOrdinal ⟨2000 + 4 * k, month, day⟩ =
      Calendar.toOrdinal ⟨2000, month, day⟩ + 1461 * k := by
  have hleap : Calendar.isLeap (2000 + 4 * k) = true := by
    interval_cases k <;> rfl
  have hyears : Calendar.daysBeforeYear (2000 + 4 * k - 1) =
      Calendar.daysBeforeYear (2000 - 1) + 1461 * k := by
    interval_cases k <;> rfl
  have hbase : Calendar.isLeap 2000 = true := rfl
  simp only [Calendar.toOrdinal, hleap, hyears, hbase]
  omega

/-- Every moment comes: each date falls on each weekday within 28 years. -/
theorem exists_moment {m : Moment} (hm : m.Valid) :
    ∃ t, t % MINUTE = 0 ∧ Zone.utc.moment t = m := by
  obtain ⟨minute, hour, day, month, weekday⟩ := m
  obtain ⟨⟨hm₀, hm₁⟩, ⟨hh₀, hh₁⟩, ⟨hmo₁, hmo₂, hd₁, hd₂⟩, hw₀, hw₁⟩ := hm
  simp only at *
  obtain ⟨month, rfl⟩ := Int.eq_ofNat_of_zero_le (by omega : 0 ≤ month)
  obtain ⟨day, rfl⟩ := Int.eq_ofNat_of_zero_le (by omega : 0 ≤ day)
  rw [Int.toNat_natCast] at hd₂
  obtain ⟨base, hbase⟩ : ∃ base, base = Calendar.toOrdinal ⟨2000, month, day⟩ := ⟨_, rfl⟩
  -- 1461 days are 5 weekdays, and 3 times 5 is 1 modulo 7.
  obtain ⟨k, hk⟩ : ∃ k : ℕ, (k : ℤ) = 3 * (weekday - (base - 719159)) % 7 :=
    ⟨(3 * (weekday - (base - 719159)) % 7).toNat, by omega⟩
  have hleap : Calendar.isLeap (2000 + 4 * k) = true := by
    have : k < 7 := by omega
    interval_cases k <;> rfl
  have hvalid : (⟨2000 + 4 * k, month, day⟩ : Calendar.Civil).Valid := by
    refine ⟨by simp only; omega, by simp only; omega, by simp only; omega, by simp only; omega, ?_⟩
    simp only [hleap]
    omega
  have hord := @toOrdinal_leap month day k (by omega)
  have hciv := Calendar.ofOrdinal_toOrdinal hvalid
  rw [hord, ← hbase] at hciv
  have hclock : ∀ t, Zone.utc.clock t = t := by
    intro t
    simp [Zone.clock, Zone.utc, seconds]
  refine ⟨MINUTE * (1440 * ((base + 1461 * k : ℕ) - 719163) + 60 * hour + minute),
    Int.mul_emod_right _ _, ?_⟩
  unfold Zone.moment
  simp only [hclock]
  have hday : MINUTE * (1440 * ((base + 1461 * k : ℕ) - 719163) + 60 * hour + minute) /
      86400000000 = (base + 1461 * k : ℕ) - 719163 := by
    unfold MINUTE
    omega
  rw [hday, show ((base + 1461 * k : ℕ) - 719163 + 719163 : ℤ).toNat = base + 1461 * k by omega,
    hciv, Moment.mk.injEq]
  unfold MINUTE
  refine ⟨by omega, by omega, rfl, rfl, by omega⟩

/-- **The plan is the standard one** for every zone and range exactly when nothing is lost by
reading the line without its day of month, its month and the weekday 7. -/
theorem standard_iff {expr : String} {c : Line} (hread : readCron expr = .ok c)
    (restricted : Field → Bool) :
    (∀ zone start stop, start < stop → ∃ fires, iterCronFires expr start stop zone = .ok fires ∧
      fires.Pairwise (· < ·) ∧ ∀ t, t ∈ fires ↔ start ≤ t ∧ t < stop ∧ t % MINUTE = 0 ∧
        c.Fits restricted (zone.moment t)) ↔
      c.NothingLost restricted := by
  have hparse := parseCron_readCron hread
  rw [← weekly_iff]
  constructor
  · intro h m hm
    obtain ⟨t, hwhole, rfl⟩ := exists_moment hm
    obtain ⟨fires, hfires, _, hstandard⟩ := h .utc t (t + 1) (lt_add_one t)
    obtain ⟨fires', hfires', _, hplan⟩ := iterCronFires_planned hparse t (t + 1) .utc
    rw [hfires'] at hfires
    cases hfires
    have hsame := (hplan t).symm.trans (hstandard t)
    unfold PlannedIn at hsame
    simpa [hwhole, matches_weekly] using hsame
  · intro h zone start stop _
    obtain ⟨fires, hfires, hsorted, hplan⟩ := iterCronFires_planned hparse start stop zone
    refine ⟨fires, hfires, hsorted, ?_⟩
    intro t
    rw [hplan, PlannedIn, matches_weekly, h _ (moment_valid zone t)]

/-! ## Three expressions -/

/-- Anything but `*` restricts a field. -/
abbrev notStar : Field → Bool := Option.isSome

def weekdayMornings : Line :=
  ⟨some [.value 30], some [.value 6], none, none, some [.range 1 6]⟩

/-- Half past six, Monday to Saturday, is planned as it is fired. -/
theorem standard_weekdayMornings :
    readCron "30 6 * * 1-6" = .ok weekdayMornings ∧
      ∀ zone start stop, start < stop → ∃ fires,
        iterCronFires "30 6 * * 1-6" start stop zone = .ok fires ∧ fires.Pairwise (· < ·) ∧
          ∀ t, t ∈ fires ↔ start ≤ t ∧ t < stop ∧ t % MINUTE = 0 ∧
            weekdayMornings.Fits notStar (zone.moment t) := by
  have hread : readCron "30 6 * * 1-6" = .ok weekdayMornings := by decide +kernel
  have hmonday : weekdayMornings.NamesWeekday := ⟨1, by decide, by decide, by decide⟩
  have heither : ¬ weekdayMornings.EitherDay notStar := by decide
  refine ⟨hread, (standard_iff hread notStar).mpr (Or.inr (Or.inl ⟨hmonday, ?_⟩))⟩
  exact ⟨by decide, fun _ _ _ => trivial, fun _ _ _ _ => trivial, fun h => absurd h heither⟩

/-- The first of the month is planned for 2 January 1970, and Sunday 4 January is not planned when
it is written 7. -/
theorem first_of_month_daily :
    (∃ fires c, iterCronFires "30 6 1 * *" (seconds 86400) (seconds 172800) .utc = .ok fires ∧
      readCron "30 6 1 * *" = .ok c ∧ seconds 109800 ∈ fires ∧
      ¬ c.Fits notStar (Zone.utc.moment (seconds 109800))) ∧
    ∃ c, iterCronFires "30 6 * * 7" (seconds 259200) (seconds 345600) .utc = .ok [] ∧
      readCron "30 6 * * 7" = .ok c ∧ seconds 282600 % MINUTE = 0 ∧
      c.Fits notStar (Zone.utc.moment (seconds 282600)) := by
  refine ⟨⟨[seconds 109800], ⟨some [.value 30], some [.value 6], some [.value 1], none, none⟩,
      by decide +kernel, by decide +kernel, by decide, by decide⟩,
    ⟨some [.value 30], some [.value 6], none, none, some [.value 7]⟩, by decide +kernel,
    by decide +kernel, by decide, by decide⟩

end FlexQuery
