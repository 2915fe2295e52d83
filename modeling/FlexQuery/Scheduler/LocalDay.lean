import FlexQuery.Python.ZoneInfo
import FlexQuery.Scheduler.Cron

/-!
# One fire for a local day

A cron with one minute and one hour, on the clock of a zone that is set forward and back.

* `Zone.minuteOffset` — the offset at a whole minute, in minutes.
* `OneTime` — the fields name one minute and one hour.
* `one_fire_iff` — on which days the plan has exactly one fire.
* `fire_skipped_or_repeated` — the two days of a year on which it may not.
-/

set_option autoImplicit false

namespace FlexQuery

open WallClock

/-- The offset at the whole minute `k`. -/
def Zone.minuteOffset (zone : Zone) (k : ℤ) : ℤ := zone.utcoffset (60 * k) / 60

/-- What the clock shows at a whole minute. -/
theorem clock_minute (zone : Zone) (k : ℤ) :
    zone.clock (MINUTE * k) / MINUTE = k + zone.minuteOffset k := by
  unfold Zone.clock Zone.minuteOffset seconds MINUTE
  rw [show (60000000 * k) / 1000000 = 60 * k by omega]
  omega

/-- The local day of an instant. -/
def Zone.localDay (zone : Zone) (t : ℤ) : ℤ := zone.clock t / 86400000000

/-- The weekday of a local day as a cron counts it, 0 for Sunday. -/
def cronWeekday (day : ℤ) : ℤ := (day + 4) % 7

/-- The fields name one minute of the hour and one hour of the day. -/
structure OneTime (fields : CronFields) (hour minute : ℤ) : Prop where
  minutes : ∀ v, 0 ≤ v → v < 60 → (inField fields.minutes v = true ↔ v = minute)
  hours : ∀ v, 0 ≤ v → v < 24 → (inField fields.hours v = true ↔ v = hour)
  minute_range : 0 ≤ minute ∧ minute < 60
  hour_range : 0 ≤ hour ∧ hour < 24

/-- The minute of the local day's time, as a clock counts it. -/
def timeOfDay (day hour minute : ℤ) : ℤ := 1440 * day + 60 * hour + minute

/-- What the clock must show for a fire on the day. -/
theorem OneTime.matches_iff {fields : CronFields} {hour minute day clock : ℤ}
    (h : OneTime fields hour minute) (hday : inField fields.dows (cronWeekday day) = true) :
    (fields.matches clock = true ∧ clock / 86400000000 = day) ↔
      clock / MINUTE = timeOfDay day hour minute := by
  obtain ⟨hminutes, hhours, ⟨hm₀, hm₁⟩, hh₀, hh₁⟩ := h
  unfold CronFields.matches timeOfDay MINUTE
  rw [Bool.and_eq_true, Bool.and_eq_true, hminutes _ (by omega) (by omega),
    hhours _ (by omega) (by omega)]
  constructor
  · rintro ⟨⟨⟨hminute, hhour⟩, _⟩, hclock⟩
    omega
  · intro hclock
    have hday' : clock / 86400000000 = day := by omega
    refine ⟨⟨⟨by omega, by omega⟩, ?_⟩, hday'⟩
    have hweekday : (if weekday clock = 6 then 0 else weekday clock + 1) = cronWeekday day := by
      unfold weekday cronWeekday
      rw [hday']
      split <;> omega
    rw [hweekday]
    exact hday

/-- **One fire a day.**  A local day whose weekday the cron names has exactly one fire if and only
if the zone's clock is set neither forward nor back over the time of the cron on that day. -/
theorem one_fire_iff {expr : String} {fields : CronFields} {zone : Zone}
    {hour minute jump apart start stop : ℤ} (hparse : parseCron expr = .ok fields)
    (htime : OneTime fields hour minute) (hzone : Steps zone.utcoffset jump apart)
    (hfar : 2 * (jump / 60 + 1) < apart / 60) :
    ∃ fires, iterCronFires expr start stop zone = .ok fires ∧
      ∀ day, (∀ t, zone.localDay t = day → start ≤ t ∧ t < stop) →
        inField fields.dows (cronWeekday day) = true →
        ((∃! t, t ∈ fires ∧ zone.localDay t = day) ↔
          ¬ Skipped zone.minuteOffset (timeOfDay day hour minute) ∧
            ¬ Repeated zone.minuteOffset (timeOfDay day hour minute)) := by
  obtain ⟨fires, hfires, _, hmem⟩ := iterCronFires_planned hparse start stop zone
  refine ⟨fires, hfires, ?_⟩
  intro day hrange hday
  have hminutes : Steps zone.minuteOffset (jump / 60 + 1) (apart / 60) :=
    hzone.coarsen (by decide) hfar
  rw [← shown_once_iff hminutes]
  have hfire : ∀ t, (t ∈ fires ∧ zone.localDay t = day) ↔
      ∃ k, t = MINUTE * k ∧ k + zone.minuteOffset k = timeOfDay day hour minute := by
    intro t
    rw [hmem]
    unfold PlannedIn
    constructor
    · rintro ⟨⟨_, _, hwhole, hmatches⟩, hlocal⟩
      have hk : t = MINUTE * (t / MINUTE) := by
        unfold MINUTE at hwhole ⊢
        omega
      refine ⟨t / MINUTE, hk, ?_⟩
      rw [← clock_minute, ← hk]
      exact (htime.matches_iff hday).mp ⟨hmatches, hlocal⟩
    · rintro ⟨k, rfl, hk⟩
      rw [← clock_minute] at hk
      obtain ⟨hmatches, hlocal⟩ := (htime.matches_iff hday).mpr hk
      obtain ⟨hstart, hstop⟩ := hrange _ hlocal
      exact ⟨⟨hstart, hstop, Int.mul_emod_right _ _, hmatches⟩, hlocal⟩
  simp only [hfire]
  constructor
  · rintro ⟨_, ⟨k, rfl, hk⟩, hall⟩
    refine ⟨k, hk, ?_⟩
    intro k' hk'
    have := hall _ ⟨k', rfl, hk'⟩
    unfold MINUTE at this
    omega
  · rintro ⟨k, hk, hall⟩
    refine ⟨MINUTE * k, ⟨k, rfl, hk⟩, ?_⟩
    rintro _ ⟨k', rfl, hk'⟩
    rw [hall k' hk']

/-! ## Two days of 2026 -/

/-- 8 March 2026. -/
def DST_START : ℤ := 20520

/-- 1 November 2026. -/
def DST_END : ℤ := 20758

theorem localDay_newYork2026 {day t : ℤ} (h : newYork2026.localDay t = day) :
    seconds (86400 * day) ≤ t ∧ t < seconds (86400 * (day + 2)) := by
  simp only [Zone.localDay, Zone.clock, newYork2026, seconds] at h ⊢
  split_ifs at h <;> omega

/-- At half past six there is one fire, also on the day the clock is set forward. -/
theorem one_fire_halfPastSix :
    ∃ fires, iterCronFires "30 6 * * *" (seconds (86400 * DST_START))
        (seconds (86400 * (DST_START + 2))) newYork2026 = .ok fires ∧
      ∃! t, t ∈ fires ∧ newYork2026.localDay t = DST_START := by
  have htime : OneTime ⟨some [30], some [6], none⟩ 6 30 := by
    refine ⟨?_, ?_, by decide, by decide⟩ <;> intro v _ _ <;> simp [inField]
  obtain ⟨fires, hfires, hone⟩ := one_fire_iff parse_halfPastSix htime newYork2026_lawful.steps
    (by decide)
  refine ⟨fires, hfires, (hone DST_START (fun t => localDay_newYork2026) (by decide)).mpr ?_⟩
  constructor <;>
  · rintro ⟨T, hlow, hhigh⟩
    simp only [Zone.minuteOffset, newYork2026, timeOfDay, DST_START] at hlow hhigh
    split_ifs at * <;> omega

/-- Half past two of 8 March is not planned, and half past one of 1 November is planned twice. -/
theorem fire_skipped_or_repeated :
    (∃ fires, iterCronFires "30 2 * * *" (seconds (86400 * DST_START))
        (seconds (86400 * (DST_START + 2))) newYork2026 = .ok fires ∧
      ∀ t ∈ fires, newYork2026.localDay t ≠ DST_START) ∧
    ∃ fires early late, iterCronFires "30 1 * * *" (seconds (86400 * DST_END))
        (seconds (86400 * (DST_END + 2))) newYork2026 = .ok fires ∧
      early ∈ fires ∧ late ∈ fires ∧ early ≠ late ∧
      newYork2026.localDay early = DST_END ∧ newYork2026.localDay late = DST_END := by
  refine ⟨⟨[seconds 1773037800], by decide +kernel, by decide⟩,
    [seconds 1793511000, seconds 1793514600, seconds 1793601000], seconds 1793511000,
    seconds 1793514600, by decide +kernel, by decide, by decide, by decide, by decide, by decide⟩

end FlexQuery
