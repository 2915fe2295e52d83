import FlexQuery.Library.WallClock
import FlexQuery.Python.DateTime

/-!
# `zoneinfo`

What is taken of a `ZoneInfo`: its clock is set rarely and by little, and a reading with `fold=0`
that is skipped or repeated takes the offset before the setting.

* `Zone.Lawful` — that.
* `DateTime.toUtc_ok` — away from the ends of the calendar a reading names an instant.
* `toUtc_clock` — which shows the reading again, unless it is skipped.
* `newYork2026` — New York in 2026.
-/

set_option autoImplicit false

namespace FlexQuery

open WallClock

/-- A zone as the time zone database has them. -/
structure Zone.Lawful (zone : Zone) (jump apart : ℤ) : Prop where
  steps : Steps zone.utcoffset jump apart
  resolves : Resolves zone.utcoffset zone.localOffset
  bound : ∀ w, -86400 < zone.localOffset w ∧ zone.localOffset w < 86400

/-- A reading that `toUtc` takes for the instant `t`. -/
theorem DateTime.toUtc_eq_ok {zone : Zone} {d : DateTime} {t : ℤ} :
    d.toUtc zone = .ok t ↔ t = d.unix - zone.localOffset d.unix ∧
      -62135596800 ≤ t ∧ t ≤ 253402300799 := by
  unfold DateTime.toUtc
  simp only
  split
  · rename_i h
    rw [Except.ok.injEq]
    constructor
    · rintro rfl
      exact ⟨rfl, h⟩
    · rintro ⟨rfl, _⟩
      rfl
  · rename_i h
    refine iff_of_false nofun ?_
    rintro ⟨rfl, hrange⟩
    exact h hrange

/-- Days that are a day away from the ends of the calendar. -/
theorem DateTime.toUtc_ok {zone : Zone} {d : DateTime} (hzone : ∀ w, -86400 < zone.localOffset w ∧
    zone.localOffset w < 86400) (hfirst : 2 ≤ d.date.ord) (hlast : d.date.ord < 3652059) :
    d.toUtc zone = .ok (d.unix - zone.localOffset d.unix) := by
  rw [DateTime.toUtc_eq_ok]
  obtain ⟨hlow, hhigh⟩ := hzone d.unix
  have hsec := d.sec_lt
  refine ⟨rfl, ?_, ?_⟩ <;> unfold DateTime.unix at * <;> omega

/-- The instant shows the reading. -/
theorem toUtc_clock {zone : Zone} {jump apart t : ℤ} {d : DateTime} (hzone : zone.Lawful jump apart)
    (hshown : ¬ Skipped zone.utcoffset d.unix) (h : d.toUtc zone = .ok t) :
    t + zone.utcoffset t = d.unix := by
  rw [(DateTime.toUtc_eq_ok.mp h).1]
  exact hzone.resolves.round_trip hzone.steps hshown

/-! ## New York -/

/-- America/New_York in 2026: daylight saving time from 8 March, 2:00, to 1 November, 2:00. -/
def newYork2026 : Zone where
  utcoffset := fun t => if 1772953200 ≤ t ∧ t < 1793512800 then -14400 else -18000
  localOffset := fun w => if 1772938800 ≤ w ∧ w < 1793498400 then -14400 else -18000

theorem newYork2026_lawful : newYork2026.Lawful 3600 864000 := by
  constructor
  · constructor
    · decide
    · decide
    · intro s t u hst htu hus
      simp only [newYork2026]
      split_ifs <;> omega
    · intro s t hst hts
      simp only [newYork2026]
      split_ifs <;> omega
  · constructor
    · intro t hrep
      simp only [newYork2026, Repeated, not_exists] at hrep ⊢
      have := hrep 1793512800
      split_ifs at * <;> omega
    · intro T w
      simp only [newYork2026]
      split_ifs <;> omega
    · intro T w
      simp only [newYork2026]
      split_ifs <;> omega
  · intro w
    simp only [newYork2026]
    split_ifs <;> omega

end FlexQuery
