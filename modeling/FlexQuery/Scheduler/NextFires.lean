import FlexQuery.Scheduler.Cron

/-!
# The fires around an instant

`next_fires` moves its start by a minute, and `iter_cron_fires` rounds it up to a minute.

* `Brackets` — `next_fires` and `previous_fire` leave out no fire between them and `now`.
* `brackets_iff` — for which instants they do not.
-/

set_option autoImplicit false

namespace FlexQuery

/-- How far both functions look. -/
def HORIZON : ℤ := seconds (14 * 86400)

/-- Exactly the fires of a range, in increasing order. -/
def FiresOf (fields : CronFields) (zone : Zone) (start stop : ℤ) (fires : List ℤ) : Prop :=
  fires.Pairwise (· < ·) ∧ ∀ t, t ∈ fires ↔ PlannedIn fields zone start stop t

/-- No fire is left out, on either side of `now`. -/
structure Brackets (expr : String) (fields : CronFields) (zone : Zone) (now : ℤ) : Prop where
  /-- For every count, `next_fires` returns the first fires strictly after `now`. -/
  first : ∃ upcoming, FiresOf fields zone (now + 1) (now + HORIZON) upcoming ∧
    ∀ count, nextFires expr now count zone = .ok (upcoming.take (max 0 count).toNat)
  next : ∀ fire rest, nextFires expr now 1 zone = .ok (fire :: rest) →
    ∀ t, ¬ PlannedIn fields zone (now + 1) fire t
  previous : ∃ last, previousFire expr now zone = .ok last ∧
    ∀ t, PlannedIn fields zone (now - HORIZON) now t → ∃ f, last = some f ∧ t ≤ f

/-- The fires from a minute later on are the later fires, but for a fire at the next whole
minute. -/
theorem planned_later {fields : CronFields} {zone : Zone} {now stop t : ℤ}
    (h : now % MINUTE = 0 ∨ fields.matches (zone.clock (firstMinute now)) = false) :
    PlannedIn fields zone (now + MINUTE) stop t ↔ PlannedIn fields zone (now + 1) stop t := by
  obtain ⟨hge, hlt, hwhole⟩ := firstMinute_spec now
  unfold PlannedIn
  constructor
  · rintro ⟨hstart, hstop, hmod, hfires⟩
    exact ⟨by unfold MINUTE at hstart; omega, hstop, hmod, hfires⟩
  · rintro ⟨hstart, hstop, hmod, hfires⟩
    refine ⟨?_, hstop, hmod, hfires⟩
    rcases h with h | h
    · unfold MINUTE at *
      omega
    · have hne : t ≠ firstMinute now := by
        rintro rfl
        rw [hfires] at h
        cases h
      unfold MINUTE at *
      omega

/-- What `previous_fire` finds. -/
theorem previousFire_last {expr : String} {fields : CronFields}
    (hparse : parseCron expr = .ok fields) (zone : Zone) (now : ℤ) :
    ∃ last, previousFire expr now zone = .ok last ∧
      ∀ t, PlannedIn fields zone (now - HORIZON) now t → ∃ f, last = some f ∧ t ≤ f := by
  obtain ⟨fires, hfires, _, hmem⟩ := iterCronFires_planned hparse (now - HORIZON) now zone
  have hlast : previousFire expr now zone = .ok fires.getLast? := by
    unfold previousFire
    rw [show iterCronFires expr (now - seconds (14 * 86400)) now zone = .ok fires from hfires]
    rfl
  refine ⟨_, hlast, ?_⟩
  intro t ht
  cases hf : fires.getLast? with
  | none =>
    rw [List.getLast?_eq_none_iff] at hf
    have := (hmem t).mpr ht
    simp [hf] at this
  | some f =>
    rw [hf] at hlast
    exact ⟨f, rfl, ((previousFire_eq_some hparse).mp hlast).2 t ht⟩

/-- **The fires around an instant.**  None is left out exactly when `now` is a whole minute or the
next whole minute is not a fire. -/
theorem brackets_iff {expr : String} {fields : CronFields} (hparse : parseCron expr = .ok fields)
    (zone : Zone) (now : ℤ) :
    Brackets expr fields zone now ↔
      now % MINUTE = 0 ∨ fields.matches (zone.clock (firstMinute now)) = false := by
  obtain ⟨fires, hfires, hsorted, hmem⟩ :=
    iterCronFires_planned hparse (now + MINUTE) (now + HORIZON) zone
  have hnext : ∀ count, nextFires expr now count zone =
      .ok (fires.take (max 0 count).toNat) := by
    intro count
    unfold nextFires
    rw [show iterCronFires expr (now + MINUTE) (now + seconds (14 * 86400)) zone = .ok fires
      from hfires]
    rfl
  constructor
  · rintro ⟨⟨upcoming, ⟨hsorted', hmem'⟩, hfirst⟩, _, _⟩
    by_contra hmissed
    rw [not_or, Bool.not_eq_false] at hmissed
    obtain ⟨hpart, hfire⟩ := hmissed
    obtain ⟨hge, hlt, hwhole⟩ := firstMinute_spec now
    -- The fire at the next whole minute is one of those after `now`, so it heads them.
    have hplanned : PlannedIn fields zone (now + 1) (now + HORIZON) (firstMinute now) := by
      refine ⟨?_, ?_, hwhole, hfire⟩ <;> unfold HORIZON seconds MINUTE at * <;> omega
    have hin := (hmem' _).mpr hplanned
    have hall : upcoming = fires := by
      have htake := hfirst (max upcoming.length fires.length : ℕ)
      rw [hnext] at htake
      have hlen : (max 0 ((max upcoming.length fires.length : ℕ) : ℤ)).toNat =
          max upcoming.length fires.length := by omega
      rw [hlen, List.take_of_length_le (le_max_right _ _),
        List.take_of_length_le (le_max_left _ _)] at htake
      exact (Except.ok.inj htake).symm
    rw [hall] at hin
    have hstart := ((hmem _).mp hin).1
    omega
  · intro h
    refine ⟨⟨fires, ⟨hsorted, fun t => (hmem t).trans (planned_later h)⟩, hnext⟩, ?_,
      previousFire_last hparse zone now⟩
    intro fire rest hfire t ht
    rw [hnext 1] at hfire
    obtain ⟨rest', hcons⟩ : ∃ rest', fires = fire :: rest' := by
      cases fires with
      | nil => simp at hfire
      | cons f fs =>
        simp only [Except.ok.injEq] at hfire
        exact ⟨fs, by rw [(List.cons.inj hfire).1]⟩
    -- A fire before the first one found would itself be found.
    have hfound := (hmem fire).mp (by simp [hcons])
    have htmem : t ∈ fires :=
      (hmem t).mpr ((planned_later h).mpr ⟨ht.1, lt_trans ht.2.1 hfound.2.1, ht.2.2⟩)
    rw [hcons] at htmem hsorted
    have hlt := ht.2.1
    rcases List.mem_cons.mp htmem with rfl | hmem'
    · omega
    · have := (List.pairwise_cons.mp hsorted).1 t hmem'
      omega

/-- At half past five nothing is left out. -/
theorem brackets_halfPastFive :
    Brackets "30 6 * * *" ⟨some [30], some [6], none⟩ .utc (seconds 19800) :=
  (brackets_iff parse_halfPastSix .utc (seconds 19800)).mpr (Or.inl (by decide))

/-- Half a minute before the fire of half past six, the next one is tomorrow's. -/
theorem next_skips_halfPastSix :
    ∃ fire, nextFires "30 6 * * *" (seconds 23370) 1 .utc = .ok [fire] ∧
      PlannedIn ⟨some [30], some [6], none⟩ .utc (seconds 23370 + 1) fire (seconds 23400) :=
  ⟨seconds 109800, by decide +kernel, by decide, by decide, by decide, by decide⟩

end FlexQuery
