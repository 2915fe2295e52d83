import FlexQuery.Worker.Catchup

/-!
# Which fires the catch-up sees, and under which day

`missed_slots` looks at one planned fire of a slot, the last one before now, and enqueues it under
the day it has in the schedule's zone; `enqueue_slot` names a day of its own, the UTC one.

* `previousFire_of_planned` — there is a last fire when there is one at all.
* `fire_listed_iff` — a fire past its grace is seen exactly when no other one is still within it.
* `same_day_iff` — the two enqueues of a day are one job exactly when their days agree.
-/

set_option autoImplicit false

namespace FlexQuery

/-! ## Fires -/

/-- The instant is a fire of the cron in the zone. -/
def Fires (fields : CronFields) (zone : Zone) (t : ℤ) : Prop :=
  t % MINUTE = 0 ∧ fields.matches (zone.clock t) = true

instance (fields : CronFields) (zone : Zone) (t : ℤ) : Decidable (Fires fields zone t) :=
  inferInstanceAs (Decidable (_ ∧ _))

/-- A cron that `parse_cron` accepts has a last fire before now if it has one in the two weeks. -/
theorem previousFire_of_planned {expr : String} {before f : ℤ} {zone : Zone} {fields : CronFields}
    (hparse : parseCron expr = .ok fields)
    (hf : PlannedIn fields zone (before - seconds (14 * 86400)) before f) :
    ∃ g, previousFire expr before zone = .ok (some g) ∧ f ≤ g := by
  have hok : ∃ fires, iterCronFires expr (before - seconds (14 * 86400)) before zone = .ok fires := by
    unfold iterCronFires
    rw [hparse]
    exact ⟨_, rfl⟩
  obtain ⟨fires, hfires⟩ := hok
  have hmem := ((mem_iterCronFires hparse hfires).2 f).mpr hf
  have hlast : previousFire expr before zone = .ok fires.getLast? := by
    unfold previousFire
    rw [hfires]
    rfl
  cases hg : fires.getLast? with
  | none =>
    rw [List.getLast?_eq_none_iff.mp hg] at hmem
    cases hmem
  | some g =>
    rw [hg] at hlast
    exact ⟨g, hlast, ((previousFire_eq_some hparse).mp hlast).2 f hf⟩

theorem previousFire_isOk {expr : String} {fields : CronFields} (hparse : parseCron expr = .ok fields)
    (before : ℤ) (zone : Zone) : ∃ fire, previousFire expr before zone = .ok fire := by
  unfold previousFire iterCronFires
  rw [hparse]
  exact ⟨_, rfl⟩

/-- The slots' crons are accepted, or there are none. -/
def CronsAccepted (cfg : CatchupConfig) : Prop :=
  ∀ slot ∈ SLOT_NAMES, cfg.cron slot = "" ∨ ∃ fields, parseCron (cfg.cron slot) = .ok fields

theorem missedSlots_isOk {cfg : CatchupConfig} (h : CronsAccepted cfg) (now : Timestamp)
    (jobsSince : String → Option Timestamp) :
    ∃ ms, missedSlots cfg now jobsSince SLOT_NAMES = .ok ms := by
  have hround : ∀ slot ∈ SLOT_NAMES, ∃ m, missedSlot cfg now jobsSince slot = .ok m := by
    intro slot hslot
    unfold missedSlot
    rcases h slot hslot with hnone | ⟨fields, hparse⟩
    · rw [if_pos hnone]
      exact ⟨_, rfl⟩
    · split
      · exact ⟨_, rfl⟩
      · obtain ⟨fire, hfire⟩ := previousFire_isOk hparse now cfg.zone
        rw [hfire]
        cases fire with
        | none => exact ⟨_, rfl⟩
        | some planned =>
          simp only
          split
          · exact ⟨_, rfl⟩
          · split <;> exact ⟨_, rfl⟩
  have hall : ∀ slots : List String, (∀ slot ∈ slots, slot ∈ SLOT_NAMES) →
      ∃ ms, missedSlots cfg now jobsSince slots = .ok ms := by
    intro slots
    induction slots with
    | nil => exact fun _ => ⟨_, rfl⟩
    | cons slot slots ih =>
      intro hsub
      obtain ⟨m, hm⟩ := hround slot (hsub slot List.mem_cons_self)
      obtain ⟨ms, hms⟩ := ih fun x hx => hsub x (List.mem_cons_of_mem _ hx)
      refine ⟨m.toList ++ ms, ?_⟩
      simp only [missedSlots, hm, hms]
  exact hall SLOT_NAMES fun _ hslot => hslot

/-- **A missed fire.**  A fire that is at least the grace and at most a day old, with no job of the
slot's kind created since, is seen by `missed_slots` if and only if no fire of the slot is younger
than the grace. -/
theorem fire_listed_iff {cfg : CatchupConfig} {now f : ℤ} {slot : String}
    {fields : CronFields} {t : JobTable} (hcrons : CronsAccepted cfg) (hslot : slot ∈ SLOT_NAMES)
    (hcron : parseCron (cfg.cron slot) = .ok fields) (hf : Fires fields cfg.zone f)
    (hpast : f < now) (hgrace : seconds cfg.graceSec ≤ now - f) (hday : now - f ≤ seconds 86400)
    (hjobs : ∀ r ∈ t.rows, r.kind = slotKind slot → r.createdAt < f) :
    ∃ ms, missedSlots cfg now (newestJobPerKind t) SLOT_NAMES = .ok ms ∧
      ((∃ m ∈ ms, m.slot = slot) ↔
        ∀ g, Fires fields cfg.zone g → ¬ (now - g < seconds cfg.graceSec ∧ g < now)) := by
  obtain ⟨ms, hms⟩ := missedSlots_isOk hcrons now (newestJobPerKind t)
  have hne : cfg.cron slot ≠ "" := by
    intro hempty
    rw [hempty] at hcron
    cases hcron
  have hwindow : ∀ g, Fires fields cfg.zone g → g < now → now - g ≤ seconds 86400 →
      PlannedIn fields cfg.zone (now - seconds (14 * 86400)) now g := by
    intro g hg hlt hle
    refine ⟨?_, hlt, hg.1, hg.2⟩
    unfold seconds at *
    omega
  refine ⟨ms, hms, ?_⟩
  constructor
  · rintro ⟨m, hm, rfl⟩ g hg ⟨hyoung, hlt⟩
    -- The listed fire is the last one, and past its grace.
    obtain ⟨_, _, hplanned, hold, _, _, _⟩ :=
      missedSlot_eq_some.mp ((missedSlots_mem hms).mp hm).2
    have hage : now - g ≤ seconds 86400 := by omega
    have hle : g ≤ m.plannedAt :=
      ((previousFire_eq_some hcron).mp hplanned).2 g (hwindow g hg hlt hage)
    omega
  · intro hnone
    obtain ⟨g, hg, hfg⟩ := previousFire_of_planned hcron (hwindow f hf hpast hday)
    obtain ⟨⟨_, hlt, hwhole, hmatches⟩, _⟩ := (previousFire_eq_some hcron).mp hg
    have hold : seconds cfg.graceSec ≤ now - g := by
      by_contra hyoung
      exact hnone g ⟨hwhole, hmatches⟩ ⟨not_le.mp hyoung, hlt⟩
    refine ⟨⟨slot, g, cfg.zone.day g⟩, (missedSlots_mem hms).mpr ⟨hslot, ?_⟩, rfl⟩
    have hage : now - g ≤ seconds 86400 := by omega
    refine missedSlot_eq_some.mpr ⟨rfl, hne, hg, hold, hage, ?_, rfl⟩
    rw [newestJobPerKind_lt]
    intro r hr hkind
    exact lt_of_lt_of_le (hjobs r hr hkind) hfg

theorem fires_morning {t : ℤ} : Fires ⟨some [30], some [6], none⟩ .utc t ↔
    t % MINUTE = 0 ∧ t / 60000000 % 60 = 30 ∧ t / 3600000000 % 24 = 6 := by
  simp [Fires, CronFields.matches, inField, Zone.clock, Zone.utc, seconds]

/-- The fire of half past six, looked at 45 minutes later. -/
theorem fire_listed_morning :
    ∃ ms, missedSlots morningOnly (seconds 26100) (newestJobPerKind JobTable.empty) SLOT_NAMES =
      .ok ms ∧ ∃ m ∈ ms, m.slot = "flex-trades" := by
  have hparse : parseCron (morningOnly.cron "flex-trades") =
      .ok ⟨some [30], some [6], none⟩ := by
    decide +kernel
  have hcrons : CronsAccepted morningOnly := by
    intro slot hslot
    rcases List.mem_pair.mp hslot with rfl | rfl
    · exact Or.inr ⟨_, hparse⟩
    · exact Or.inl rfl
  have hfire : Fires ⟨some [30], some [6], none⟩ morningOnly.zone (seconds 23400) := by decide
  have hnone : ∀ g, Fires ⟨some [30], some [6], none⟩ morningOnly.zone g →
      ¬ (seconds 26100 - g < seconds morningOnly.graceSec ∧ g < seconds 26100) := by
    intro g hg
    obtain ⟨_, hminute, hhour⟩ := fires_morning.mp hg
    unfold morningOnly seconds
    simp only
    omega
  have hjobs : ∀ r ∈ JobTable.empty.rows, r.kind = slotKind "flex-trades" →
      r.createdAt < seconds 23400 := by
    intro r hr
    cases hr
  have hpast : seconds 23400 < seconds 26100 := by decide
  have hgrace : seconds morningOnly.graceSec ≤ seconds 26100 - seconds 23400 := by decide
  have hday : seconds 26100 - seconds 23400 ≤ seconds 86400 := by decide
  have hslot : "flex-trades" ∈ SLOT_NAMES := List.mem_cons_self
  obtain ⟨ms, hms, hlisted⟩ :=
    fire_listed_iff hcrons hslot hparse hfire hpast hgrace hday hjobs
  exact ⟨ms, hms, hlisted.mpr hnone⟩

/-- A slot that fires every hour. -/
def hourly : CatchupConfig where
  zone := .utc
  cron := fun slot => if slot = "flex-trades" then "0 * * * *" else ""
  graceSec := 2700

/-- Half past six: the fire of five o'clock brought no job, and is not seen. -/
theorem fire_unseen : ∃ fields, parseCron (hourly.cron "flex-trades") = .ok fields ∧
    Fires fields hourly.zone (seconds 18000) ∧
    seconds hourly.graceSec ≤ seconds 23400 - seconds 18000 ∧
    seconds 23400 - seconds 18000 ≤ seconds 86400 ∧
    ∃ ms, missedSlots hourly (seconds 23400) (newestJobPerKind JobTable.empty) SLOT_NAMES = .ok ms ∧
      ∀ m ∈ ms, m.slot ≠ "flex-trades" := by
  have hparse : parseCron (hourly.cron "flex-trades") = .ok ⟨some [0], none, none⟩ := by
    decide +kernel
  have hcrons : CronsAccepted hourly := by
    intro slot hslot
    rcases List.mem_pair.mp hslot with rfl | rfl
    · exact Or.inr ⟨_, hparse⟩
    · exact Or.inl rfl
  have hsix : PlannedIn ⟨some [0], none, none⟩ hourly.zone
      (seconds 23400 - seconds (14 * 86400)) (seconds 23400) (seconds 21600) := by
    unfold PlannedIn
    decide
  obtain ⟨ms, hms⟩ := missedSlots_isOk hcrons (seconds 23400) (newestJobPerKind JobTable.empty)
  refine ⟨_, hparse, by decide, by decide, by decide, ms, hms, ?_⟩
  intro m hm hslot
  obtain ⟨_, _, hplanned, hold, _⟩ := missedSlot_eq_some.mp ((missedSlots_mem hms).mp hm).2
  rw [hslot] at hplanned
  have hle : seconds 21600 ≤ m.plannedAt := ((previousFire_eq_some hparse).mp hplanned).2 _ hsix
  unfold hourly seconds at hold
  unfold seconds at hle
  simp only at hold
  omega

/-! ## Days -/

theorem slotIdentity_unnamed {payload : Dict} (h : payload.get "as_of" = none) (t : Timestamp) :
    slotIdentity t payload =
      (payload.filter fun e => e.1 ∉ EXECUTION_KEYS) ++ [("as_of", .str (utcDay t))] := by
  unfold slotIdentity Dict.setdefault
  rw [h, Option.isSome_none, if_neg Bool.false_ne_true, List.filter_append]
  rfl

theorem slotEntry_eq {payloadHash : Dict → String} {slot : String} (hslot : slot ∈ SLOT_NAMES)
    (t : Timestamp) (payload : Dict) :
    slotEntry payloadHash t slot payload = some (slot, payloadHash (slotIdentity t payload)) := by
  have hnames : ∀ s ∈ SLOT_NAMES, lower (strip s) = s ∧ strip s = s := by decide
  obtain ⟨hkey, hstrip⟩ := hnames slot hslot
  unfold slotEntry
  rw [hkey, if_neg (not_not.mpr hslot), slotKind, hstrip]

/-- While a job with its entry is active, an enqueue changes no row. -/
theorem enqueueSlot_deduped {payloadHash : Dict → String} {slots : String → SlotConfig}
    {t : Timestamp} {slot : String} {payload : Dict} {queue queue' : JobTable}
    {res : EnqueueResult} {e : String × String}
    (hentry : slotEntry payloadHash t slot payload = some e)
    (hactive : ∃ r ∈ queue.rows, r.activeKey = some e)
    (h : enqueueSlot payloadHash slots t slot payload queue = .ok (queue', res)) :
    queue'.rows = queue.rows := by
  obtain ⟨kind, hash, priority, n, _, hentry', hins⟩ := enqueueSlot_ok h
  rw [hentry] at hentry'
  cases hentry'
  have hkey : ({ newJob t kind (slotBody t payload) hash priority n with id := queue.nextId } :
      JobRow).activeKey = some (kind, hash) := rfl
  have hrows := (JobTable.insert_rows_eq_iff hkey).mpr hactive
  rw [hins] at hrows
  exact hrows

/-- The enqueue at `t` and the catch-up's of the fire `p` are one job: they have one entry, and
while a job with it is active the other changes nothing. -/
def OneJob (cfg : QueueConfig) (zone : Zone) (p t : Timestamp) (slot : String) (payload : Dict) :
    Prop :=
  ∀ now, slotEntry cfg.payloadHash t slot payload =
      slotEntry cfg.payloadHash now slot (catchupPayload (zone.day p)) ∧
    ∀ queue queue' res, (∃ r ∈ queue.rows, r.activeKey =
        slotEntry cfg.payloadHash now slot (catchupPayload (zone.day p))) →
      (enqueueSlot cfg.payloadHash cfg.slots t slot payload queue = .ok (queue', res) ∨
        enqueueSlot cfg.payloadHash cfg.slots now slot (catchupPayload (zone.day p)) queue =
          .ok (queue', res)) → queue'.rows = queue.rows

/-- **The day of a late enqueue.**  On the local day of the fire `p`, an enqueue at `t` that names
no day is the catch-up's job of `p` exactly when it names no other key that identifies a job and
UTC has the date of the zone at `t`. -/
theorem same_day_iff {cfg : QueueConfig} {zone : Zone} {p t : Timestamp} {slot : String}
    {payload : Dict} (hslot : slot ∈ SLOT_NAMES) (hlocal : zone.day t = zone.day p)
    (hunnamed : payload.get "as_of" = none)
    (hhash : cfg.payloadHash (slotIdentity t payload) =
        cfg.payloadHash [("as_of", .str (zone.day p))] →
      slotIdentity t payload = [("as_of", .str (zone.day p))]) :
    OneJob cfg zone p t slot payload ↔
      (∀ e ∈ payload, e.1 ∈ EXECUTION_KEYS) ∧ utcDay t = zone.day t := by
  have hidentity : slotIdentity t payload = [("as_of", .str (zone.day p))] ↔
      (∀ e ∈ payload, e.1 ∈ EXECUTION_KEYS) ∧ utcDay t = zone.day t := by
    have hknobs : (payload.filter fun e => e.1 ∉ EXECUTION_KEYS) = [] ↔
        ∀ e ∈ payload, e.1 ∈ EXECUTION_KEYS := by
      simp [List.filter_eq_nil_iff]
    rw [slotIdentity_unnamed hunnamed, ← hlocal, ← hknobs]
    constructor
    · intro h
      have hnil : (payload.filter fun e => e.1 ∉ EXECUTION_KEYS) = [] := by
        have hlen := congrArg List.length h
        rw [List.length_append, List.length_singleton, List.length_singleton] at hlen
        exact List.length_eq_zero_iff.mp (by omega)
      rw [hnil] at h
      refine ⟨hnil, ?_⟩
      simpa using h
    · rintro ⟨hnil, hutc⟩
      rw [hnil, hutc]
      rfl
  have hcatchup : ∀ now, slotEntry cfg.payloadHash now slot (catchupPayload (zone.day p)) =
      some (DayEntry cfg slot (zone.day p)) :=
    slotEntry_namesDay hslot (catchupPayload_namesDay _)
  rw [← hidentity]
  constructor
  · intro hone
    have hsame := (hone t).1
    rw [hcatchup, slotEntry_eq hslot] at hsame
    exact hhash (Prod.mk.inj (Option.some.inj hsame)).2
  · intro hsame now
    have hentry : slotEntry cfg.payloadHash t slot payload =
        some (DayEntry cfg slot (zone.day p)) := by
      rw [slotEntry_eq hslot, hsame]
      rfl
    rw [hcatchup now, hentry]
    refine ⟨rfl, ?_⟩
    rintro queue queue' res hactive (h | h)
    · exact enqueueSlot_deduped hentry hactive h
    · exact enqueueSlot_deduped (hcatchup now) hactive h

/-- `config/schedule.yaml`, with the hashes of the payloads that name one of two days. -/
def twoDayConfig : QueueConfig :=
  { scheduleConfig with
    payloadHash := fun payload =>
      match payload.get "as_of" with
      | some (.str "2026-09-05") => "2ede08bdce737b56"
      | _ => "04a38a701102a1d4" }

/-- New York in summer. -/
def summerTime : Zone := ⟨fun _ => -14400, fun _ => -14400⟩

/-- Half past six and twenty past seven on 2026-09-04 in New York. -/
theorem same_day_morning :
    OneJob twoDayConfig summerTime (seconds 1788517800) (seconds 1788520800) "flex-trades" [] := by
  have hutc : utcDay (seconds 1788520800) = "2026-09-04" := by decide +kernel
  have hday : summerTime.day (seconds 1788517800) = "2026-09-04" := by decide +kernel
  have hlater : summerTime.day (seconds 1788520800) = "2026-09-04" := by decide +kernel
  refine (same_day_iff List.mem_cons_self (hlater.trans hday.symm) rfl ?_).mpr
    ⟨nofun, hutc.trans hlater.symm⟩
  intro _
  rw [slotIdentity_unnamed rfl, hutc, hday]
  rfl

/-- At half past eight in the evening of 2026-09-04 in New York, UTC is in the next day: the
enqueue is another job than the one of the morning's fire. -/
theorem evening_enqueue_differs :
    summerTime.day (seconds 1788568200) = summerTime.day (seconds 1788517800) ∧
      ¬ OneJob twoDayConfig summerTime (seconds 1788517800) (seconds 1788568200) "flex-trades"
        [] := by
  have hday : summerTime.day (seconds 1788517800) = "2026-09-04" := by decide +kernel
  have hevening : summerTime.day (seconds 1788568200) = "2026-09-04" := by decide +kernel
  have hutc : utcDay (seconds 1788568200) = "2026-09-05" := by decide +kernel
  refine ⟨hevening.trans hday.symm, fun hone => ?_⟩
  have hsame := (hone 0).1
  rw [slotEntry_eq List.mem_cons_self, slotEntry_eq List.mem_cons_self, slotIdentity_unnamed rfl,
    hutc, hday] at hsame
  exact absurd hsame (by decide)

end FlexQuery
