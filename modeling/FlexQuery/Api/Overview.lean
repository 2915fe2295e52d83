import FlexQuery.Api.ConfigSummary
import FlexQuery.Api.Dashboard
import FlexQuery.Library.LastWrite
import FlexQuery.Queue.Freshness
import FlexQuery.Scheduler.NextFires

/-!
# The overview

`freshness_kpis` of `api/freshness_kpis.py`: when a run last succeeded, what the newest job came to,
and between which planned fires the present lies.

* `freshnessKpis` — what the overview shows.
* `successWritten` — the steps that write a success to the freshness table.
* `lastSync_exact` — the last successful sync is the last of these, whoever wrote it.
* `overview_brackets` — no planned fire of any slot lies between the two that are shown.
-/

set_option autoImplicit false

namespace FlexQuery

open LastWrite Transition

/-! ## What is shown -/

/-- The keys of `last_run`. -/
structure LastRun where
  runAt : Option Timestamp
  status : Status
  kind : String
  error : Option String
  errorCategory : Option String
  nextRetryAt : Option Timestamp

structure FreshnessKpis where
  lastSuccessfulSync : Option Timestamp
  lastRun : Option LastRun
  nextScheduledRun : Option (Timestamp × String)
  lastPlanned : Option Timestamp

/-- The rows of the freshness table, by dimension. -/
abbrev FreshnessRows := List (String × FreshnessRow)

/-- These are the rows of the table. -/
def Lists (rows : FreshnessRows) (t : FreshnessTable) : Prop :=
  ∀ dimension row, (dimension, row) ∈ rows ↔ t dimension = some row

/-- `last_success_at`: the newest `latest_ts`, or the end of the last job that is done. -/
def lastSuccessfulSync (rows : FreshnessRows) (t : JobTable) : Option Timestamp :=
  ((rows.filterMap fun r => r.2.latestTs).max?).or
    ((t.rows.filter fun r => r.status = .done).filterMap JobRow.finishedAt).max?

/-- `str(res.get("error"))[:500]` of the job's result. -/
def resultError (repr : Json → String) : Option Json → Option String
  | some (.obj fields) =>
    ((Dict.get fields "error").filter Json.truthy).map fun e => slice (pyStr repr e) 500
  | _ => none

/-- `ORDER BY id DESC LIMIT 1`. -/
def newestJob (t : JobTable) : Option JobRow := RowTable.firstBy (fun a b => b.id < a.id) t.rows

/-- `last_run`. -/
def lastRun (repr : Json → String) (t : JobTable) : Option LastRun :=
  (newestJob t).map fun r => {
    runAt := (r.finishedAt.or r.startedAt).or (some r.createdAt)
    status := r.status
    kind := r.kind
    error := resultError repr r.result
    errorCategory := r.errorCategory
    nextRetryAt := if r.status = .pending then r.notBefore else none }

/-- The best of what is read of the slots, and which one that is; of equals the first. -/
def bestFire (better : Timestamp → Timestamp → Bool)
    (read : String → Except PyExc (Option Timestamp)) :
    List String → Option (Timestamp × String) → Except PyExc (Option (Timestamp × String))
  | [], found => .ok found
  | slot :: slots, found =>
    match read slot with
    | .error e => .error e
    | .ok none => bestFire better read slots found
    | .ok (some fire) => bestFire better read slots
        (if found.all fun f => better fire f.1 then some (fire, slot) else found)

/-- `next_fires(cron, after=now, count=1, tz=tz)`; none for a slot without a cron. -/
def firstFire (sched : CatchupConfig) (now : Timestamp) (slot : String) :
    Except PyExc (Option Timestamp) :=
  if sched.cron slot = "" then .ok none
  else (nextFires (sched.cron slot) now 1 sched.zone).map List.head?

/-- `freshness_kpis`. -/
def freshnessKpis (repr : Json → String) (sched : CatchupConfig) (now : Timestamp)
    (rows : FreshnessRows) (t : JobTable) : Except PyExc FreshnessKpis := do
  let next ← bestFire (· < ·) (firstFire sched now) SLOT_NAMES none
  let planned ← bestFire (· > ·) (plannedLast sched now) SLOT_NAMES none
  return {
    lastSuccessfulSync := lastSuccessfulSync rows t
    lastRun := lastRun repr t
    nextScheduledRun := next
    lastPlanned := planned.map Prod.fst }

/-! ## The last successful sync -/

/-- The kind whose success the step writes to the freshness table. -/
def successWritten (s : FreshSys) : Timestamp × FreshAction → Option String
  | (_, .recordSuccess w _ _) =>
    match s.queue.workers w with
    | .running j => some (strip j.kind)
    | _ => none
  | (_, .recordOutcome o) => (s.owed o).bind fun a => if a.ok then some a.dimension else none
  | (_, .unaudited kind res) => if res.ok && res.said.isEmpty then some kind else none
  | _ => none

/-- The times in the freshness table are those of the successes. -/
theorem writes_latest (cfg : QueueConfig) :
    Stamped (freshStep cfg) (fun s => s.fresh.latestTs) Prod.fst successWritten := by
  intro s e s' h
  have hboard : s'.board.latest = (s.board.apply e.1 (changeOf cfg s e)).latest := by
    rw [(freshStep_board h).1]
  change s'.board.latest = _
  rw [hboard]
  obtain ⟨now, e⟩ := e
  cases e with
  | queue a =>
    simp only [changeOf, successWritten]
    cases step cfg s.queue (now, a) with
    | none => rfl
    | some q =>
      simp only [queueChange]
      cases s.marks cfg q a with
      | some x => rfl
      | none => cases a <;> rfl
  | recordSuccess w processedRows newRows =>
    simp only [changeOf, successWritten]
    cases s.queue.workers w <;> rfl
  | recordOutcome o =>
    simp only [changeOf, successWritten, Board.State.apply, FreshSys.board]
    cases ho : s.owed o with
    | none => rfl
    | some a => cases hok : a.ok <;> simp [hok]
  | unaudited kind res =>
    simp only [changeOf, successWritten, Board.State.apply]
    cases res.ok && res.said.isEmpty <;> rfl
  | loseManual k => rfl

theorem Lists.times {rows : FreshnessRows} {t : FreshnessTable} (h : Lists rows t) (ts : Timestamp) :
    ts ∈ rows.filterMap (fun r => r.2.latestTs) ↔ ∃ kind, t.latestTs kind = some ts := by
  simp only [List.mem_filterMap, FreshnessTable.latestTs, Option.bind_eq_some_iff]
  constructor
  · rintro ⟨⟨kind, row⟩, hrow, hts⟩
    exact ⟨kind, row, (h kind row).mp hrow, hts⟩
  · rintro ⟨kind, row, hrow, hts⟩
    exact ⟨(kind, row), (h kind row).mpr hrow, hts⟩

/-- **The last successful sync**, after any run whose clock does not go back: the time of the last
step that wrote a success, by a worker or for a manual run, and of whatever kind.  Until there is
one, the overview shows when the last job that is done has ended. -/
theorem lastSync_exact {cfg : QueueConfig} {events : List (Timestamp × FreshAction)} {s : FreshSys}
    {rows : FreshnessRows} (hclock : events.Pairwise fun a b => a.1 ≤ b.1)
    (h : exec (freshStep cfg) FreshSys.init events = some s) (hrows : Lists rows s.fresh) :
    (∀ pre e post u v, events = pre ++ e :: post → exec (freshStep cfg) FreshSys.init pre = some u →
      (successWritten u e).isSome = true → freshStep cfg u e = some v →
      Along (freshStep cfg) (fun x b => successWritten x b = none) v post →
        lastSuccessfulSync rows s.queue.table = some e.1) ∧
    (Along (freshStep cfg) (fun x b => successWritten x b = none) FreshSys.init events →
      lastSuccessfulSync rows s.queue.table =
        ((s.queue.table.rows.filter fun r => r.status = .done).filterMap JobRow.finishedAt).max?) := by
  constructor
  · rintro pre e post u v rfl hu hwritten hv hquiet
    obtain ⟨kind, hkind⟩ := Option.isSome_iff_exists.mp hwritten
    obtain ⟨u', hu', hpost⟩ := exec_append.mp h
    obtain rfl := Option.some.inj (hu.symm.trans hu')
    obtain ⟨v', hv', hpost⟩ := exec_cons.mp hpost
    obtain rfl := Option.some.inj (hv.symm.trans hv')
    have hbefore : ∀ b ∈ pre, b.1 ≤ e.1 := fun b hb =>
      (List.pairwise_append.mp hclock).2.2 b hb e List.mem_cons_self
    have hnewest := newest_last (writes_latest cfg) (fun _ => rfl) hbefore hu hkind hv hquiet hpost
    rw [lastSuccessfulSync, hnewest.max_eq hrows.times]
    rfl
  · intro hquiet
    have hnewest := newest_none (writes_latest cfg) (fun _ => rfl) hquiet h
    rw [lastSuccessfulSync, hnewest.max_eq hrows.times]
    rfl

/-- A manual run of each kind, both good, and neither with a row of its own. -/
def twoByHand : List (Timestamp × FreshAction) :=
  [(1, .unaudited "flex-trades" ⟨true, [], none, 3, []⟩),
    (2, .unaudited "flex-transactions" ⟨true, [], none, 5, []⟩)]

theorem lastSync_exact_byHand :
    ∃ s rows, exec (freshStep scheduleConfig) FreshSys.init twoByHand = some s ∧
      Lists rows s.fresh ∧ lastSuccessfulSync rows s.queue.table = some 2 := by
  have hlists : ∀ row row' : FreshnessRow,
      Lists [("flex-trades", row), ("flex-transactions", row')] (Function.update
        (Function.update (fun _ => none) "flex-trades" (some row)) "flex-transactions"
        (some row')) := by
    intro row row' dimension r
    by_cases hcash : dimension = "flex-transactions"
    · simp [hcash, eq_comm]
    · by_cases htrades : dimension = "flex-trades"
      · simp [htrades, eq_comm]
      · simp [hcash, htrades]
  have hclock : twoByHand.Pairwise fun a b => a.1 ≤ b.1 := by decide
  refine ⟨_, _, rfl, hlists _ _, ?_⟩
  have hlast := (lastSync_exact hclock
    (show exec (freshStep scheduleConfig) FreshSys.init twoByHand = some _ from rfl)
    (hlists _ _)).1
  exact hlast (twoByHand.take 1) (2, .unaudited "flex-transactions" ⟨true, [], none, 5, []⟩) [] _ _
    rfl rfl rfl rfl trivial

/-! ## The fires around the present -/

section Best
variable {better : Timestamp → Timestamp → Bool} {read : String → Except PyExc (Option Timestamp)}
  {rank : Timestamp → ℤ}

/-- Nothing that was read comes before what is found. -/
theorem bestFire_best (hrank : ∀ a b, better a b = true ↔ rank a < rank b) {slots : List String}
    {found o : Option (Timestamp × String)} (h : bestFire better read slots found = .ok o) :
    (∀ g, found = some g → ∃ f, o = some f ∧ rank f.1 ≤ rank g.1) ∧
      ∀ slot ∈ slots, ∀ fire, read slot = .ok (some fire) →
        ∃ f, o = some f ∧ rank f.1 ≤ rank fire := by
  induction slots generalizing found with
  | nil =>
    cases h
    exact ⟨fun g hg => ⟨g, hg, le_refl _⟩, by rintro _ ⟨⟩⟩
  | cons slot slots ih =>
    simp only [bestFire] at h
    cases hread : read slot with
    | error e =>
      rw [hread] at h
      cases h
    | ok fire =>
      rw [hread] at h
      cases fire with
      | none =>
        obtain ⟨hfound, hslots⟩ := ih h
        refine ⟨hfound, ?_⟩
        intro slot' hslot' fire' hfire'
        rcases List.mem_cons.mp hslot' with rfl | hslot'
        · rw [hread] at hfire'
          cases hfire'
        · exact hslots slot' hslot' fire' hfire'
      | some fire =>
        obtain ⟨hnext, hslots⟩ := ih h
        -- What is kept comes no later than the fire, nor than what was found before.
        have hkept : ∃ f, o = some f ∧ rank f.1 ≤ rank fire ∧
            ∀ g, found = some g → rank f.1 ≤ rank g.1 := by
          cases found with
          | none =>
            obtain ⟨f, hf, hbest⟩ := hnext (fire, slot) rfl
            exact ⟨f, hf, hbest, by rintro _ ⟨⟩⟩
          | some g =>
            by_cases hbetter : rank fire < rank g.1
            · obtain ⟨f, hf, hbest⟩ := hnext (fire, slot) (by simp [(hrank _ _).mpr hbetter])
              refine ⟨f, hf, hbest, ?_⟩
              rintro _ ⟨⟩
              exact le_trans hbest (le_of_lt hbetter)
            · have hworse : better fire g.1 = false := by
                rw [← Bool.not_eq_true, hrank]
                exact hbetter
              obtain ⟨f, hf, hbest⟩ := hnext g (by simp [hworse])
              refine ⟨f, hf, le_trans hbest (not_lt.mp hbetter), ?_⟩
              rintro _ ⟨⟩
              exact hbest
        obtain ⟨f, hf, hfire, hfound⟩ := hkept
        refine ⟨fun g hg => ⟨f, hf, hfound g hg⟩, ?_⟩
        intro slot' hslot' fire' hfire'
        rcases List.mem_cons.mp hslot' with rfl | hslot'
        · rw [hread] at hfire'
          cases hfire'
          exact ⟨f, hf, hfire⟩
        · exact hslots slot' hslot' fire' hfire'

end Best

/-- The first fire from the next minute on. -/
theorem firstFire_planned {sched : CatchupConfig} {slot : String} {fields : CronFields}
    (hcron : sched.cron slot ≠ "") (hparse : parseCron (sched.cron slot) = .ok fields)
    {now t : Timestamp} (ht : PlannedIn fields sched.zone (now + MINUTE) (now + HORIZON) t) :
    ∃ fire, firstFire sched now slot = .ok (some fire) ∧ fire ≤ t := by
  obtain ⟨fires, hfires, hsorted, hmem⟩ :=
    iterCronFires_planned hparse (now + MINUTE) (now + HORIZON) sched.zone
  have hnext : nextFires (sched.cron slot) now 1 sched.zone = .ok (fires.take 1) := by
    unfold nextFires
    rw [show iterCronFires (sched.cron slot) (now + MINUTE) (now + seconds (14 * 86400))
      sched.zone = .ok fires from hfires]
    rfl
  have hin := (hmem t).mpr ht
  cases fires with
  | nil => cases hin
  | cons fire fires =>
    refine ⟨fire, ?_, ?_⟩
    · rw [firstFire, if_neg hcron, hnext]
      rfl
    · rcases List.mem_cons.mp hin with rfl | hin
      · exact le_refl _
      · exact le_of_lt ((List.pairwise_cons.mp hsorted).1 t hin)

/-- **The present in its bracket.**  Of every slot whose cron is accepted: no planned fire of the
last two weeks is later than the one the overview shows as the last, and none from the next minute
on is earlier than the one it shows as the next. -/
theorem overview_brackets {repr : Json → String} {sched : CatchupConfig} {now : Timestamp}
    {rows : FreshnessRows} {t : JobTable} {kpis : FreshnessKpis}
    (h : freshnessKpis repr sched now rows t = .ok kpis) {slot : String} (hslot : slot ∈ SLOT_NAMES)
    {fields : CronFields} (hcron : sched.cron slot ≠ "")
    (hparse : parseCron (sched.cron slot) = .ok fields) :
    (∀ f, PlannedIn fields sched.zone (now - HORIZON) now f →
      ∃ last, kpis.lastPlanned = some last ∧ f ≤ last) ∧
    ∀ f, PlannedIn fields sched.zone (now + MINUTE) (now + HORIZON) f →
      ∃ next, kpis.nextScheduledRun = some next ∧ next.1 ≤ f := by
  obtain ⟨next, hnext, h⟩ := bind_eq_ok.mp h
  obtain ⟨last, hlast, h⟩ := bind_eq_ok.mp h
  cases h
  constructor
  · intro f hf
    obtain ⟨fire, hfire, hall⟩ := previousFire_last hparse sched.zone now
    obtain ⟨g, rfl, hle⟩ := hall f hf
    have hread : plannedLast sched now slot = .ok (some g) := by
      rw [plannedLast, if_neg hcron, hfire]
    have hlater : ∀ a b : Timestamp, decide (a > b) = true ↔ -a < -b := by simp
    obtain ⟨best, rfl, hbest⟩ := (bestFire_best hlater hlast).2 slot hslot g hread
    exact ⟨best.1, rfl, le_trans hle (neg_le_neg_iff.mp hbest)⟩
  · intro f hf
    obtain ⟨fire, hread, hle⟩ := firstFire_planned hcron hparse hf
    have hearlier : ∀ a b : Timestamp, decide (a < b) = true ↔ a < b := by simp
    obtain ⟨best, rfl, hbest⟩ := (bestFire_best hearlier hnext).2 slot hslot fire hread
    exact ⟨best, rfl, le_trans hbest hle⟩

end FlexQuery
