import FlexQuery.Library.RowTable
import FlexQuery.Ops.Missed
import FlexQuery.Queue.Arrivals
import FlexQuery.Worker.Fires
import FlexQuery.Worker.Settings

/-!
# Plan against actual

`api/ingest_dashboard.py`, beside the self-check and the catch-up.

* `slotPlan`, `queueDashboard` — what the dashboard shows of each slot, and of the queue.
* `Unserved` — no job of a kind was created since a fire of its slot.
* `latestJob_unserved` — for the newest job alone, in every state a run reaches.
* `missed_views` — what the three views make of it: the dashboard two hours after the fire, the
  catch-up and the self-check from the end of the grace to the end of the day.
-/

set_option autoImplicit false

namespace FlexQuery

open Spacing Transition

/-! ## The dashboard -/

inductive Adherence where
  | onPlan
  | noData
  | late
  deriving DecidableEq, Repr

/-- An item of `slots`; the times are those `iso_z` renders. -/
structure SlotPlan where
  slot : String
  kind : String
  cron : String
  maxAttempts : Option ℕ
  lastPlannedAt : Option Timestamp
  nextFires : List Timestamp
  lastJob : Option JobRow
  pending : ℕ
  nextRetryAt : Option Timestamp
  late : Bool
  adherence : Adherence

structure QueueDashboard where
  pending : ℕ
  running : ℕ
  done : ℕ
  failed : ℕ
  slots : List SlotPlan

/-- `adherence`, two hours after the fire. -/
def adherenceOf (now : Timestamp) (lastPlanned : Option Timestamp) (lastJob : Option JobRow) :
    Adherence :=
  match lastPlanned with
  | none => .onPlan
  | some planned =>
    if now > planned + seconds 7200 then
      match lastJob with
      | none => .noData
      | some job => if job.createdAt < planned then .late else .onPlan
    else .onPlan

/-- `upcoming`. -/
def upcomingFires (sched : CatchupConfig) (now : Timestamp) (slot : String) :
    Except PyExc (List Timestamp) :=
  if sched.cron slot = "" then .ok [] else nextFires (sched.cron slot) now 3 sched.zone

/-- One round of `queue_dashboard`. -/
def slotPlan (sched : CatchupConfig) (slots : String → SlotConfig) (now : Timestamp)
    (t : JobTable) (slot : String) : Except PyExc SlotPlan := do
  let lastPlanned ← plannedLast sched now slot
  let upcoming ← upcomingFires sched now slot
  let waiting := t.rows.filter fun r => r.kind = slotKind slot && r.status = .pending
  let lastJob := latestJob t (slotKind slot)
  let adherence := adherenceOf now lastPlanned lastJob
  return {
    slot := slot
    kind := slotKind slot
    cron := sched.cron slot
    maxAttempts := (slots slot).maxAttempts
    lastPlannedAt := lastPlanned
    nextFires := upcoming
    lastJob := lastJob
    pending := waiting.length
    nextRetryAt := (waiting.filterMap JobRow.notBefore).min?
    late := adherence = .late
    adherence := adherence }

/-- `queue_dashboard`. -/
def queueDashboard (sched : CatchupConfig) (slots : String → SlotConfig) (now : Timestamp)
    (t : JobTable) : Except PyExc QueueDashboard := do
  let plans ← SLOT_NAMES.mapM (slotPlan sched slots now t)
  let count := fun status : Status => t.rows.countP (·.status = status)
  return {
    pending := count .pending
    running := count .running
    done := count .done
    failed := count .failed
    slots := plans }

theorem mapM_isOk {α β ε : Type} {f : α → Except ε β} {g : β → α} {xs : List α}
    (h : ∀ x ∈ xs, ∃ y, f x = .ok y ∧ g y = x) : ∃ ys, xs.mapM f = .ok ys ∧ ys.map g = xs := by
  induction xs with
  | nil => exact ⟨[], rfl, rfl⟩
  | cons x xs ih =>
    obtain ⟨y, hy, hx⟩ := h x List.mem_cons_self
    obtain ⟨ys, hys, hxs⟩ := ih fun z hz => h z (List.mem_cons_of_mem x hz)
    refine ⟨y :: ys, ?_, by simp [hx, hxs]⟩
    rw [List.mapM_cons, hy, hys]
    rfl

/-- The dashboard answers, with every slot, when no cron is malformed. -/
theorem queueDashboard_isOk {sched : CatchupConfig}
    (hcron : ∀ slot ∈ SLOT_NAMES, sched.cron slot = "" ∨
      ∃ fields, parseCron (sched.cron slot) = .ok fields)
    (slots : String → SlotConfig) (now : Timestamp) (t : JobTable) :
    ∃ dash, queueDashboard sched slots now t = .ok dash ∧
      dash.slots.map SlotPlan.slot = SLOT_NAMES := by
  have hplan : ∀ slot ∈ SLOT_NAMES, ∃ plan, slotPlan sched slots now t slot = .ok plan ∧
      plan.slot = slot := by
    intro slot hslot
    unfold slotPlan plannedLast upcomingFires
    rcases hcron slot hslot with hnone | ⟨fields, hparse⟩
    · rw [if_pos hnone, if_pos hnone]
      exact ⟨_, rfl, rfl⟩
    · split
      · exact ⟨_, rfl, rfl⟩
      · obtain ⟨last, hlast⟩ := previousFire_isOk hparse now sched.zone
        unfold nextFires iterCronFires
        rw [hlast, hparse]
        exact ⟨_, rfl, rfl⟩
  obtain ⟨plans, hplans, hslots⟩ := mapM_isOk hplan
  unfold queueDashboard
  rw [hplans]
  exact ⟨_, rfl, hslots⟩

/-! ## A fire without a job -/

/-- No job of the kind was created since. -/
def Unserved (t : JobTable) (kind : String) (planned : Timestamp) : Prop :=
  ∀ r ∈ t.rows, r.kind = kind → r.createdAt < planned

/-- Nothing has a greater id than the job `ORDER BY id DESC LIMIT 1` finds. -/
theorem latestJob_greatest {t : JobTable} {kind : String} {r : JobRow}
    (h : latestJob t kind = some r) : ∀ x ∈ t.rows, x.kind = kind → x.id ≤ r.id := by
  have hasymm : ∀ a b : JobRow, decide (b.id < a.id) = true → decide (a.id < b.id) = false := by
    intro a b hab
    simp only [decide_eq_true_eq, decide_eq_false_iff_not] at hab ⊢
    omega
  have htrans : ∀ a b c : JobRow, decide (b.id < a.id) = false → decide (c.id < b.id) = false →
      decide (c.id < a.id) = false := by
    intro a b c hab hbc
    simp only [decide_eq_false_iff_not] at hab hbc ⊢
    omega
  intro x hx hkind
  have hleast := RowTable.firstBy_least hasymm htrans h x (by simp [hx, hkind])
  simpa using hleast

theorem latestJob_kind {t : JobTable} {kind : String} {r : JobRow}
    (h : latestJob t kind = some r) : r.kind = kind :=
  of_decide_eq_true (List.mem_filter.mp (RowTable.firstBy_mem h)).2

/-- **The newest job decides**, in every state a run on a clock reaches. -/
theorem latestJob_unserved {cfg : QueueConfig} {s : Sys} {as : List (Timestamp × Action)}
    (hclock : OnClock as) (h : exec (step cfg) Sys.init as = some s) (kind : String)
    (planned : Timestamp) :
    Unserved s.table kind planned ↔
      ∀ job, latestJob s.table kind = some job → job.createdAt < planned := by
  constructor
  · intro hall job hjob
    exact hall job (latestJob_mem hjob) (latestJob_kind hjob)
  · intro hlast r hr hkind
    cases hjob : latestJob s.table kind with
    | none =>
      have hmem : r ∈ s.table.rows.filter fun x => x.kind = kind := by simp [hr, hkind]
      rw [RowTable.firstBy_eq_none.mp hjob] at hmem
      cases hmem
    | some job =>
      have hle := aged_run hclock h r hr job (latestJob_mem hjob)
        (latestJob_greatest hjob r hr hkind)
      exact lt_of_le_of_lt hle (hlast job hjob)

/-! ## Three views -/

theorem adherenceOf_ne_onPlan {now : Timestamp} {lastPlanned : Option Timestamp}
    {lastJob : Option JobRow} :
    adherenceOf now lastPlanned lastJob ≠ .onPlan ↔
      ∃ planned, lastPlanned = some planned ∧ seconds 7200 < now - planned ∧
        ∀ job, lastJob = some job → job.createdAt < planned := by
  unfold adherenceOf
  cases lastPlanned with
  | none => simp
  | some planned =>
    simp only [Option.some.injEq, exists_eq_left']
    rw [lt_sub_iff_add_lt']
    split
    · rename_i hwindow
      cases lastJob with
      | none => simpa using hwindow
      | some job =>
        simp only [Option.some.injEq, forall_eq']
        split
        · rename_i hbefore
          simpa [hbefore] using hwindow
        · rename_i hbefore
          simp [hbefore]
    · rename_i hwindow
      simp [hwindow]

theorem mem_of_mapM {α β ε : Type} {f : α → Except ε β} {xs : List α} {ys : List β}
    (h : xs.mapM f = .ok ys) {y : β} (hy : y ∈ ys) : ∃ x ∈ xs, f x = .ok y := by
  induction xs generalizing ys with
  | nil =>
    cases h
    cases hy
  | cons x xs ih =>
    rw [List.mapM_cons] at h
    obtain ⟨z, hz, h⟩ := bind_eq_ok.mp h
    obtain ⟨zs, hzs, h⟩ := bind_eq_ok.mp h
    cases h
    rcases List.mem_cons.mp hy with rfl | hy
    · exact ⟨x, List.mem_cons_self, hz⟩
    · obtain ⟨x', hx', hfx⟩ := ih hzs hy
      exact ⟨x', List.mem_cons_of_mem x hx', hfx⟩

/-- What the dashboard shows of a slot is what it reads of it. -/
theorem queueDashboard_slot {sched : CatchupConfig} {slots : String → SlotConfig}
    {now : Timestamp} {t : JobTable} {dash : QueueDashboard}
    (h : queueDashboard sched slots now t = .ok dash) {plan : SlotPlan} (hplan : plan ∈ dash.slots) :
    plan.slot ∈ SLOT_NAMES ∧ plannedLast sched now plan.slot = .ok plan.lastPlannedAt ∧
      plan.adherence = adherenceOf now plan.lastPlannedAt (latestJob t (slotKind plan.slot)) := by
  obtain ⟨plans, hplans, h⟩ := bind_eq_ok.mp h
  cases h
  obtain ⟨slot, hslot, hread⟩ := mem_of_mapM hplans hplan
  obtain ⟨planned, hplanned, hread⟩ := bind_eq_ok.mp hread
  obtain ⟨upcoming, _, hread⟩ := bind_eq_ok.mp hread
  cases hread
  exact ⟨hslot, hplanned, rfl⟩

/-- What the catch-up lists. -/
theorem mem_missedSlots_iff {sched : CatchupConfig} {now : Timestamp} {t : JobTable}
    {slot : String} (hslot : slot ∈ SLOT_NAMES) {planned : Option Timestamp}
    (hplanned : plannedLast sched now slot = .ok planned) {ms : List Missed}
    (hms : missedSlots sched now (newestJobPerKind t) SLOT_NAMES = .ok ms) :
    (∃ m ∈ ms, m.slot = slot) ↔ ∃ p, planned = some p ∧ seconds sched.graceSec ≤ now - p ∧
      now - p ≤ seconds 86400 ∧ Unserved t (slotKind slot) p := by
  unfold plannedLast at hplanned
  constructor
  · rintro ⟨m, hm, rfl⟩
    obtain ⟨_, hcron, hfire, hgrace, hday, hsince, _⟩ :=
      missedSlot_eq_some.mp ((missedSlots_mem hms).mp hm).2
    rw [if_neg hcron, hfire] at hplanned
    cases hplanned
    exact ⟨_, rfl, hgrace, hday, newestJobPerKind_lt.mp hsince⟩
  · rintro ⟨p, rfl, hgrace, hday, hsince⟩
    split at hplanned
    · cases hplanned
    · rename_i hcron
      refine ⟨⟨slot, p, sched.zone.day p⟩, (missedSlots_mem hms).mpr ⟨hslot, ?_⟩, rfl⟩
      exact missedSlot_eq_some.mpr
        ⟨rfl, hcron, hplanned, hgrace, hday, newestJobPerKind_lt.mpr hsince, rfl⟩

/-- **One fire, three views.**  In every state a run on a clock reaches, whatever the schedule:
the dashboard marks a slot when its last fire is more than two hours old and unserved; the
catch-up lists it when that fire is unserved, past the grace and at most a day old; the self-check
calls its kind missed when the catch-up lists it and the newest job, if there is one, is done. -/
theorem missed_views {cfg : QueueConfig} {s : Sys} {as : List (Timestamp × Action)}
    (hclock : OnClock as) (h : exec (step cfg) Sys.init as = some s) {sched : CatchupConfig}
    {slots : String → SlotConfig} {now : Timestamp} {dash : QueueDashboard}
    (hdash : queueDashboard sched slots now s.table = .ok dash) {plan : SlotPlan}
    (hplan : plan ∈ dash.slots) {ms : List Missed}
    (hms : missedSlots sched now (newestJobPerKind s.table) SLOT_NAMES = .ok ms)
    (fmtLocal : FmtLocal) {env : CheckEnv} (hgrace : env.graceSec = sched.graceSec)
    (hfires : ∀ slot ∈ SLOT_NAMES, plannedLast sched now slot = .ok (env.plannedLast slot))
    {k : KindInput} (hk : k ∈ (collectCheckInput env now s.table).2)
    (hkind : k.kind = slotKind plan.slot) :
    (plan.adherence ≠ .onPlan ↔ ∃ p, plan.lastPlannedAt = some p ∧ seconds 7200 < now - p ∧
        Unserved s.table (slotKind plan.slot) p) ∧
      ((∃ m ∈ ms, m.slot = plan.slot) ↔ ∃ p, plan.lastPlannedAt = some p ∧
        seconds sched.graceSec ≤ now - p ∧ now - p ≤ seconds 86400 ∧
        Unserved s.table (slotKind plan.slot) p) ∧
      ((assessKind fmtLocal k (collectCheckInput env now s.table).1).verdict = .missed ↔
        (∃ m ∈ ms, m.slot = plan.slot) ∧
          ∀ job, latestJob s.table (slotKind plan.slot) = some job → job.status = .done) := by
  obtain ⟨hslot, hplanned, hadherence⟩ := queueDashboard_slot hdash hplan
  have hlatest := latestJob_unserved hclock h (slotKind plan.slot)
  have hlisted := mem_missedSlots_iff hslot hplanned hms
  refine ⟨?_, hlisted, ?_⟩
  · rw [hadherence, adherenceOf_ne_onPlan]
    simp only [hlatest]
  · obtain ⟨slot, hslot', rfl⟩ := List.mem_map.mp hk
    have hsame : slot = plan.slot := hkind
    subst hsame
    have hfire : env.plannedLast plan.slot = plan.lastPlannedAt := by
      rw [hfires plan.slot hslot] at hplanned
      exact Except.ok.inj hplanned
    rw [assessKind_missed, missedPlan_iff, hlisted]
    simp only [hfire, hlatest]
    rw [show (collectCheckInput env now s.table).1.graceSec = sched.graceSec from hgrace]
    rfl

/-- A trades job at five o'clock, and done. -/
def doneAtFive : List (Timestamp × Action) :=
  [(seconds 18000, .enqueueSlot "flex-trades" [("as_of", .str "1970-01-01")]),
    (seconds 18005, .claimNext 0), (seconds 18065, .markDone 0 [])]

/-- At nine o'clock all three views show the fire of half past six. -/
theorem missed_views_nine :
    ∃ s dash plan, exec (step scheduleConfig) Sys.init doneAtFive = some s ∧
      queueDashboard morningOnly scheduleConfig.slots (seconds 32400) s.table = .ok dash ∧
      plan ∈ dash.slots ∧ plan.slot = "flex-trades" ∧ plan.adherence ≠ .onPlan ∧
      ∀ fmtLocal, ∃ k ∈ (collectCheckInput morningCheck (seconds 32400) s.table).2,
        (assessKind fmtLocal k
          (collectCheckInput morningCheck (seconds 32400) s.table).1).verdict = .missed := by
  have hrun : (exec (step scheduleConfig) Sys.init doneAtFive).any (fun s =>
      (s.table.rows.all fun r => r.createdAt = seconds 18000 ∧ r.status = .done)) = true := by
    decide +kernel
  obtain ⟨s, hs, hrows⟩ := (Option.any_eq_true _ _).mp hrun
  have hrows : ∀ r ∈ s.table.rows, r.createdAt = seconds 18000 ∧ r.status = .done :=
    fun r hr => of_decide_eq_true (List.all_eq_true.mp hrows r hr)
  have hfires : ∀ slot ∈ SLOT_NAMES,
      plannedLast morningOnly (seconds 32400) slot = .ok (morningCheck.plannedLast slot) := by
    intro slot hslot
    rcases List.mem_pair.mp hslot with rfl | rfl
    · exact previousFire_morning (by decide) (by decide)
    · rfl
  have hcron : ∀ slot ∈ SLOT_NAMES, morningOnly.cron slot = "" ∨
      ∃ fields, parseCron (morningOnly.cron slot) = .ok fields := by
    intro slot hslot
    rcases List.mem_pair.mp hslot with rfl | rfl
    · exact Or.inr ⟨_, parse_halfPastSix⟩
    · exact Or.inl rfl
  obtain ⟨dash, hdash, hslots⟩ :=
    queueDashboard_isOk hcron scheduleConfig.slots (seconds 32400) s.table
  obtain ⟨plan, hplan, hslot⟩ : ∃ plan ∈ dash.slots, plan.slot = "flex-trades" := by
    apply List.mem_map.mp
    rw [hslots]
    exact List.mem_cons_self
  have hms : missedSlots morningOnly (seconds 32400) (newestJobPerKind s.table) SLOT_NAMES =
      .ok _ := missedSlots_morning (by decide) (by decide)
  have hclock : OnClock doneAtFive := by decide
  have hfire : plan.lastPlannedAt = some (seconds 23400) := by
    have hread := (queueDashboard_slot hdash hplan).2.1
    rw [hslot, hfires "flex-trades" List.mem_cons_self] at hread
    exact (Except.ok.inj hread).symm
  have hunserved : Unserved s.table (slotKind plan.slot) (seconds 23400) := by
    intro r hr _
    rw [(hrows r hr).1]
    decide
  have hviews := fun fmtLocal => missed_views hclock hs hdash hplan hms fmtLocal
    (show morningCheck.graceSec = morningOnly.graceSec from rfl) hfires List.mem_cons_self
    hslot.symm
  refine ⟨s, dash, plan, hs, hdash, hplan, hslot, ?_, fun fmtLocal => ⟨_, List.mem_cons_self, ?_⟩⟩
  · exact (hviews fun _ _ => "").1.mpr ⟨_, hfire, by decide, hunserved⟩
  · refine (hviews fmtLocal).2.2.mpr ⟨?_, fun job hjob => (hrows job (latestJob_mem hjob)).2⟩
    exact (hviews fmtLocal).2.1.mpr ⟨_, hfire, by decide, by decide, hunserved⟩

end FlexQuery
