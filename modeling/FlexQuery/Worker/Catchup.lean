import FlexQuery.Queue.Identity
import FlexQuery.Scheduler.Cron

/-!
# The worker's safety net

`worker/catchup.py`: the slots whose last planned fire brought no job are enqueued by the worker.

* `newestJobPerKind`, `missedSlots` — one read of the queue, and what it shows to be missed.
* `CatchupSys`, `catchupStep` — the worker's ticks among everything else that happens to the
  queue; a lost connection or a restart may cut a tick anywhere.
* `CatchupInv` — an enqueued fire has a job of its kind in the queue that is no older.
* `catchup_once` — a fire is enqueued at most once, and never when the tick saw such a job.
-/

set_option autoImplicit false

namespace FlexQuery

open Transition

/-! ## Missed slots -/

/-- What the catch-up reads of `scheduler`: the zone, each slot's cron (empty when there is none)
and the grace. -/
structure CatchupConfig where
  zone : Zone
  cron : String → String
  graceSec : ℤ

/-- An item of `missed_slots`; `kind` is the slot's. -/
structure Missed where
  slot : String
  plannedAt : Timestamp
  asOf : String
  deriving DecidableEq, Repr

def Missed.kind (m : Missed) : String := slotKind m.slot

/-- `_newest_job_per_kind`. -/
def newestJobPerKind (t : JobTable) (kind : String) : Option Timestamp :=
  ((t.rows.filter fun r => r.kind = kind).map JobRow.createdAt).max?

/-- One round of `missed_slots`. -/
def missedSlot (cfg : CatchupConfig) (now : Timestamp) (jobsSince : String → Option Timestamp)
    (slot : String) : Except PyExc (Option Missed) :=
  if cfg.cron slot = "" then .ok none
  else
    match previousFire (cfg.cron slot) now cfg.zone with
    | .error e => .error e
    | .ok none => .ok none
    | .ok (some planned) =>
      if now - planned < seconds cfg.graceSec ∨ now - planned > seconds 86400 then .ok none
      else if (jobsSince (slotKind slot)).any (· ≥ planned) then .ok none
      else .ok (some ⟨slot, planned, cfg.zone.day planned⟩)

/-- `missed_slots`, over the slots that are left. -/
def missedSlots (cfg : CatchupConfig) (now : Timestamp) (jobsSince : String → Option Timestamp) :
    List String → Except PyExc (List Missed)
  | [] => .ok []
  | slot :: slots =>
    match missedSlot cfg now jobsSince slot with
    | .error e => .error e
    | .ok m =>
      match missedSlots cfg now jobsSince slots with
      | .error e => .error e
      | .ok ms => .ok (m.toList ++ ms)

theorem newestJobPerKind_ge {t : JobTable} {r : JobRow} (hr : r ∈ t.rows) :
    ∃ newest, newestJobPerKind t r.kind = some newest ∧ r.createdAt ≤ newest := by
  have hmem : r.createdAt ∈ (t.rows.filter fun x => x.kind = r.kind).map JobRow.createdAt :=
    List.mem_map_of_mem (List.mem_filter.mpr ⟨hr, decide_eq_true rfl⟩)
  cases hnewest : newestJobPerKind t r.kind with
  | none =>
    rw [newestJobPerKind, List.max?_eq_none_iff] at hnewest
    rw [hnewest] at hmem
    cases hmem
  | some newest =>
    exact ⟨newest, rfl, (List.max?_eq_some_iff.mp hnewest).2 _ hmem⟩

/-- What a round of `missed_slots` lists. -/
theorem missedSlot_eq_some {cfg : CatchupConfig} {now : Timestamp}
    {jobsSince : String → Option Timestamp} {slot : String} {m : Missed} :
    missedSlot cfg now jobsSince slot = .ok (some m) ↔
      m.slot = slot ∧ cfg.cron slot ≠ "" ∧
        previousFire (cfg.cron slot) now cfg.zone = .ok (some m.plannedAt) ∧
        seconds cfg.graceSec ≤ now - m.plannedAt ∧ now - m.plannedAt ≤ seconds 86400 ∧
        (∀ newest, jobsSince (slotKind slot) = some newest → newest < m.plannedAt) ∧
        m.asOf = cfg.zone.day m.plannedAt := by
  have hnewest : ∀ planned, (jobsSince (slotKind slot)).any (· ≥ planned) = true ↔
      ¬ ∀ newest, jobsSince (slotKind slot) = some newest → newest < planned := by
    intro planned
    cases jobsSince (slotKind slot) <;> simp
  obtain ⟨mslot, planned, asOf⟩ := m
  unfold missedSlot
  simp only [hnewest]
  split
  · rename_i hcron
    exact iff_of_false nofun fun h => h.2.1 hcron
  · rename_i hcron
    cases hfire : previousFire (cfg.cron slot) now cfg.zone with
    | error e => exact iff_of_false nofun fun h => nomatch h.2.2.1
    | ok fire =>
      cases fire with
      | none => exact iff_of_false nofun fun h => nomatch h.2.2.1
      | some g =>
        simp only [Except.ok.injEq, Option.some.injEq]
        constructor
        · intro h
          split at h
          · cases h
          · rename_i hage
            split at h
            · cases h
            · rename_i hsince
              cases h
              rw [not_or, not_lt, not_lt] at hage
              exact ⟨rfl, hcron, rfl, hage.1, hage.2, not_not.mp hsince, rfl⟩
        · rintro ⟨rfl, _, rfl, hgrace, hday, hsince, rfl⟩
          rw [if_neg (not_or.mpr ⟨not_lt.mpr hgrace, not_lt.mpr hday⟩), if_neg (not_not.mpr hsince)]

/-- What is missed was planned, and no job of its kind has been created since. -/
theorem missedSlot_some {cfg : CatchupConfig} {now : Timestamp}
    {jobsSince : String → Option Timestamp} {slot : String} {m : Missed}
    (h : missedSlot cfg now jobsSince slot = .ok (some m)) :
    m.slot = slot ∧ previousFire (cfg.cron slot) now cfg.zone = .ok (some m.plannedAt) ∧
      ∀ newest, jobsSince m.kind = some newest → newest < m.plannedAt := by
  obtain ⟨rfl, _, hplanned, _, _, hnewest, _⟩ := missedSlot_eq_some.mp h
  exact ⟨rfl, hplanned, hnewest⟩

theorem missedSlots_ok {cfg : CatchupConfig} {now : Timestamp}
    {jobsSince : String → Option Timestamp} {slots : List String} {ms : List Missed}
    (h : missedSlots cfg now jobsSince slots = .ok ms) :
    (ms.map Missed.slot).Sublist slots ∧
      ∀ m ∈ ms, missedSlot cfg now jobsSince m.slot = .ok (some m) := by
  induction slots generalizing ms with
  | nil =>
    cases h
    exact ⟨List.Sublist.refl _, nofun⟩
  | cons slot slots ih =>
    simp only [missedSlots] at h
    split at h
    · cases h
    · rename_i m hm
      split at h
      · cases h
      · rename_i rest hrest
        cases h
        obtain ⟨hsub, hall⟩ := ih hrest
        cases m with
        | none => exact ⟨hsub.cons slot, hall⟩
        | some m =>
          obtain ⟨hslot, _⟩ := missedSlot_some hm
          refine ⟨?_, ?_⟩
          · rw [Option.toList_some, List.singleton_append, List.map_cons, hslot]
            exact hsub.cons_cons slot
          · intro x hx
            rcases List.mem_cons.mp hx with rfl | hx
            · rw [hslot]
              exact hm
            · exact hall x hx

theorem missedSlots_mem {cfg : CatchupConfig} {now : Timestamp}
    {jobsSince : String → Option Timestamp} {slots : List String} {ms : List Missed} {m : Missed}
    (h : missedSlots cfg now jobsSince slots = .ok ms) :
    m ∈ ms ↔ m.slot ∈ slots ∧ missedSlot cfg now jobsSince m.slot = .ok (some m) := by
  refine ⟨fun hm => ?_, fun ⟨hslot, hm⟩ => ?_⟩
  · obtain ⟨hsub, hall⟩ := missedSlots_ok h
    exact ⟨hsub.subset (List.mem_map_of_mem hm), hall m hm⟩
  · induction slots generalizing ms with
    | nil => cases hslot
    | cons slot slots ih =>
      simp only [missedSlots] at h
      split at h
      · cases h
      · rename_i m' hm'
        split at h
        · cases h
        · rename_i rest hrest
          cases h
          rcases List.mem_cons.mp hslot with rfl | hslot
          · rw [hm] at hm'
            cases hm'
            exact List.mem_append_left _ (List.mem_singleton_self m)
          · exact List.mem_append_right _ (ih hrest ⟨hslot, hm⟩ hslot)

/-- No job of the kind is as young as the instant. -/
theorem newestJobPerKind_lt {t : JobTable} {kind : String} {f : Timestamp} :
    (∀ newest, newestJobPerKind t kind = some newest → newest < f) ↔
      ∀ r ∈ t.rows, r.kind = kind → r.createdAt < f := by
  constructor
  · rintro h r hr rfl
    obtain ⟨newest, hnewest, hle⟩ := newestJobPerKind_ge hr
    exact lt_of_le_of_lt hle (h newest hnewest)
  · intro h newest hnewest
    obtain ⟨r, hr, rfl⟩ := List.mem_map.mp (List.max?_eq_some_iff.mp hnewest).1
    obtain ⟨hmem, hkind⟩ := List.mem_filter.mp hr
    exact h r hmem (of_decide_eq_true hkind)

/-! ## Ticks -/

/-- The queue, and where the tick stands: the slots it has found missed and not yet enqueued.  The
rows it has read and what all ticks have enqueued, each with the rows of its tick, are kept for the
record. -/
structure CatchupSys where
  sys : Sys
  pending : List Missed
  seen : List JobRow
  inserted : List (Missed × List JobRow)

/-- No tick so far. -/
def CatchupSys.start (s : Sys) : CatchupSys := ⟨s, [], [], []⟩

inductive CatchupAction where
  /-- Anything else that happens to the queue. -/
  | queue (a : Action)
  /-- `missed_slots` over one read of the queue, at the worker's time. -/
  | tick
  /-- `enqueue_slot` of the next one, at the database's time. -/
  | enqueue
  /-- The connection is lost or the process restarted: the tick is not continued. -/
  | lost

def catchupStep (cfg : QueueConfig) (sched : CatchupConfig) (s : CatchupSys) :
    Timestamp × CatchupAction → Option CatchupSys
  | (now, .queue a) => (step cfg s.sys (now, a)).map fun sys => { s with sys := sys }
  | (now, .tick) =>
    match missedSlots sched now (newestJobPerKind s.sys.table) SLOT_NAMES with
    | .error _ => some { s with pending := [], seen := s.sys.table.rows }
    | .ok ms => some { s with pending := ms, seen := s.sys.table.rows }
  | (now, .enqueue) =>
    match s.pending with
    | [] => none
    | m :: ms =>
      match enqueueSlot cfg.payloadHash cfg.slots now m.slot (catchupPayload m.asOf)
          s.sys.table with
      | .error _ => some { s with pending := [] }
      | .ok (t, res) =>
        some { s with
          sys := { s.sys with table := t }
          pending := ms
          inserted := if res.jobId.isSome then s.inserted ++ [(m, s.seen)] else s.inserted }
  | (_, .lost) => some { s with pending := [] }

theorem catchupStep_tick {cfg : QueueConfig} {sched : CatchupConfig} {s : CatchupSys}
    {now : Timestamp} {ms : List Missed}
    (h : missedSlots sched now (newestJobPerKind s.sys.table) SLOT_NAMES = .ok ms) :
    catchupStep cfg sched s (now, .tick) =
      some { s with pending := ms, seen := s.sys.table.rows } := by
  simp only [catchupStep, h]

/-- The database's clock is not behind the planned fire it enqueues a job for. -/
def ClockNotBehind (s : CatchupSys) (l : Timestamp × CatchupAction) : Prop :=
  l.2 = .enqueue → ∀ m ∈ s.pending.head?, m.plannedAt ≤ l.1

/-! ## At most once -/

/-- A job of the kind that is no older than the fire is in the queue. -/
def Backed (t : JobTable) (m : Missed) : Prop :=
  ∃ i ∈ t.rows.map JobRow.imprint, i.2.1 = m.kind ∧ m.plannedAt ≤ i.2.2.2

/-- No job of the kind among the rows is as young as the fire. -/
def Unseen (rows : List JobRow) (m : Missed) : Prop :=
  ∀ r ∈ rows, r.kind = m.kind → r.createdAt < m.plannedAt

/-- The planned fire of a slot. -/
def Missed.fire (m : Missed) : String × Timestamp := (m.slot, m.plannedAt)

theorem Backed.mono {t t' : JobTable} {m : Missed} (h : Backed t m)
    (hsub : t.rows.map JobRow.imprint <+: t'.rows.map JobRow.imprint) : Backed t' m := by
  obtain ⟨i, hi, hkind, hle⟩ := h
  exact ⟨i, hsub.subset hi, hkind, hle⟩

theorem Backed.not_unseen {t : JobTable} {m : Missed} (h : Backed t m) : ¬ Unseen t.rows m := by
  obtain ⟨i, hi, hkind, hle⟩ := h
  obtain ⟨r, hr, rfl⟩ := List.mem_map.mp hi
  intro hunseen
  exact absurd hle (not_le.mpr (hunseen r hr hkind))

/-- What is known of the ticks so far. -/
structure CatchupInv (s : CatchupSys) : Prop where
  backed : ∀ x ∈ s.inserted, Backed s.sys.table x.1
  blind : ∀ x ∈ s.inserted, Unseen x.2 x.1
  once : (s.inserted.map fun x => x.1.fire).Nodup
  slots : (s.pending.map Missed.slot).Sublist SLOT_NAMES
  unseen : ∀ m ∈ s.pending, Unseen s.seen m
  fresh : ∀ m ∈ s.pending, ∀ x ∈ s.inserted, x.1.fire ≠ m.fire

theorem CatchupInv.start (s : Sys) : CatchupInv (.start s) where
  backed := nofun
  blind := nofun
  once := List.nodup_nil
  slots := List.nil_sublist _
  unseen := nofun
  fresh := nofun

/-- A tick that is not continued. -/
theorem CatchupInv.stop {s : CatchupSys} (h : CatchupInv s) (seen : List JobRow) :
    CatchupInv { s with pending := [], seen := seen } where
  backed := h.backed
  blind := h.blind
  once := h.once
  slots := List.nil_sublist _
  unseen := nofun
  fresh := nofun

/-- What a tick finds missed has no job of its kind that is as young as the fire. -/
theorem missedSlots_unseen {sched : CatchupConfig} {now : Timestamp} {t : JobTable}
    {slots : List String} {ms : List Missed}
    (h : missedSlots sched now (newestJobPerKind t) slots = .ok ms) :
    ∀ m ∈ ms, Unseen t.rows m := by
  intro m hm r hr hkind
  obtain ⟨_, _, hnewest⟩ := missedSlot_some ((missedSlots_ok h).2 m hm)
  obtain ⟨newest, hsome, hle⟩ := newestJobPerKind_ge hr
  rw [hkind] at hsome
  exact lt_of_le_of_lt hle (hnewest newest hsome)

/-- What `enqueue_slot` leaves of a missed slot: a job, or the table as it was. -/
theorem enqueueMissed {cfg : QueueConfig} {now : Timestamp} {m : Missed} {t t' : JobTable}
    {res : EnqueueResult} (hslot : m.slot ∈ SLOT_NAMES) (hclock : m.plannedAt ≤ now)
    (h : enqueueSlot cfg.payloadHash cfg.slots now m.slot (catchupPayload m.asOf) t =
      .ok (t', res)) :
    t.rows.map JobRow.imprint <+: t'.rows.map JobRow.imprint ∧
      (res.jobId.isSome = true → Backed t' m) := by
  obtain ⟨kind, hash, priority, n, _, hentry, hins⟩ := enqueueSlot_ok h
  rw [slotEntry_namesDay hslot (catchupPayload_namesDay m.asOf) now] at hentry
  cases hentry
  rcases t.insert_cases (newJob now m.slot (slotBody now (catchupPayload m.asOf))
    (cfg.payloadHash [("as_of", .str m.asOf)]) priority n) with ⟨hrows, _⟩ | ⟨hrows, hnone, _⟩
  · rw [hins] at hrows
    rw [hrows, List.map_append]
    refine ⟨List.prefix_append _ _, fun _ => ?_⟩
    have hlast : (t.nextId, slotKind m.slot, some (cfg.payloadHash [("as_of", .str m.asOf)]), now) ∈
        t'.rows.map JobRow.imprint := by
      rw [hrows, List.map_append]
      exact List.mem_append_right _ (List.mem_singleton_self _)
    exact ⟨_, hlast, rfl, hclock⟩
  · rw [hins] at hrows hnone
    refine ⟨hrows ▸ List.prefix_rfl, ?_⟩
    intro hsome
    rw [show res.jobId = none from hnone] at hsome
    cases hsome

/-- **Step lemma.** -/
theorem catchupInv_step {cfg : QueueConfig} {sched : CatchupConfig} {s s' : CatchupSys}
    {l : Timestamp × CatchupAction} (h : CatchupInv s) (hclock : ClockNotBehind s l)
    (hstep : catchupStep cfg sched s l = some s') : CatchupInv s' := by
  obtain ⟨now, a⟩ := l
  cases a with
  | queue a =>
    obtain ⟨sys, hsys, rfl⟩ := Option.map_eq_some_iff.mp hstep
    exact { h with backed := fun x hx => (h.backed x hx).mono (step_imprints hsys) }
  | tick =>
    simp only [catchupStep] at hstep
    split at hstep
    · cases hstep
      exact h.stop _
    · rename_i ms hms
      cases hstep
      have hunseen := missedSlots_unseen hms
      exact { h with
        slots := (missedSlots_ok hms).1
        unseen := hunseen
        fresh := by
          intro m hm x hx hsame
          -- The job of an earlier insert of this fire would have been seen.
          have hbacked : Backed s.sys.table m := by
            obtain ⟨i, hi, hkind, hle⟩ := h.backed x hx
            obtain ⟨hslot, hplanned⟩ := Prod.mk.inj hsame
            refine ⟨i, hi, hkind.trans ?_, hplanned ▸ hle⟩
            rw [Missed.kind, Missed.kind, hslot]
          exact hbacked.not_unseen (hunseen m hm) }
  | enqueue =>
    simp only [catchupStep] at hstep
    split at hstep
    · cases hstep
    · rename_i m ms hpending
      have hslots := h.slots
      rw [hpending, List.map_cons] at hslots
      have hhead : m ∈ s.pending := by
        rw [hpending]
        exact List.mem_cons_self
      have hrest : ∀ x ∈ ms, x ∈ s.pending := by
        intro x hx
        rw [hpending]
        exact List.mem_cons_of_mem _ hx
      split at hstep
      · cases hstep
        exact h.stop s.seen
      · rename_i t res hins
        cases hstep
        have hplanned : m.plannedAt ≤ now := hclock rfl m (by rw [hpending]; rfl)
        obtain ⟨hsub, hnew⟩ := enqueueMissed (hslots.subset List.mem_cons_self) hplanned hins
        have hkept : ∀ x ∈ s.inserted, Backed t x.1 := fun x hx => (h.backed x hx).mono hsub
        by_cases hsome : res.jobId.isSome = true
        · simp only [if_pos hsome]
          have hmem : ∀ x ∈ s.inserted ++ [(m, s.seen)], x ∈ s.inserted ∨ x = (m, s.seen) := by
            intro x hx
            rcases List.mem_append.mp hx with hx | hx
            · exact Or.inl hx
            · exact Or.inr (List.mem_singleton.mp hx)
          constructor
          · intro x hx
            rcases hmem x hx with hx | rfl
            · exact hkept x hx
            · exact hnew hsome
          · intro x hx
            rcases hmem x hx with hx | rfl
            · exact h.blind x hx
            · exact h.unseen m hhead
          · rw [List.map_append, List.nodup_append]
            refine ⟨h.once, List.nodup_singleton _, ?_⟩
            intro a ha b hb hab
            obtain ⟨x, hx, rfl⟩ := List.mem_map.mp ha
            rw [List.map_singleton, List.mem_singleton] at hb
            exact h.fresh m hhead x hx (hab.trans hb)
          · exact (List.sublist_cons_self _ _).trans hslots
          · exact fun x hx => h.unseen x (hrest x hx)
          · intro x hx y hy
            rcases hmem y hy with hy | rfl
            · exact h.fresh x (hrest x hx) y hy
            · intro hsame
              -- The slots of a tick are distinct.
              have hnodup := hslots.nodup (by decide)
              rw [List.nodup_cons] at hnodup
              exact hnodup.1 ((Prod.mk.inj hsame).1 ▸ List.mem_map_of_mem hx)
        · simp only [if_neg hsome]
          exact {
            backed := hkept
            blind := h.blind
            once := h.once
            slots := (List.sublist_cons_self _ _).trans hslots
            unseen := fun x hx => h.unseen x (hrest x hx)
            fresh := fun x hx => h.fresh x (hrest x hx) }
  | lost =>
    cases hstep
    exact h.stop s.seen

/-- **A fire is caught up at most once.**  Whatever else happens to the queue, wherever a tick is
cut short and however often it is begun again: no planned fire of a slot is enqueued twice, and
none whose tick had read a job of the slot's kind that is no older than the fire. -/
theorem catchup_once {cfg : QueueConfig} {sched : CatchupConfig} {s : Sys} {t : CatchupSys}
    {as : List (Timestamp × CatchupAction)}
    (hclock : Along (catchupStep cfg sched) ClockNotBehind (.start s) as)
    (hrun : exec (catchupStep cfg sched) (.start s) as = some t) :
    (t.inserted.map fun x => x.1.fire).Nodup ∧
      ∀ x ∈ t.inserted, ∀ r ∈ x.2, r.kind = x.1.kind → r.createdAt < x.1.plannedAt := by
  have hinv : CatchupInv t := by
    refine exec_invariant ?_ (CatchupInv.start s) hclock hrun
    intro u l u' hu hl hstep
    exact catchupInv_step hu hl hstep
  exact ⟨hinv.once, hinv.blind⟩

/-- Only the trades slot is scheduled, at half past six. -/
def morningOnly : CatchupConfig where
  zone := .utc
  cron := fun slot => if slot = "flex-trades" then "30 6 * * *" else ""
  graceSec := 1800

theorem previousFire_morning {now : ℤ} (hfire : seconds 23400 < now)
    (hday : now ≤ seconds 109800) :
    previousFire "30 6 * * *" now .utc = .ok (some (seconds 23400)) := by
  rw [previousFire_eq_some parse_halfPastSix]
  unfold PlannedIn MINUTE seconds at *
  refine ⟨⟨by omega, hfire, by decide, by decide⟩, ?_⟩
  rintro t ⟨_, hlt, _, hmatches⟩
  simp only [CronFields.matches, inField, List.mem_singleton, Bool.and_eq_true,
    decide_eq_true_eq, Zone.clock, Zone.utc, seconds] at hmatches
  omega

theorem missedSlots_morning {now : ℤ} {jobsSince : String → Option Timestamp}
    (hgrace : seconds 25200 ≤ now) (hday : now ≤ seconds 109800) :
    missedSlots morningOnly now jobsSince SLOT_NAMES =
      .ok (if (jobsSince "flex-trades").any (· ≥ seconds 23400) then []
        else [⟨"flex-trades", seconds 23400, "1970-01-01"⟩]) := by
  have hfire : seconds 23400 < now := lt_of_lt_of_le (by decide) hgrace
  have hage : ¬ (now - seconds 23400 < seconds morningOnly.graceSec ∨
      now - seconds 23400 > seconds 86400) := by
    unfold morningOnly seconds at *
    simp only
    omega
  have htrades : missedSlot morningOnly now jobsSince "flex-trades" =
      .ok (if (jobsSince "flex-trades").any (· ≥ seconds 23400) then none
        else some ⟨"flex-trades", seconds 23400, "1970-01-01"⟩) := by
    unfold missedSlot
    rw [show morningOnly.cron "flex-trades" = "30 6 * * *" from rfl, if_neg (by decide),
      show morningOnly.zone = .utc from rfl, previousFire_morning hfire hday]
    simp only [if_neg hage, slotKind]
    rw [show Zone.utc.day (seconds 23400) = "1970-01-01" by decide +kernel]
    exact (apply_ite Except.ok _ _ _).symm
  have hcash : missedSlot morningOnly now jobsSince "flex-transactions" = .ok none := rfl
  unfold SLOT_NAMES
  simp only [missedSlots, htrades, hcash]
  split <;> rfl

/-- The tick is cut short after its insert and begun again. -/
def morningTicks : List (Timestamp × CatchupAction) :=
  [(seconds 26100, .tick), (seconds 26101, .enqueue), (seconds 26102, .lost),
    (seconds 26110, .tick)]

theorem enqueueSlot_morning : ∃ queue res,
    enqueueSlot scheduleConfig.payloadHash scheduleConfig.slots (seconds 26101) "flex-trades"
      (catchupPayload "1970-01-01") Sys.init.table = .ok (queue, res) ∧
    res.jobId.isSome = true ∧ newestJobPerKind queue "flex-trades" = some (seconds 26101) := by
  have hjob : (enqueueSlot scheduleConfig.payloadHash scheduleConfig.slots (seconds 26101)
      "flex-trades" (catchupPayload "1970-01-01") Sys.init.table).toOption.any (fun x =>
        x.2.jobId.isSome && newestJobPerKind x.1 "flex-trades" = some (seconds 26101)) = true := by
    decide +kernel
  cases henqueue : enqueueSlot scheduleConfig.payloadHash scheduleConfig.slots (seconds 26101)
      "flex-trades" (catchupPayload "1970-01-01") Sys.init.table with
  | error e =>
    rw [henqueue] at hjob
    cases hjob
  | ok x =>
    rw [henqueue] at hjob
    obtain ⟨hsome, hnewest⟩ := Bool.and_eq_true_iff.mp hjob
    exact ⟨x.1, x.2, rfl, hsome, of_decide_eq_true hnewest⟩

/-- The job of the first tick keeps the second from starting another. -/
theorem catchup_once_morning :
    ∃ t, exec (catchupStep scheduleConfig morningOnly) (.start Sys.init) morningTicks = some t ∧
      t.inserted.length = 1 ∧ t.pending = [] ∧
      (t.inserted.map fun x => x.1.fire).Nodup ∧
      ∀ x ∈ t.inserted, ∀ r ∈ x.2, r.kind = x.1.kind → r.createdAt < x.1.plannedAt := by
  obtain ⟨queue, res, henqueue, hsome, hnewest⟩ := enqueueSlot_morning
  let fire : Missed := ⟨"flex-trades", seconds 23400, "1970-01-01"⟩
  let late : CatchupSys := ⟨{ Sys.init with table := queue }, [], queue.rows, [(fire, [])]⟩
  have hfirst : catchupStep scheduleConfig morningOnly (.start Sys.init) (seconds 26100, .tick) =
      some ⟨Sys.init, [fire], [], []⟩ := by
    have hmissed : missedSlots morningOnly (seconds 26100) (newestJobPerKind Sys.init.table)
        SLOT_NAMES = .ok [fire] := by
      rw [missedSlots_morning (by decide) (by decide), if_neg (by decide)]
    exact catchupStep_tick hmissed
  have hsecond : catchupStep scheduleConfig morningOnly ⟨Sys.init, [fire], [], []⟩
      (seconds 26101, .enqueue) = some { late with seen := [] } := by
    simp only [catchupStep, fire]
    rw [henqueue]
    simp only [hsome, if_pos]
    rfl
  have hagain : catchupStep scheduleConfig morningOnly { late with seen := [] }
      (seconds 26110, .tick) = some late := by
    have hmissed : missedSlots morningOnly (seconds 26110) (newestJobPerKind queue)
        SLOT_NAMES = .ok [] := by
      rw [missedSlots_morning (by decide) (by decide), hnewest, if_pos (by decide)]
    exact catchupStep_tick hmissed
  have hrun : exec (catchupStep scheduleConfig morningOnly) (.start Sys.init) morningTicks =
      some late :=
    exec_cons.mpr ⟨_, hfirst, exec_cons.mpr ⟨_, hsecond, exec_cons.mpr ⟨_, rfl,
      exec_cons.mpr ⟨_, hagain, rfl⟩⟩⟩⟩
  have hclock : Along (catchupStep scheduleConfig morningOnly) ClockNotBehind (.start Sys.init)
      morningTicks := by
    refine ⟨nofun, fun u hu => ⟨?_, fun _ _ => ⟨nofun, fun _ _ => ⟨nofun, fun _ _ => trivial⟩⟩⟩⟩
    rw [hfirst] at hu
    cases hu
    rintro _ m ⟨⟩
    decide
  exact ⟨late, hrun, rfl, rfl, catchup_once hclock hrun⟩

end FlexQuery
