import FlexQuery.Library.Spacing
import FlexQuery.Queue.System

/-!
# The jobs that arrive

* `JobRow.tag` — what no statement changes of a job: its place in the queue and its budget.
* `Arrived` — the jobs of one table are those of another and some that arrived since.
* `arrived_step`, `arrived_run` — so it is in every run.
* `aged_run` — on a clock that does not go back, a job with a greater id is no older.
-/

set_option autoImplicit false

namespace FlexQuery

open Spacing Transition

/-- What `claim_next` orders jobs by; no statement changes it. -/
abbrev Place := ℤ × ℤ × ℕ

def JobRow.place (r : JobRow) : Place := (r.priority, r.createdAt, r.id)

/-- A job's place and its budget. -/
def JobRow.tag (r : JobRow) : Place × ℕ := (r.place, r.maxAttempts)

/-- The jobs of `t'` are those of `t`, at their places and with their budgets, and jobs that
arrived since, at times that meet `P`. -/
def Arrived (P : Timestamp → Prop) (t t' : JobTable) : Prop :=
  t.nextId ≤ t'.nextId ∧ ∃ new, t'.rows.map JobRow.tag = t.rows.map JobRow.tag ++ new ∧
    ∀ g ∈ new, P g.1.2.1 ∧ t.nextId ≤ g.1.2.2

section
variable {P : Timestamp → Prop} {t t' : JobTable}

theorem Arrived.refl (t : JobTable) : Arrived P t t :=
  ⟨le_refl _, [], (List.append_nil _).symm, by simp⟩

theorem Arrived.trans {u : JobTable} (h : Arrived P t u) (h' : Arrived P u t') :
    Arrived P t t' := by
  obtain ⟨hle, new, hrows, hnew⟩ := h
  obtain ⟨hle', new', hrows', hnew'⟩ := h'
  refine ⟨hle.trans hle', new ++ new', by rw [hrows', hrows, List.append_assoc], ?_⟩
  intro g hg
  rcases List.mem_append.mp hg with hg | hg
  · exact hnew g hg
  · exact ⟨(hnew' g hg).1, hle.trans (hnew' g hg).2⟩

theorem Arrived.update {p : JobRow → Bool} {f : JobRow → JobRow} {hid : ∀ r, (f r).id = r.id}
    (ht : t.update p f hid = .ok t') (hf : ∀ r, (f r).tag = r.tag) : Arrived P t t' := by
  obtain ⟨hrows, hnext⟩ := JobTable.update_rows ht
  refine ⟨hnext.ge, [], ?_, by simp⟩
  rw [hrows, RowTable.map_key_update hf, List.append_nil]

theorem Arrived.insert {r : JobRow} (hr : P r.createdAt) (t : JobTable) :
    Arrived P t (t.insert r).1 := by
  rcases t.insert_cases r with ⟨hrows, _, hnext⟩ | ⟨hrows, _, hnext, _⟩
  · refine ⟨by omega, [JobRow.tag { r with id := t.nextId }], by simp [hrows], ?_⟩
    intro g hg
    rw [List.mem_singleton.mp hg]
    exact ⟨hr, le_refl _⟩
  · exact ⟨by omega, [], by simp [hrows], by simp⟩

end

theorem arrived_step {cfg : QueueConfig} {P : Timestamp → Prop} {s s' : Sys}
    {l : Timestamp × Action} (hP : P l.1) (hstep : step cfg s l = some s') :
    Arrived P s.table s'.table := by
  obtain ⟨now, a⟩ := l
  cases step_effect hstep with
  | nothing => exact .refl _
  | insert => exact .insert hP _
  | runNow k force t r hr hst hcool ht => exact .update ht fun _ => rfl
  | manualStart => exact .insert hP _
  | manualFinish k res t hk ht =>
    rcases auditFinish_cases ht with ⟨result, ht⟩ | ⟨error, category, ht⟩
    · exact .update ht fun _ => rfl
    · exact .update ht fun _ => rfl
  | manualAbandon => exact .refl _
  | claim w r t hw hr hcl ht => exact .update ht fun _ => rfl
  | reclaim w t hw ht => exact .update ht fun _ => rfl
  | done w j result t hw ht => exact .update ht fun _ => rfl
  | retry w j msg t hw hp ht => exact .update ht fun _ => rfl
  | violation => exact .refl _
  | giveUp w j msg t hw hp ht => exact .update ht fun _ => rfl
  | cool w j delay t hw ht => exact .update ht fun _ => rfl
  | crash => exact .refl _

theorem arrived_run {cfg : QueueConfig} {P : Timestamp → Prop} {s t : Sys}
    {as : List (Timestamp × Action)} (hP : ∀ a ∈ as, P a.1)
    (h : exec (step cfg) s as = some t) : Arrived P s.table t.table := by
  have hkeep : ∀ (u : Sys) (l : Timestamp × Action) (v : Sys), True → P l.1 →
      step cfg u l = some v → True ∧ Arrived P u.table v.table :=
    fun _ _ _ _ hl hstep => ⟨trivial, arrived_step hl hstep⟩
  exact exec_relation hkeep (fun _ => .refl _) (fun _ _ _ => .trans) trivial
    (Along.of_forall s fun a ha _ => hP a ha) h

/-! ## Ids and ages -/

/-- Every job was created by `T`, and one with a greater id no earlier. -/
structure AgedInv (T : Timestamp) (s : Sys) : Prop where
  made : ∀ g ∈ s.table.rows.map JobRow.tag, g.1.2.1 ≤ T
  order : ∀ g ∈ s.table.rows.map JobRow.tag, ∀ g' ∈ s.table.rows.map JobRow.tag,
    g.1.2.2 ≤ g'.1.2.2 → g.1.2.1 ≤ g'.1.2.1

theorem AgedInv.init (T : Timestamp) : AgedInv T Sys.init where
  made := fun _ h => absurd h List.not_mem_nil
  order := fun _ h => absurd h List.not_mem_nil

theorem tag_id_lt {t : JobTable} {g : Place × ℕ} (h : g ∈ t.rows.map JobRow.tag) :
    g.1.2.2 < t.nextId := by
  obtain ⟨r, hr, rfl⟩ := List.mem_map.mp h
  exact t.id_lt r hr

/-- **Step lemma.** -/
theorem aged_step {cfg : QueueConfig} {T : Timestamp} {s s' : Sys} {l : Timestamp × Action}
    (h : AgedInv T s) (hT : T ≤ l.1) (hstep : step cfg s l = some s') : AgedInv l.1 s' := by
  have harrived : Arrived (fun now => now = l.1) s.table s'.table := arrived_step rfl hstep
  obtain ⟨_, new, hrows, hnew⟩ := harrived
  have hmade : ∀ g ∈ s.table.rows.map JobRow.tag, g.1.2.1 ≤ l.1 := fun g hg => (h.made g hg).trans hT
  refine ⟨?_, ?_⟩
  · intro g hg
    rw [hrows] at hg
    rcases List.mem_append.mp hg with hg | hg
    · exact hmade g hg
    · exact (hnew g hg).1.le
  · intro g hg g' hg' hle
    rw [hrows] at hg hg'
    rcases List.mem_append.mp hg' with hold' | hnew'
    · rcases List.mem_append.mp hg with hold | hlate
      · exact h.order g hold g' hold' hle
      · have hlt := tag_id_lt hold'
        have hge := (hnew g hlate).2
        omega
    · rw [(hnew g' hnew').1]
      rcases List.mem_append.mp hg with hold | hlate
      · exact hmade g hold
      · exact (hnew g hlate).1.le

/-- **The job with the greatest id is the youngest**, in every state a run reaches. -/
theorem aged_run {cfg : QueueConfig} {s : Sys} {as : List (Timestamp × Action)}
    (hclock : OnClock as) (h : exec (step cfg) Sys.init as = some s) :
    ∀ r ∈ s.table.rows, ∀ x ∈ s.table.rows, r.id ≤ x.id → r.createdAt ≤ x.createdAt := by
  have hinv : ∃ T, AgedInv T s := by
    cases as with
    | nil =>
      cases h
      exact ⟨0, AgedInv.init 0⟩
    | cons a as =>
      obtain ⟨hle, _⟩ := onClock_cons.mp hclock
      obtain ⟨T, _, hinv⟩ := exec_onClock (fun _ _ _ _ hs hT hstep => aged_step hs hT hstep)
        (AgedInv.init a.1) hclock (by simpa using hle) h
      exact ⟨T, hinv⟩
  obtain ⟨T, hinv⟩ := hinv
  exact fun r hr x hx => hinv.order r.tag (List.mem_map_of_mem hr) x.tag (List.mem_map_of_mem hx)

end FlexQuery
