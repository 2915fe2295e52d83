import FlexQuery.Queue.Drain

/-!
# No job starves

`claim_next` takes the jobs by priority and then by age.

* `Place.before` — its order, on what no statement changes of a job.
* `passesOver` — a poll that meets a job due and claims another.
* `passedOver_ahead` — the other is one ahead of it.
* `overtaken_le` — so a due job is passed over at most as often as the jobs ahead of it have
  attempts left; of the jobs that arrive meanwhile only those of a higher priority are ahead.
-/

set_option autoImplicit false

namespace FlexQuery

open Potential Transition

/-- `claimOrder`. -/
def Place.before (p q : Place) : Bool :=
  p.1 > q.1 || (p.1 = q.1 && (p.2.1 < q.2.1 || (p.2.1 = q.2.1 && p.2.2 < q.2.2)))

theorem claimOrder_place (a b : JobRow) : claimOrder a b = a.place.before b.place := rfl

theorem Place.before_iff {p q : Place} : p.before q = true ↔
    q.1 < p.1 ∨ p.1 = q.1 ∧ (p.2.1 < q.2.1 ∨ p.2.1 = q.2.1 ∧ p.2.2 < q.2.2) := by
  simp [Place.before]

theorem Place.not_before_iff {p q : Place} : p.before q = false ↔
    p.1 ≤ q.1 ∧ (p.1 = q.1 → q.2.1 ≤ p.2.1 ∧ (p.2.1 = q.2.1 → q.2.2 ≤ p.2.2)) := by
  simp [Place.before]

theorem Place.before_asymm {p q : Place} (h : p.before q = true) : q.before p = false := by
  rw [before_iff] at h
  rw [not_before_iff]
  obtain ⟨pp, pt, pk⟩ := p
  obtain ⟨qp, qt, qk⟩ := q
  simp only at h ⊢
  omega

theorem Place.not_before_trans {p q r : Place} (h : p.before q = false)
    (h' : q.before r = false) : p.before r = false := by
  rw [not_before_iff] at h h' ⊢
  obtain ⟨pp, pt, pk⟩ := p
  obtain ⟨qp, qt, qk⟩ := q
  obtain ⟨rp, rt, rk⟩ := r
  simp only at h h' ⊢
  omega

/-- Neither before the other: the same job. -/
theorem Place.id_eq {p q : Place} (h : p.before q = false) (h' : q.before p = false) :
    p.2.2 = q.2.2 := by
  rw [not_before_iff] at h h'
  obtain ⟨pp, pt, pk⟩ := p
  obtain ⟨qp, qt, qk⟩ := q
  simp only at h h' ⊢
  omega

/-- The first job that is due: no due job is ahead of it. -/
theorem nextClaimable_first {now : Timestamp} {t : JobTable} {x r : JobRow}
    (h : nextClaimable now t = some x) (hr : r ∈ t.rows) (hcl : r.claimable now = true) :
    r.place.before x.place = false := by
  have hasymm : ∀ a b : JobRow, claimOrder a b = true → claimOrder b a = false := by
    intro a b hab
    rw [claimOrder_place] at hab ⊢
    exact Place.before_asymm hab
  have htrans : ∀ a b c : JobRow, claimOrder a b = false → claimOrder b c = false →
      claimOrder a c = false := by
    intro a b c hab hbc
    rw [claimOrder_place] at hab hbc ⊢
    exact Place.not_before_trans hab hbc
  exact RowTable.firstBy_least hasymm htrans h r (List.mem_filter.mpr ⟨hr, hcl⟩)

/-- The poll meets job `k` due, and claims another. -/
def passesOver (k : ℕ) (s : Sys) (l : Timestamp × Action) (s' : Sys) : Bool :=
  match l.2 with
  | .claimNext _ => s.table.rows.any (fun r => r.id = k && r.claimable l.1) &&
      s'.claimed ≠ k :: s.claimed
  | _ => false

/-- **Whatever is claimed first is ahead**, pending, and claimed instead. -/
theorem passedOver_ahead {cfg : QueueConfig} {s s' : Sys} {l : Timestamp × Action} {r : JobRow}
    (htag : r.tag ∈ s.table.rows.map JobRow.tag) (hstep : step cfg s l = some s')
    (hpass : passesOver r.id s l s' = true) :
    ∃ x ∈ s.table.rows, x.status = .pending ∧ x.place.before r.place = true ∧
      s'.claimed = x.id :: s.claimed := by
  obtain ⟨now, a⟩ := l
  cases a with
  | claimNext w =>
    obtain ⟨hdue, hother⟩ := Bool.and_eq_true_iff.mp hpass
    obtain ⟨y, hy, hyr⟩ := List.any_eq_true.mp hdue
    obtain ⟨hid, hcl⟩ := Bool.and_eq_true_iff.mp hyr
    have hid : y.id = r.id := of_decide_eq_true hid
    obtain ⟨z, hz, hztag⟩ := List.mem_map.mp htag
    have hzy : z = y := by
      apply List.inj_on_of_nodup_map s.table.ids_nodup hz hy
      rw [hid, show z.id = z.tag.1.2.2 from rfl, hztag]
      rfl
    have hplace : y.place = r.place := by
      rw [← hzy, show z.place = z.tag.1 from rfl, hztag]
      rfl
    obtain ⟨x, hnext, hclaimed⟩ := poll_claims hstep hy hcl
    obtain ⟨hx, hxcl⟩ := nextClaimable_mem hnext
    refine ⟨x, hx, (JobRow.claimable_iff.mp hxcl).1, ?_, hclaimed⟩
    have hfirst := nextClaimable_first hnext hy hcl
    rw [hplace] at hfirst
    by_contra hbehind
    have hsame : x.id = r.id := Place.id_eq (Bool.eq_false_of_not_eq_true hbehind) hfirst
    rw [hclaimed, hsame] at hother
    simp at hother
  | _ => cases hpass

/-- A job stays where it is. -/
theorem tag_step {cfg : QueueConfig} {g : Place × ℕ} {s s' : Sys} {l : Timestamp × Action}
    (h : g ∈ s.table.rows.map JobRow.tag) (hstep : step cfg s l = some s') :
    g ∈ s'.table.rows.map JobRow.tag := by
  have harrived : Arrived (fun _ => True) s.table s'.table := arrived_step trivial hstep
  obtain ⟨_, new, hrows, _⟩ := harrived
  rw [hrows]
  exact List.mem_append_left new h

/-- Of the jobs that arrive after `r`, those of no higher priority are behind it. -/
theorem budgets_ahead {s t : Sys} {r : JobRow} (hr : r ∈ s.table.rows)
    (harrived : Arrived (fun now => r.createdAt ≤ now) s.table t.table)
    (hprio : ∀ x ∈ t.table.rows, x.id ∉ s.table.rows.map JobRow.id → x.priority ≤ r.priority) :
    t.table.budgetsAt (fun p => p.before r.place) =
      s.table.budgetsAt fun p => p.before r.place := by
  obtain ⟨_, new, hrows, hnew⟩ := harrived
  rw [budgetsAt_append hrows, Nat.add_eq_left, List.sum_eq_zero_iff]
  intro n hn
  obtain ⟨g, hg, rfl⟩ := List.mem_map.mp hn
  obtain ⟨hcreated, hid⟩ := hnew g hg
  obtain ⟨x, hx, hxg⟩ := List.mem_map.mp (hrows ▸ List.mem_append_right _ hg)
  have hxp : x.place = g.1 := congrArg Prod.fst hxg
  have hold : x.id ∉ s.table.rows.map JobRow.id := by
    intro hmem
    obtain ⟨y, hy, hyx⟩ := List.mem_map.mp hmem
    have hlt := s.table.id_lt y hy
    have hxid : x.id = g.1.2.2 := congrArg (fun p : Place => p.2.2) hxp
    omega
  have hle : g.1.1 ≤ r.place.1 := by
    rw [← hxp]
    exact hprio x hx hold
  have hlt : r.place.2.2 < s.table.nextId := s.table.id_lt r hr
  have hcreated : r.place.2.1 ≤ g.1.2.1 := hcreated
  have hbehind : g.1.before r.place = false := by
    rw [Place.not_before_iff]
    omega
  simp [hbehind]

/-- **No job starves.**  Workers none of whose attempts is reclaimed in flight, any arrivals and
any attempts: the polls that meet a job due and claim another number at most the attempts left to
the jobs ahead of it and to those that arrived ahead since.  Where these have no higher priority,
they are not ahead; and once the job was passed over that often, the next poll that meets it due
claims it. -/
theorem overtaken_le {cfg : QueueConfig} {pre as : List (Timestamp × Action)} {s t : Sys}
    (hsafe : Along (step cfg) (SafeStep cfg) Sys.init (pre ++ as))
    (hs : exec (step cfg) Sys.init pre = some s) (ht : exec (step cfg) s as = some t)
    {r : JobRow} (hr : r ∈ s.table.rows) :
    let ahead := fun p : Place => p.before r.place
    let passed := count (step cfg) (passesOver r.id) s as
    passed + t.table.leftAt ahead ≤
        s.table.leftAt ahead + (t.table.budgetsAt ahead - s.table.budgetsAt ahead) ∧
      ((∀ l ∈ as, r.createdAt ≤ l.1) →
        (∀ x ∈ t.table.rows, x.id ∉ s.table.rows.map JobRow.id → x.priority ≤ r.priority) →
        passed + t.table.leftAt ahead ≤ s.table.leftAt ahead ∧
          (passed = s.table.leftAt ahead → ∀ now w t',
            step cfg t (now, .claimNext w) = some t' →
            (∃ x ∈ t.table.rows, x.id = r.id ∧ x.claimable now = true) →
            t'.claimed = r.id :: t.claimed)) := by
  intro ahead passed
  obtain ⟨hpre, hpost⟩ := Along.append.mp hsafe
  have hs' : DrainInv s :=
    exec_invariant (fun _ _ _ hu hl hstep => drainInv_step hu hl hstep) DrainInv.init hpre hs
  have hev : ∀ u l u', r.tag ∈ u.table.rows.map JobRow.tag → step cfg u l = some u' →
      passesOver r.id u l u' = true → claimsAt ahead u l u' = true := by
    intro u l u' htag hstep hpass
    obtain ⟨x, hx, _, hahead, hclaimed⟩ := passedOver_ahead htag hstep hpass
    exact List.any_eq_true.mpr ⟨x, hx, by simp [ahead, hahead, hclaimed]⟩
  have htag : r.tag ∈ s.table.rows.map JobRow.tag := List.mem_map_of_mem hr
  obtain ⟨ht', hpaid⟩ :=
    claims_paid (fun _ _ _ hu hstep => tag_step hu hstep) hev hs' htag (hpost s hs) ht
  refine ⟨hpaid, fun hclock hprio => ?_⟩
  have hsame := budgets_ahead hr (arrived_run hclock ht) hprio
  have hbound : passed + t.table.leftAt ahead ≤ s.table.leftAt ahead := by
    have hpaid : passed + t.table.leftAt ahead ≤
      s.table.leftAt ahead + (t.table.budgetsAt ahead - s.table.budgetsAt ahead) := hpaid
    have hsame : t.table.budgetsAt ahead = s.table.budgetsAt ahead := hsame
    omega
  refine ⟨hbound, fun hall now w t' hstep hdue => ?_⟩
  have hnone : t.table.leftAt ahead = 0 := by omega
  by_contra hother
  have hpass : passesOver r.id t (now, .claimNext w) t' = true := by
    obtain ⟨x, hx, hid, hcl⟩ := hdue
    refine Bool.and_eq_true_iff.mpr ⟨List.any_eq_true.mpr ⟨x, hx, by simp [hid, hcl]⟩, ?_⟩
    exact decide_eq_true hother
  have htag' : r.tag ∈ t.table.rows.map JobRow.tag :=
    exec_kept (fun u => r.tag ∈ u.table.rows.map JobRow.tag)
      (fun _ _ _ hu hstep => tag_step hu hstep) htag ht
  obtain ⟨x, hx, hst, hahead, _⟩ := passedOver_ahead htag' hstep hpass
  have hpos := (ht'.rows x hx).left_pos hst
  have hle : x.left ≤ t.table.leftAt ahead := JobTable.left_le hx hahead
  omega

/-- Two jobs of the morning, the first with two attempts. -/
def twoJobs : List (Timestamp × Action) :=
  [(0, .insertJob "flex-trades" [("as_of", .str "2026-09-04")] 5 2 none),
    (0, .insertJob "flex-transactions" [("as_of", .str "2026-09-04")] 4 2 none)]

/-- Neither attempt at the first is answered. -/
def firstTwice : List (Timestamp × Action) :=
  [(seconds 5, .claimNext 0), (seconds 35, .fail 0 "timed out"),
    (seconds 155, .claimNext 0), (seconds 185, .fail 0 "timed out")]

/-- The second waits for both, and no longer. -/
theorem overtaken_le_twice :
    ∃ s t t', exec (step scheduleConfig) Sys.init twoJobs = some s ∧
      exec (step scheduleConfig) s firstTwice = some t ∧
      count (step scheduleConfig) (passesOver 2) s firstTwice = 2 ∧
      step scheduleConfig t (seconds 190, .claimNext 0) = some t' ∧
      t'.claimed = 2 :: t.claimed := by
  let ahead := fun p : Place => p.before (4, 0, 2)
  have hrun : ((exec (step scheduleConfig) Sys.init twoJobs).any fun s =>
      count (step scheduleConfig) (passesOver 2) s firstTwice = 2 ∧ s.table.leftAt ahead = 2 ∧
        (s.table.rows.any fun r => r.place = (4, 0, 2)) ∧
        (exec (step scheduleConfig) s firstTwice).any fun t =>
          (t.table.rows.all fun x => x.id ∈ s.table.rows.map JobRow.id) ∧
          (t.table.rows.any fun x => x.id = 2 ∧ x.claimable (seconds 190)) ∧
          (step scheduleConfig t (seconds 190, .claimNext 0)).isSome) = true := by
    decide +kernel
  obtain ⟨s, hs, hrun⟩ := (Option.any_eq_true _ _).mp hrun
  obtain ⟨hcount, hleft, hr, hrun⟩ := of_decide_eq_true hrun
  obtain ⟨t, ht, hrun⟩ := (Option.any_eq_true _ _).mp hrun
  obtain ⟨hold, hdue, hpoll⟩ := of_decide_eq_true hrun
  obtain ⟨t', ht'⟩ := Option.isSome_iff_exists.mp hpoll
  obtain ⟨r, hr, hplace⟩ := List.any_eq_true.mp hr
  have hplace : r.place = (4, 0, 2) := of_decide_eq_true hplace
  have hid : r.id = 2 := congrArg (fun p : Place => p.2.2) hplace
  have hcreated : r.createdAt = 0 := congrArg (fun p : Place => p.2.1) hplace
  have hsafe : Along (step scheduleConfig) (SafeStep scheduleConfig) Sys.init
      (twoJobs ++ firstTwice) := by
    apply Along.of_forall
    intro a ha u
    refine ⟨?_, ?_⟩
    · rintro ⟨⟨w, hw⟩, _⟩
      fin_cases ha <;> cases hw
    · fin_cases ha
      iterate 2 exact Nat.succ_pos 1
      all_goals trivial
  obtain ⟨_, hquiet⟩ := overtaken_le hsafe hs ht hr
  rw [hplace, hid, hcreated] at hquiet
  have hclock : ∀ l ∈ firstTwice, (0 : Timestamp) ≤ l.1 := by decide
  obtain ⟨_, hnext⟩ := hquiet hclock fun x hx hnew =>
    absurd (of_decide_eq_true (List.all_eq_true.mp hold x hx)) hnew
  refine ⟨s, t, t', hs, ht, hcount, ht', hnext (hcount.trans hleft.symm) _ 0 t' ht' ?_⟩
  obtain ⟨x, hx, hxdue⟩ := List.any_eq_true.mp hdue
  exact ⟨x, hx, of_decide_eq_true hxdue⟩

end FlexQuery
