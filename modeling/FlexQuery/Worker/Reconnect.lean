import FlexQuery.Worker.Connection

/-!
# A claim and the reconnects

`WorkerDb.call(claim_next)`: a round whose connection is lost is run again on a new one.  A commit
can be carried out although its answer never arrives.

* `claimNext_run` — one run of `claim_next` on a connection without a transaction.
* `UnseenCommit` — a round whose claim was committed and whose connection was lost all the same.
* `claim_exact_iff` — the running jobs grow by exactly the job that is returned when, and only
  when, no round was one of these.
-/

set_option autoImplicit false

namespace FlexQuery

open Session Transition

/-! ## The running jobs -/

/-- Job `k` is running. -/
def JobTable.Running (t : JobTable) (k : ℕ) : Prop := t.At k fun r => r.status = .running

instance (t : JobTable) (k : ℕ) : Decidable (t.Running k) :=
  match h : t.row k with
  | none => isFalse fun ⟨_, hr, _⟩ => nomatch h.symm.trans hr
  | some r =>
    if hr : r.status = .running then isTrue ⟨r, h, hr⟩
    else isFalse fun ⟨_, hr', hrunning⟩ => hr (Option.some.inj (h.symm.trans hr') ▸ hrunning)

/-- The running jobs have grown by exactly this one; by none when there is none. -/
def ClaimExact (before after : JobTable) (job : Option Job) : Prop :=
  (∀ k, after.Running k ↔ before.Running k ∨ ∃ j, job = some j ∧ j.id = k) ∧
    ∀ j, job = some j → ¬ before.Running j.id

/-- A claimed row is a new running one, and the only one. -/
theorem running_claim {now : Timestamp} {t t' : JobTable} {r : JobRow}
    (hr : nextClaimable now t = some r)
    (hup : t.update (fun x => x.id = r.id) (JobRow.claim now) (fun _ => rfl) = .ok t') :
    ¬ t.Running r.id ∧ ∀ k, t'.Running k ↔ t.Running k ∨ r.id = k := by
  obtain ⟨hmem, hclaimable⟩ := nextClaimable_mem hr
  have hpending := (JobRow.claimable_iff.mp hclaimable).1
  have hrow := JobTable.row_mem hmem
  constructor
  · rintro ⟨x, hx, hrunning⟩
    rw [hrow] at hx
    cases hx
    rw [hpending] at hrunning
    cases hrunning
  · intro k
    unfold JobTable.Running JobTable.At
    rw [JobTable.row_update hup]
    by_cases hk : r.id = k
    · refine iff_of_true ?_ (Or.inr hk)
      rw [← hk, hrow]
      refine ⟨_, rfl, ?_⟩
      simp only [decide_true, if_true]
      rfl
    · rw [or_iff_left hk]
      cases hrow' : t.row k with
      | none => simp
      | some x =>
        have hx : x.id ≠ r.id := by
          rw [(JobTable.row_some hrow').2]
          exact fun h => hk h.symm
        simp [hx]

section Calls
variable {κ : Type} {pg : Postgres κ} {cfg : QueueConfig} {sched : CatchupConfig}

/-! ## One run -/

/-- The messages are the `SELECT`, the `UPDATE` and the commit: the claim is carried out, and the
connection is lost before the commit is answered. -/
def CommitLost (pg : Postgres κ) (now : Timestamp) (l : Link (Database κ) Process) : Prop :=
  ∃ row text, nextClaimable now l.db.jobs = some row ∧
    firstRejection [(Conn.selectClaimable pg now).effect, (Conn.updateClaimed pg now row).effect]
      l.db l.fates = none ∧
    l.fates.getD 0 .arrives = .arrives ∧ l.fates.getD 1 .arrives = .arrives ∧
    l.fates.getD 2 .arrives = .lost text true

theorem onJobs_ok {ρ : Type} {s : Statement} {q : JobTable → Except DbError (JobTable × ρ)}
    {d : Database κ} {x : Database κ × ρ} (h : pg.onJobs s q d = .ok x) :
    ∃ t, q d.jobs = .ok (t, x.2) ∧ x.1 = { d with jobs := t } := by
  have hq := statement_ok h
  split at hq
  · cases hq
  · rename_i t rows hrows
    cases hq
    exact ⟨t, hrows, rfl⟩

section Fates
variable (l : Link (Database κ) Process) (d d' : Database κ) (x x' : Txn (Database κ))

theorem fate_first : l.fate = l.fates.getD 0 .arrives := by
  cases h : l.fates <;> simp [Link.fate, h]

theorem fate_second : (l.sent d x).fate = l.fates.getD 1 .arrives := by
  rw [fate_first]
  cases h : l.fates <;> simp [Link.sent, h]

theorem fate_third : ((l.sent d x).sent d' x').fate = l.fates.getD 2 .arrives := by
  rw [fate_second]
  cases h : l.fates <;> simp [Link.sent, h]

end Fates

/-- Of a claim whose messages arrive, the `UPDATE` alone can be rejected. -/
theorem firstRejection_claim {now : Timestamp} {l : Link (Database κ) Process} {row : JobRow}
    {rows : Option JobRow} (hfirst : l.fate = .arrives)
    (hselect : Conn.selectClaimable pg now l.db = .ok (l.db, rows))
    (hsecond : (l.sent l.db (.active l.db)).fate = .arrives) :
    firstRejection [(Conn.selectClaimable pg now).effect, (Conn.updateClaimed pg now row).effect]
      l.db l.fates =
      match Conn.updateClaimed pg now row l.db with
      | .error e => some e
      | .ok _ => none := by
  simp only [firstRejection, show l.fates.headD .arrives = .arrives from hfirst,
    show l.fates.tail.headD .arrives = .arrives from hsecond, Query.effect, hselect, Except.map]
  cases Conn.updateClaimed pg now row l.db <;> rfl

/-- **One run.**  Either the queue is as it was and no job is returned, or the next job has been
claimed: it is returned, unless the answer to the commit is lost. -/
theorem claimNext_run {now : Timestamp} {l : Link (Database κ) Process} (h : l.txn = .idle) :
    let done := Client.run (Conn.claimNext pg now) l
    (done.2.db = l.db ∧ (∀ j, done.1 ≠ .ok (some j)) ∧ ¬ CommitLost pg now l) ∨
    ∃ row, nextClaimable now l.db.jobs = some row ∧
      l.db.jobs.update (fun x => x.id = row.id) (JobRow.claim now) (fun _ => rfl) =
        .ok done.2.db.jobs ∧
      ((done.1 = .ok (some { row.toJob with attempts := row.attempts + 1 }) ∧
          ¬ CommitLost pg now l) ∨
        ((∃ text, done.1 = .error (.lost text)) ∧ CommitLost pg now l)) := by
  have hview : l.view = some l.db := by rw [Link.view, h]
  simp only [Conn.claimNext]
  rw [run_bind, run_execute hview]
  cases hfirst : l.fate with
  | lost text carriedOut =>
    refine Or.inl ⟨rfl, by rintro _ ⟨⟩, ?_⟩
    rintro ⟨_, _, _, _, harrives, _⟩
    rw [← fate_first, hfirst] at harrives
    cases harrives
  | arrives =>
    cases hselect : Conn.selectClaimable pg now l.db with
    | error e =>
      refine Or.inl ⟨rfl, by rintro _ ⟨⟩, ?_⟩
      rintro ⟨_, _, _, hrejection, _⟩
      simp only [firstRejection, ← Link.fate.eq_1, hfirst, Query.effect, hselect, Except.map] at hrejection
      cases hrejection
    | ok x =>
      cases statement_ok hselect
      simp only
      cases hnext : nextClaimable now l.db.jobs with
      | none =>
        have hnot : ¬ CommitLost pg now l := by
          rintro ⟨_, _, hsome, _⟩
          rw [hnext] at hsome
          cases hsome
        rw [run_bind, run_rollback (Or.inl ⟨_, rfl⟩)]
        cases (l.sent l.db (.active l.db)).fate with
        | lost text carriedOut => exact Or.inl ⟨rfl, by rintro _ ⟨⟩, hnot⟩
        | arrives => exact Or.inl ⟨rfl, by rintro _ ⟨⟩, hnot⟩
      | some row =>
        have hsome : ∀ row', nextClaimable now l.db.jobs = some row' → row' = row := by
          intro row' h'
          rw [hnext] at h'
          exact (Option.some.inj h').symm
        rw [run_bind, run_execute (show (l.sent l.db (.active l.db)).view = some l.db from rfl)]
        cases hsecond : (l.sent l.db (.active l.db)).fate with
        | lost text carriedOut =>
          refine Or.inl ⟨rfl, by rintro _ ⟨⟩, ?_⟩
          rintro ⟨_, _, _, _, _, harrives, _⟩
          rw [← fate_second, hsecond] at harrives
          cases harrives
        | arrives =>
          have hrejection := @firstRejection_claim κ pg now l row _ hfirst hselect hsecond
          cases hupdate : Conn.updateClaimed pg now row l.db with
          | error e =>
            rw [hupdate] at hrejection
            refine Or.inl ⟨rfl, by rintro _ ⟨⟩, ?_⟩
            rintro ⟨row', _, hrow, hnone, _⟩
            rw [hsome row' hrow, hrejection] at hnone
            cases hnone
          | ok x =>
            rw [hupdate] at hrejection
            obtain ⟨t, ht, hdb⟩ := onJobs_ok hupdate
            have hup : l.db.jobs.update (fun x => x.id = row.id) (JobRow.claim now)
                (fun _ => rfl) = .ok x.1.jobs := by
              rw [hdb]
              cases hresult : l.db.jobs.update (fun x => x.id = row.id) (JobRow.claim now)
                (fun _ => rfl) with
              | error e =>
                rw [hresult] at ht
                cases ht
              | ok t' =>
                rw [hresult] at ht
                cases ht
                rfl
            simp only
            rw [run_bind, run_commit rfl]
            cases hthird : ((l.sent l.db (.active l.db)).sent (l.sent l.db (.active l.db)).db
                (.active x.1)).fate with
            | arrives =>
              refine Or.inr ⟨row, rfl, hup, Or.inl ⟨rfl, ?_⟩⟩
              rintro ⟨_, _, _, _, _, _, hlost⟩
              rw [← fate_third, hthird] at hlost
              cases hlost
            | lost text carriedOut =>
              cases carriedOut with
              | false =>
                refine Or.inl ⟨rfl, by rintro _ ⟨⟩, ?_⟩
                rintro ⟨_, _, _, _, _, _, hlost⟩
                rw [← fate_third, hthird] at hlost
                cases hlost
              | true =>
                refine Or.inr ⟨row, rfl, hup, Or.inr ⟨⟨text, rfl⟩, row, text, hnext, hrejection,
                  ?_, ?_, ?_⟩⟩
                · rw [← fate_first, hfirst]
                · rw [← fate_second l l.db (.active l.db), hsecond]
                · rw [← fate_third, hthird]

/-! ## The rounds of a call -/

/-- The round's claim is carried out and its answer lost. -/
def UnseenCommit (pg : Postgres κ) (w : World κ) (r : Round) : Prop :=
  ∃ l, w.link r = .ok l ∧ CommitLost pg r.now l

theorem World.link_db {w : World κ} {r : Round} {l : Link (Database κ) Process}
    (h : w.link r = .ok l) : l.db = w.db := by
  unfold World.link at h
  split at h
  · split at h
    · cases h
    · cases h
      rfl
  · cases h
    rfl

/-- The round of a call that reaches the server. -/
theorem attempt_claim_link {i : ℕ} {r : Round} {w : World κ} {l l' : Link (Database κ) Process}
    {x : Except (Fault Raised) (Option Job)} (hlink : w.link r = .ok l)
    (hrun : Client.run (Conn.claimNext pg r.now) l = (x, l')) :
    attempt (WorkerCall.claimNext.fn pg cfg sched) i r w = (x.map Reply.job,
      { db := l'.db
        conn := some l'.txn
        reconnects := w.reconnects + if w.disconnected ∧ i ≠ 0 then 1 else 0
        process := l'.memory }) := by
  unfold attempt
  rw [hlink]
  simp only [WorkerCall.fn, run_bind, hrun]
  cases x <;> rfl

/-- **One round.**  One that is followed by another leaves the queue as it was, or has claimed a
job unseen; the last one returns what it has claimed. -/
theorem attempt_claim {i : ℕ} {r : Round} {w : World κ} (h : Settled w) :
    (∀ u, retry (WorkerCall.claimNext.fn pg cfg sched) w (i, r) = some u → Settled u ∧
      ((u.db = w.db ∧ ¬ UnseenCommit pg w r) ∨
        (UnseenCommit pg w r ∧ ∃ row, nextClaimable r.now w.db.jobs = some row ∧
          w.db.jobs.update (fun x => x.id = row.id) (JobRow.claim r.now) (fun _ => rfl) =
            .ok u.db.jobs))) ∧
    ∀ job w', attempt (WorkerCall.claimNext.fn pg cfg sched) i r w = (.ok (.job job), w') →
      ¬ UnseenCommit pg w r ∧ ClaimExact w.db.jobs w'.db.jobs job := by
  cases hlink : w.link r with
  | error f =>
    have hnot : ¬ UnseenCommit pg w r := by
      rintro ⟨l, hl, _⟩
      rw [hlink] at hl
      cases hl
    have hattempt : attempt (WorkerCall.claimNext.fn pg cfg sched) i r w = (.error f, w) := by
      unfold attempt
      rw [hlink]
    refine ⟨fun u hu => ?_, fun job w' hreturned => ?_⟩
    · simp only [retry, hattempt] at hu
      split at hu
      · cases hu
        exact ⟨Or.inl rfl, Or.inl ⟨rfl, hnot⟩⟩
      · cases hu
    · rw [hattempt] at hreturned
      cases hreturned
  | ok l =>
    have hdb := World.link_db hlink
    have hunseen : UnseenCommit pg w r ↔ CommitLost pg r.now l := by
      constructor
      · rintro ⟨l', hl, hlost⟩
        rw [hlink] at hl
        cases hl
        exact hlost
      · exact fun hlost => ⟨l, hlink, hlost⟩
    have hrun := @claimNext_run κ pg r.now l (h.link hlink)
    rcases hx : Client.run (Conn.claimNext pg r.now) l with ⟨x, l'⟩
    have hattempt := @attempt_claim_link κ pg cfg sched i r w l l' x hlink hx
    rw [hx] at hrun
    simp only [hdb] at hrun
    rw [hunseen]
    rcases hrun with ⟨hsame, hnone, hnot⟩ | ⟨row, hnext, hup, ⟨rfl, hnot⟩ | ⟨⟨text, rfl⟩, hlost⟩⟩
    · -- The queue is as it was.
      rcases x with f | job
      · rw [retry_of_error hattempt, hattempt]
        refine ⟨fun u hu => ?_, fun job' w' hreturned => ?_⟩
        · split at hu
          · rw [← Option.some.inj hu]
            exact ⟨Or.inl rfl, Or.inl ⟨hsame, hnot⟩⟩
          · cases hu
        · cases (Prod.mk.inj hreturned).1
      · rw [retry_of_ok hattempt, hattempt]
        refine ⟨by simp, fun job' w' hreturned => ?_⟩
        obtain ⟨hjob, hw⟩ := Prod.mk.inj hreturned
        obtain rfl := Reply.job.inj (Except.ok.inj hjob)
        rw [← hw]
        cases job with
        | some j => exact absurd rfl (hnone j)
        | none =>
          refine ⟨hnot, fun k => ?_, by rintro _ ⟨⟩⟩
          simp only [hsame, reduceCtorEq, false_and, exists_false, or_false]
    · -- The job is returned.
      obtain ⟨hnew, hrunning⟩ := running_claim hnext hup
      rw [retry_of_ok hattempt, hattempt]
      refine ⟨by simp, fun job' w' hreturned => ?_⟩
      obtain ⟨hjob, hw⟩ := Prod.mk.inj hreturned
      obtain rfl := Reply.job.inj (Except.ok.inj hjob)
      rw [← hw]
      refine ⟨hnot, fun k => (hrunning k).trans ?_, fun j hj => ?_⟩
      · simp only [Option.some.injEq, exists_eq_left', JobRow.toJob]
      · rw [← Option.some.inj hj]
        exact hnew
    · -- The job is claimed, and the answer lost.
      rw [retry_of_error hattempt, hattempt]
      refine ⟨fun u hu => ?_, fun job' w' hreturned => ?_⟩
      · rw [← Option.some.inj hu]
        exact ⟨Or.inl rfl, Or.inr ⟨hlost, row, hnext, hup⟩⟩
      · cases (Prod.mk.inj hreturned).1

/-- **All rounds of a call.**  The job that is returned is none of those claimed before. -/
theorem attempts_claim {rounds : List (ℕ × Round)} {last : String} {w w' : World κ}
    {job : Option Job} (h : Settled w)
    (hcall : attempts (WorkerCall.claimNext.fn pg cfg sched) rounds last w =
      (.ok (.job job), w')) :
    (∀ k, w.db.jobs.Running k → w'.db.jobs.Running k ∧ ∀ j, job = some j → j.id ≠ k) ∧
    (ClaimExact w.db.jobs w'.db.jobs job ↔
      Along (retry (WorkerCall.claimNext.fn pg cfg sched)) (fun u x => ¬ UnseenCommit pg u x.2)
        w rounds) := by
  induction rounds generalizing w last with
  | nil => cases hcall
  | cons x rounds ih =>
    obtain ⟨i, r⟩ := x
    obtain ⟨hretried, hlast⟩ := @attempt_claim κ pg cfg sched i r w h
    cases hretry : retry (WorkerCall.claimNext.fn pg cfg sched) w (i, r) with
    | none =>
      rw [attempts_last hretry] at hcall
      obtain ⟨hnot, hexact⟩ := hlast job w' hcall
      refine ⟨fun k hk => ⟨(hexact.1 k).mpr (Or.inl hk), ?_⟩, ?_⟩
      · rintro j hj rfl
        exact hexact.2 j hj hk
      · refine iff_of_true hexact ⟨hnot, fun u hu => ?_⟩
        rw [hretry] at hu
        cases hu
    | some u =>
      obtain ⟨last', hsame⟩ := @attempts_retry κ _ _ i r rounds last w u hretry
      rw [hsame] at hcall
      obtain ⟨hsettled, hround⟩ := hretried u hretry
      obtain ⟨hkept, hiff⟩ := ih hsettled hcall
      rcases hround with ⟨hdb, hnot⟩ | ⟨hunseen, row, hnext, hup⟩
      · rw [hdb] at hkept hiff
        refine ⟨hkept, hiff.trans ?_⟩
        constructor
        · intro hall
          refine ⟨hnot, fun v hv => ?_⟩
          rw [hretry] at hv
          cases hv
          exact hall
        · exact fun hall => hall.2 u hretry
      · -- The job claimed unseen stays running, and is not the one that is returned.
        obtain ⟨hnew, hrunning⟩ := running_claim hnext hup
        refine ⟨fun k hk => hkept k ((hrunning k).mpr (Or.inl hk)), ?_⟩
        obtain ⟨hstray, hother⟩ := hkept row.id ((hrunning row.id).mpr (Or.inr rfl))
        refine iff_of_false ?_ (fun hall => hall.1 hunseen)
        rintro ⟨hgrown, _⟩
        rcases (hgrown row.id).mp hstray with hold | ⟨j, hj, hid⟩
        · exact hnew hold
        · exact hother j hj hid

/-- **A claim and its reconnects.**  Whenever `WorkerDb.call(claim_next)` returns, the running jobs
have grown by exactly the job it returns, if and only if no round that was run again had its claim
carried out and the answer to the commit lost. -/
theorem claim_exact_iff {rounds : ℕ → Round} {w w' : World κ} {job : Option Job} (h : Settled w)
    (hcall : call (WorkerCall.claimNext.fn pg cfg sched) rounds w = (.ok (.job job), w')) :
    ClaimExact w.db.jobs w'.db.jobs job ↔
      Along (retry (WorkerCall.claimNext.fn pg cfg sched)) (fun u x => ¬ UnseenCommit pg u x.2)
        w (schedule rounds) :=
  (attempts_claim h hcall).2

end Calls

/-! ## A claim nobody runs -/

/-- A queue with one pending job of `flex-trades`. -/
def oneJobQueue : JobTable :=
  (JobTable.empty.insert (newJob 0 "flex-trades" [] "04a38a701102a1d4" 5 8)).1

def oneJobWorld : World Unit := ⟨⟨oneJobQueue, none, ()⟩, some .idle, 0, ⟨true⟩⟩

/-- Nothing is lost: the job is returned, and is the one that runs. -/
theorem claim_exact_quiet : ∃ job w',
    call (WorkerCall.claimNext.fn noHeartbeatGrant scheduleConfig morningOnly) quietRounds
      oneJobWorld = (.ok (.job (some job)), w') ∧ job.id = 1 ∧
    ClaimExact oneJobWorld.db.jobs w'.db.jobs (some job) := by
  have hcall : ∃ job w', call (WorkerCall.claimNext.fn noHeartbeatGrant scheduleConfig morningOnly)
      quietRounds oneJobWorld = (.ok (.job (some job)), w') ∧ job.id = 1 := ⟨_, _, rfl, rfl⟩
  obtain ⟨job, w', hcall, hid⟩ := hcall
  refine ⟨job, w', hcall, hid, (claim_exact_iff (Or.inr rfl) hcall).mpr ⟨?_, fun u hu => ?_⟩⟩
  · rintro ⟨l, hl, _, text, _, _, _, _, hlost⟩
    cases hl
    cases hlost
  · have hattempt : ∃ a u, attempt (WorkerCall.claimNext.fn noHeartbeatGrant scheduleConfig
        morningOnly) 0 (quietRounds 0) oneJobWorld = (.ok a, u) := ⟨_, _, rfl⟩
    obtain ⟨a, v, hattempt⟩ := hattempt
    rw [retry_of_ok hattempt] at hu
    cases hu

/-- The first round loses the connection while it commits; nothing is lost after it. -/
def lostAtCommit : ℕ → Round
  | 0 => ⟨0, 0, [.arrives, .arrives, .lost "server closed the connection unexpectedly" true]⟩
  | _ => ⟨seconds 5, seconds 5, []⟩

/-- The job is running and no job is returned. -/
theorem claim_lost_at_commit :
    (∃ w', call (WorkerCall.claimNext.fn noHeartbeatGrant scheduleConfig morningOnly) lostAtCommit
        oneJobWorld = (.ok (.job none), w') ∧ w'.db.jobs.Running 1) ∧
      ¬ oneJobWorld.db.jobs.Running 1 := by
  refine ⟨⟨_, rfl, ?_⟩, by decide⟩
  decide

end FlexQuery
