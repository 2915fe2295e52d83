import FlexQuery.Worker.Connection

/-!
# The schema migrations of a process

`ensure_flex_ops_schema` of `schema/ddl.py` runs its migrations once per process and keeps the flag
for it in memory, while their effect is in a transaction.

* `recording` — the server with a record of the schema statements, inside and outside of
  transactions.
* `prepareSchema`, `ensureFlexOpsSchema` — the function with its `migrate` argument, before and
  after the commit, which may be refused.
* `Outcome` — what a call makes of the flag and the record; it composes over rounds and runs.
* `schemaStep` — the process: calls on connections of their own, calls through `WorkerDb.call`, and
  everything else in between.
* `migrated_iff` — a call that returns leaves the migrations in the database exactly when no commit
  that carried them was undone before it.
-/

set_option autoImplicit false

namespace FlexQuery

open Session Transition

/-! ## The record -/

/-- The catalog with the schema statements that this process has executed. -/
abbrev Recorded (κ : Type) := κ × List String

/-- The same server; each schema statement is recorded. -/
def recording {κ : Type} (pg : Postgres κ) : Postgres (Recorded κ) where
  rejects := fun c => pg.rejects c.1
  tables := fun c => pg.tables c.1
  alter := fun c sql => (pg.alter c.1 sql, c.2 ++ [sql])

/-- A server that can also refuse a commit. -/
structure SchemaServer (κ : Type) where
  pg : Postgres κ
  refuses : Database (Recorded κ) → Option Raised

section Schema
variable {κ : Type}

def Database.record (d : Database (Recorded κ)) : List String := d.catalog.2

/-- All migrations are recorded. -/
def Migrated (d : Database (Recorded κ)) : Prop := ∀ sql ∈ Conn.MIGRATIONS, sql ∈ d.record

instance (d : Database (Recorded κ)) : Decidable (Migrated d) :=
  inferInstanceAs (Decidable (∀ sql ∈ Conn.MIGRATIONS, sql ∈ d.record))

/-! ## The function -/

variable (server : SchemaServer κ)

/-- `ensure_flex_ops_schema` up to its commit. -/
def prepareSchema (migrate : Bool) : OnConn (Recorded κ) Unit := do
  let present ← execute (Conn.countTables (recording server.pg))
  executeAll (Conn.creates (recording server.pg) present)
  if migrate then do
    let p ← remembered
    executeAll (Conn.migrations (recording server.pg) p)
    remember fun p => { p with migrated := true }
  else pure ()

/-- `ensure_flex_ops_schema`. -/
def ensureFlexOpsSchema (migrate : Bool) : OnConn (Recorded κ) Unit := do
  prepareSchema server migrate
  commitUnless server.refuses

/-- With the default for `migrate`, and a commit that is not refused. -/
theorem ensureFlexOpsSchema_default (pg : Postgres κ) :
    ensureFlexOpsSchema ⟨pg, fun _ => none⟩ true = Conn.ensureFlexOpsSchema (recording pg) := by
  simp only [ensureFlexOpsSchema, prepareSchema, Conn.ensureFlexOpsSchema, bind_assoc, if_true,
    commitUnless_none]

/-- The schema statements of one call. -/
def recorded (migrate : Bool) (p : Process) (present : ℕ) : List String :=
  (if present < 2 then Conn.CREATES else []) ++
    if migrate && !p.migrated then Conn.MIGRATIONS else []

/-- Nothing of the call is left but the record before it. -/
def Undone (base : List String) (p : Process) (_ : Fault Raised)
    (l : Link (Database (Recorded κ)) Process) : Prop :=
  Database.record l.db = base ∧ l.memory = p ∧ ∀ work, l.txn ≠ .active work

variable {server}

theorem ddl_record {pg : Postgres κ} {sql : String} {d work : Database (Recorded κ)}
    (h : Conn.ddl (recording pg) sql d = .ok work) : work.record = d.record ++ [sql] := by
  unfold Conn.ddl Query.effect at h
  cases hq : (recording pg).statement (.ddl sql) (fun d =>
      .ok ({ d with catalog := (recording pg).alter d.catalog sql }, ())) d with
  | error e =>
    rw [hq] at h
    cases h
  | ok x =>
    rw [hq] at h
    cases h
    cases statement_ok hq
    rfl

/-- Schema statements, each of which is recorded. -/
theorem triple_ddl {base t : List String} {p : Process} (sqls : List String) :
    Triple (fun l => Working Database.record base t l ∧ l.memory = p)
      (executeAll (sqls.map (Conn.ddl (recording server.pg))) : OnConn (Recorded κ) Unit)
      (fun _ l => Working Database.record base (t ++ sqls) l ∧ l.memory = p)
      (Undone base p) := by
  have hfold : ∀ sqls : List String, ∀ t,
      sqls.foldl (fun t sql => t ++ [sql]) t = t ++ sqls := by
    intro sqls
    induction sqls with
    | nil => simp
    | cons sql sqls ih => simp [ih]
  have hrun : Triple (Working Database.record base t)
      (executeAll (sqls.map (Conn.ddl (recording server.pg))) : OnConn (Recorded κ) Unit)
      (fun _ => Working Database.record base (sqls.foldl (fun t sql => t ++ [sql]) t))
      (Keeps Database.record base) :=
    working_executeAll (fun _ _ _ h => ddl_record h) sqls
  rw [hfold] at hrun
  exact (silent_executeAll _).triple hrun

variable (server) in
/-- **Before the commit.**  The database is as it was, the transaction records the statements of
the call, and the flag is set. -/
theorem triple_prepareSchema (migrate : Bool) (base : List String) (p : Process) :
    Triple (fun l => Shows Database.record base base l ∧ l.memory = p)
      (prepareSchema server migrate)
      (fun _ l => ∃ present, Working Database.record base (base ++ recorded migrate p present) l ∧
        l.memory = ⟨p.migrated || migrate⟩)
      (Undone base p) := by
  have hcount : Triple (Shows Database.record base base)
      (execute (Conn.countTables (recording server.pg)) : OnConn (Recorded κ) ℕ)
      (fun _ l => Working Database.record base base l ∧ True) (Keeps Database.record base) := by
    refine shows_execute fun d work present hd h => ?_
    cases statement_ok h
    exact ⟨hd, trivial⟩
  unfold prepareSchema
  refine triple_bind ((silent_execute _).triple hcount) fun present => ?_
  have hcreates : Conn.creates (recording server.pg) present =
      (if present < 2 then Conn.CREATES else []).map (Conn.ddl (recording server.pg)) := by
    unfold Conn.creates
    split <;> rfl
  rw [hcreates]
  refine triple_bind ((triple_ddl _).weaken (fun _ hl => ⟨hl.1.1, hl.2⟩) fun _ _ hl => hl)
    fun _ => ?_
  cases migrate with
  | false =>
    refine triple_pure fun l hl => ⟨present, ?_, ?_⟩
    · simpa [recorded] using hl.1
    · simpa using hl.2
  | true =>
    refine triple_bind (triple_remembered (Q := fun q l => (Working Database.record base
      (base ++ if present < 2 then Conn.CREATES else []) l ∧ l.memory = p) ∧ q = p)
      fun l hl => ⟨hl, hl.2⟩) fun q => ?_
    refine (triple_frame ?_).weaken (fun _ hl => hl) fun _ _ hl => hl.1
    rintro rfl
    have hmigrations : Conn.migrations (recording server.pg) q =
        (if q.migrated then [] else Conn.MIGRATIONS).map (Conn.ddl (recording server.pg)) := by
      unfold Conn.migrations
      split <;> rfl
    rw [hmigrations]
    refine triple_bind (triple_ddl _) fun _ => triple_remember fun l hl => ⟨present, ?_, ?_⟩
    · have hrecorded : base ++ recorded true q present =
          base ++ (if present < 2 then Conn.CREATES else []) ++
            if q.migrated then [] else Conn.MIGRATIONS := by
        cases hq : q.migrated <;> simp [recorded, hq]
      rw [hrecorded]
      exact hl.1.remember _
    · simp

/-! ## The flag and the record -/

/-- The flag of a process and its record. -/
abbrev SchemaState := Process × List String

/-- All migrations are recorded and the flag is set, or none is and it is not. -/
def Truthful (s : SchemaState) : Prop :=
  (s.1.migrated = true ∧ ∀ sql ∈ Conn.MIGRATIONS, sql ∈ s.2) ∨
    (s.1.migrated = false ∧ ∀ sql ∈ Conn.MIGRATIONS, sql ∉ s.2)

/-- The flag is set, but not all migrations are recorded. -/
def Skipped (s : SchemaState) : Prop :=
  s.1.migrated = true ∧ ¬ ∀ sql ∈ Conn.MIGRATIONS, sql ∈ s.2

/-- What a call makes of the flag and the record; `lost` says that it loses migrations. -/
structure Outcome (before after : SchemaState) (lost : Prop) : Prop where
  truthful : Truthful before → (Truthful after ∧ ¬ lost) ∨ (Skipped after ∧ lost)
  skipped : Skipped before → Skipped after

theorem Outcome.refl (s : SchemaState) : Outcome s s False where
  truthful := fun h => Or.inl ⟨h, not_false⟩
  skipped := id

theorem Outcome.trans {s t u : SchemaState} {lost lost' : Prop} (h : Outcome s t lost)
    (h' : Outcome t u lost') : Outcome s u (lost ∨ lost') where
  truthful := by
    intro hs
    rcases h.truthful hs with ⟨ht, hnot⟩ | ⟨ht, hlost⟩
    · rcases h'.truthful ht with ⟨hu, hnot'⟩ | ⟨hu, hlost'⟩
      · exact Or.inl ⟨hu, not_or.mpr ⟨hnot, hnot'⟩⟩
      · exact Or.inr ⟨hu, Or.inr hlost'⟩
    · exact Or.inr ⟨h'.skipped ht, Or.inl hlost⟩
  skipped := h'.skipped ∘ h.skipped

theorem Outcome.congr {s t : SchemaState} {lost lost' : Prop} (h : Outcome s t lost)
    (hiff : lost ↔ lost') : Outcome s t lost' :=
  propext hiff ▸ h

theorem creates_not_migrations : ∀ sql ∈ Conn.MIGRATIONS, sql ∉ Conn.CREATES := by decide

/-- Further statements, with the migrations unless they have been flagged. -/
theorem outcome_recorded (migrate : Bool) (p : Process) (base : List String) (present : ℕ) :
    Outcome (p, base) (⟨p.migrated || migrate⟩, base ++ recorded migrate p present) False := by
  have hcreates : ∀ sql ∈ Conn.MIGRATIONS,
      (sql ∈ base ++ if present < 2 then Conn.CREATES else []) ↔ sql ∈ base := by
    intro sql hsql
    have hnot := creates_not_migrations sql hsql
    split <;> simp [hnot]
  constructor
  · rintro (⟨hflag, hall⟩ | ⟨hflag, hnone⟩)
    · refine Or.inl ⟨Or.inl ⟨by simpa using Or.inl hflag, fun sql hsql => ?_⟩, not_false⟩
      exact List.mem_append_left _ (hall sql hsql)
    · simp only at hflag
      cases migrate with
      | true =>
        refine Or.inl ⟨Or.inl ⟨by simp, fun sql hsql => ?_⟩, not_false⟩
        simp [recorded, hflag, hsql]
      | false =>
        refine Or.inl ⟨Or.inr ⟨by simpa using hflag, fun sql hsql => ?_⟩, not_false⟩
        rw [recorded, Bool.false_and, if_neg Bool.false_ne_true, List.append_nil,
          hcreates sql hsql]
        exact hnone sql hsql
  · rintro ⟨hflag, hnot⟩
    simp only at hflag
    refine ⟨by simpa using Or.inl hflag, fun hall => hnot fun sql hsql => ?_⟩
    exact (hcreates sql hsql).mp (by simpa [recorded, hflag] using hall sql hsql)

/-- The flag alone. -/
theorem outcome_flagged (migrate : Bool) (p : Process) (base : List String) :
    Outcome (p, base) (⟨p.migrated || migrate⟩, base)
      (migrate = true ∧ p.migrated = false) := by
  constructor
  · rintro (⟨hflag, hall⟩ | ⟨hflag, hnone⟩)
    · simp only at hflag
      exact Or.inl ⟨Or.inl ⟨by simp [hflag], hall⟩, by simp [hflag]⟩
    · simp only at hflag
      cases migrate with
      | false => exact Or.inl ⟨Or.inr ⟨by simp [hflag], hnone⟩, by simp⟩
      | true =>
        refine Or.inr ⟨⟨by simp, fun hall => ?_⟩, rfl, hflag⟩
        have hfirst : Conn.MIGRATIONS.head (by decide) ∈ Conn.MIGRATIONS := List.head_mem _
        exact hnone _ hfirst (hall _ hfirst)
  · rintro ⟨hflag, hnot⟩
    simp only at hflag
    exact ⟨by simp [hflag], hnot⟩

/-! ## One call -/

variable (server) in
/-- The migrations are in the transaction, and its commit is not carried out. -/
def LosesMigrations (migrate : Bool) (l : Link (Database (Recorded κ)) Process) : Prop :=
  (migrate = true ∧ l.memory.migrated = false) ∧
    ∃ l', Client.run (prepareSchema server migrate) l = (.ok (), l') ∧
      ¬ l'.CarriedOut server.refuses

/-- Nothing is refused, and every message up to the commit has been decided. -/
theorem not_loses_of_fates {migrate : Bool} {l : Link (Database (Recorded κ)) Process}
    (hrefuses : ∀ d, server.refuses d = none)
    (h : (Client.run (prepareSchema server migrate) l).2.fates = []) :
    ¬ LosesMigrations server migrate l := by
  rintro ⟨_, l', hok, hlost⟩
  rw [hok] at h
  apply hlost
  rw [Link.CarriedOut, Link.fate, h]
  exact fun work _ => hrefuses work

variable (server) in
/-- **One call**, on a connection whose transaction has not altered the schema. -/
theorem ensureFlexOpsSchema_outcome (migrate : Bool) {base : List String}
    {l : Link (Database (Recorded κ)) Process} (h : Shows Database.record base base l) :
    let done := Client.run (ensureFlexOpsSchema server migrate) l
    (∀ work, done.2.txn ≠ .active work) ∧
      (done.1 = .ok () → migrate = true → done.2.memory.migrated = true) ∧
      Outcome (l.memory, base) (done.2.memory, Database.record done.2.db)
        (LosesMigrations server migrate l) := by
  have hprepare := triple_prepareSchema server migrate base l.memory
  unfold ensureFlexOpsSchema
  rw [run_bind]
  rcases hrun : Client.run (prepareSchema server migrate) l with ⟨f | _, l'⟩
  · obtain ⟨hkept, hmemory, hleft⟩ := hprepare.error ⟨h, rfl⟩ hrun
    have hnot : ¬ LosesMigrations server migrate l := by
      rintro ⟨_, _, hok, _⟩
      rw [hrun] at hok
      cases hok
    refine ⟨hleft, nofun, ?_⟩
    simp only
    rw [hkept, hmemory]
    exact (Outcome.refl _).congr (iff_of_false not_false hnot)
  · obtain ⟨present, hworking, hmemory⟩ := hprepare.ok ⟨h, rfl⟩ hrun
    obtain ⟨work, hwork⟩ := hworking.active
    have hrecord : work.record = base ++ recorded migrate l.memory present :=
      hworking.view work (by rw [Link.view, hwork])
    obtain ⟨hkept, hleft, hdb⟩ := commitUnless_outcome hwork server.refuses
    simp only
    refine ⟨hleft, fun _ hmigrate => by rw [hkept, hmemory, hmigrate, Bool.or_true], ?_⟩
    rw [hkept, hmemory]
    rcases hdb with ⟨hdb, hcarried⟩ | ⟨hdb, _, hnot⟩
    · have hnot : ¬ LosesMigrations server migrate l := by
        rintro ⟨_, l'', hok, hlost⟩
        rw [hrun] at hok
        cases hok
        exact hlost hcarried
      rw [hdb, hrecord]
      exact (outcome_recorded migrate l.memory base present).congr (iff_of_false not_false hnot)
    · rw [hdb, hworking.kept]
      refine (outcome_flagged migrate l.memory base).congr ?_
      exact ⟨fun hdue => ⟨hdue, l', hrun, hnot⟩, fun hloses => hloses.1⟩

/-! ## Calls through `WorkerDb.call` -/

def World.schema (w : World (Recorded κ)) : SchemaState := (w.process, w.db.record)

/-- There is no transaction on the worker's connection that could hold schema statements. -/
def Inactive (w : World (Recorded κ)) : Prop := ∀ work, w.conn ≠ some (.active work)

theorem Inactive.link {w : World (Recorded κ)} (h : Inactive w) {r : Round}
    {l : Link (Database (Recorded κ)) Process} (hl : w.link r = .ok l) :
    l.db = w.db ∧ l.memory = w.process ∧ Shows Database.record w.db.record w.db.record l := by
  unfold World.link at hl
  split at hl
  · split at hl
    · cases hl
    · cases hl
      exact ⟨rfl, rfl, Shows.inactive rfl nofun⟩
  · cases hl
    refine ⟨rfl, rfl, Shows.inactive rfl fun work hactive => ?_⟩
    cases hconn : w.conn with
    | none =>
      rw [hconn] at hactive
      cases hactive
    | some txn =>
      rw [hconn] at hactive
      exact h work (hconn.trans (congrArg some hactive))

variable (server) in
/-- The rounds of a call one after the other; the migrations are lost in one of them. -/
def LosesInRounds (migrate : Bool) (rounds : List (ℕ × Round)) (w : World (Recorded κ)) : Prop :=
  ¬ Along (retry fun _ => ensureFlexOpsSchema server migrate)
    (fun u x => ∀ l, u.link x.2 = .ok l → ¬ LosesMigrations server migrate l) w rounds

variable (server) in
/-- **One round.** -/
theorem attempt_outcome (migrate : Bool) (i : ℕ) (r : Round) {w : World (Recorded κ)}
    (h : Inactive w) :
    let done := attempt (fun _ => ensureFlexOpsSchema server migrate) i r w
    Inactive done.2 ∧
      (done.1 = .ok () → migrate = true → done.2.process.migrated = true) ∧
      Outcome w.schema done.2.schema
        (¬ ∀ l, w.link r = .ok l → ¬ LosesMigrations server migrate l) := by
  unfold attempt
  cases hl : w.link r with
  | error f =>
    have hkept : ¬ ¬ ∀ l, Except.error f = Except.ok l → ¬ LosesMigrations server migrate l := by
      rw [not_not]
      rintro l ⟨⟩
    refine ⟨h, by rintro ⟨⟩, ?_⟩
    show Outcome w.schema w.schema _
    exact (Outcome.refl _).congr (iff_of_false not_false hkept)
  | ok l =>
    obtain ⟨_, hmemory, hshows⟩ := h.link hl
    obtain ⟨hleft, hflag, hout⟩ := ensureFlexOpsSchema_outcome server migrate hshows
    refine ⟨fun work hconn => hleft work (Option.some.inj hconn), hflag, ?_⟩
    rw [hmemory] at hout
    refine hout.congr ⟨fun hloses hall => hall l rfl hloses, fun hnot => ?_⟩
    by_contra hkept
    refine hnot fun l' hl' => ?_
    cases hl'
    exact hkept

variable (server) in
/-- **All rounds of a call.** -/
theorem attempts_outcome (migrate : Bool) (rounds : List (ℕ × Round)) (last : String)
    {w : World (Recorded κ)} (h : Inactive w) :
    let done := attempts (fun _ => ensureFlexOpsSchema server migrate) rounds last w
    Inactive done.2 ∧
      (done.1 = .ok () → migrate = true → done.2.process.migrated = true) ∧
      Outcome w.schema done.2.schema (LosesInRounds server migrate rounds w) := by
  induction rounds generalizing w last with
  | nil => exact ⟨h, nofun, (Outcome.refl _).congr (iff_of_false not_false (not_not.mpr trivial))⟩
  | cons x rounds ih =>
    obtain ⟨i, r⟩ := x
    obtain ⟨hinactive, hflag, hout⟩ := attempt_outcome server migrate i r h
    cases hretry : retry (fun _ => ensureFlexOpsSchema server migrate) w (i, r) with
    | some u =>
      obtain ⟨last', hsame⟩ := @attempts_retry (Recorded κ) Unit _ i r rounds last w u hretry
      have hu : u = (attempt (fun _ => ensureFlexOpsSchema server migrate) i r w).2.drop :=
        retry_drop hretry
      have hdropped : Inactive u := by
        rw [hu]
        exact nofun
      obtain ⟨hinactive', hflag', hout'⟩ := ih last' hdropped
      rw [hsame]
      refine ⟨hinactive', hflag', ?_⟩
      have hschema : u.schema =
          (attempt (fun _ => ensureFlexOpsSchema server migrate) i r w).2.schema := by
        rw [hu]
        rfl
      rw [hschema] at hout'
      refine (hout.trans hout').congr ?_
      unfold LosesInRounds
      rw [← not_and_or]
      refine not_congr (and_congr_right fun _ => ⟨fun hrest v hv => ?_, fun hall => hall u hretry⟩)
      rw [hretry] at hv
      cases hv
      exact hrest
    | none =>
      rw [attempts_last hretry]
      refine ⟨hinactive, hflag, hout.congr (not_congr ⟨fun hall => ⟨hall, fun u hu => ?_⟩, ?_⟩)⟩
      · rw [hretry] at hu
        cases hu
      · exact fun halong => halong.1

/-! ## The process -/

/-- The transaction with this record. -/
def Txn.recorded (record : List String) : Txn (Database (Recorded κ)) → Txn (Database (Recorded κ))
  | .active work => .active { work with catalog := (work.catalog.1, record) }
  | txn => txn

/-- A call, or everything else that happens between two calls. -/
inductive SchemaEvent (κ : Type) where
  /-- On a connection of the caller, in whatever transaction the caller has begun. -/
  | direct (migrate : Bool) (txn : Txn (Database (Recorded κ))) (fates : List Fate)
  | worker (migrate : Bool) (rounds : ℕ → Round)
  | others (w : World (Recorded κ))

/-- The connection of a direct call. -/
def World.direct (w : World (Recorded κ)) (txn : Txn (Database (Recorded κ)))
    (fates : List Fate) : Link (Database (Recorded κ)) Process :=
  ⟨w.db, Txn.recorded w.db.record txn, w.process, fates⟩

/-- `self.conn` has an open transaction. -/
def World.inTransaction (w : World (Recorded κ)) : Bool :=
  match w.conn with
  | some (.active _) => true
  | _ => false

section Process
variable (server)

/-- Whatever others do, they are not this process: its flag and its record stay.  The other calls
of the worker leave no transaction on its connection. -/
def schemaStep (w : World (Recorded κ)) : SchemaEvent κ → Option (World (Recorded κ))
  | .direct migrate txn fates =>
    let done := Client.run (ensureFlexOpsSchema server migrate) (w.direct txn fates)
    some { w with db := done.2.db, process := done.2.memory }
  | .worker migrate rounds =>
    some (call (fun _ => ensureFlexOpsSchema server migrate) rounds w).2
  | .others w' =>
    if w'.inTransaction then none
    else some { w' with
      db := { w'.db with catalog := (w'.db.catalog.1, w.db.record) }
      process := w.process }

/-- A call with `migrate=True` that returns normally. -/
def ReturnsMigrated (w : World (Recorded κ)) : SchemaEvent κ → Prop
  | .direct migrate txn fates =>
    (Client.run (ensureFlexOpsSchema server migrate) (w.direct txn fates)).1 = .ok () ∧
      migrate = true
  | .worker migrate rounds =>
    (call (fun _ => ensureFlexOpsSchema server migrate) rounds w).1 = .ok () ∧ migrate = true
  | .others _ => False

/-- A call in which a commit that carries the migrations is undone. -/
def Loses (w : World (Recorded κ)) : SchemaEvent κ → Prop
  | .direct migrate txn fates => LosesMigrations server migrate (w.direct txn fates)
  | .worker migrate rounds => LosesInRounds server migrate (schedule rounds) w
  | .others _ => False

end Process

/-- **Step lemma.** -/
theorem schemaStep_outcome {w w' : World (Recorded κ)} {e : SchemaEvent κ} (h : Inactive w)
    (hstep : schemaStep server w e = some w') :
    Inactive w' ∧ (ReturnsMigrated server w e → w'.process.migrated = true) ∧
      Outcome w.schema w'.schema (Loses server w e) := by
  cases e with
  | direct migrate txn fates =>
    have hshows : Shows Database.record w.db.record w.db.record (w.direct txn fates) := by
      refine ⟨rfl, fun d hd => ?_⟩
      cases txn <;> cases hd <;> rfl
    obtain ⟨_, hflag, hout⟩ := ensureFlexOpsSchema_outcome server migrate hshows
    cases hstep
    exact ⟨h, fun hreturns => hflag hreturns.1 hreturns.2, hout⟩
  | worker migrate rounds =>
    obtain ⟨hinactive, hflag, hout⟩ := attempts_outcome server migrate (schedule rounds) "None" h
    cases hstep
    exact ⟨hinactive, fun hreturns => hflag hreturns.1 hreturns.2, hout⟩
  | others u =>
    simp only [schemaStep] at hstep
    split at hstep
    · cases hstep
    · rename_i hidle
      cases hstep
      refine ⟨fun work hconn => hidle ?_, False.elim, Outcome.refl _⟩
      simp only at hconn
      rw [World.inTransaction, hconn]

/-- **Run lemma.** -/
theorem exec_outcome {w w' : World (Recorded κ)} {events : List (SchemaEvent κ)} (h : Inactive w)
    (hexec : exec (schemaStep server) w events = some w') :
    Inactive w' ∧ Outcome w.schema w'.schema
      (¬ Along (schemaStep server) (fun u e => ¬ Loses server u e) w events) := by
  induction events generalizing w with
  | nil =>
    cases hexec
    exact ⟨h, (Outcome.refl _).congr (iff_of_false not_false (not_not.mpr trivial))⟩
  | cons e events ih =>
    obtain ⟨u, hstep, hrest⟩ := exec_cons.mp hexec
    obtain ⟨hinactive, _, hout⟩ := schemaStep_outcome h hstep
    obtain ⟨hend, hout'⟩ := ih hinactive hrest
    refine ⟨hend, (hout.trans hout').congr ?_⟩
    have hiff : Along (schemaStep server) (fun u e => ¬ Loses server u e) w (e :: events) ↔
        ¬ Loses server w e ∧ Along (schemaStep server) (fun u e => ¬ Loses server u e) u events := by
      refine and_congr_right fun _ => ⟨fun hall => hall u hstep, fun hall v hv => ?_⟩
      rw [hstep] at hv
      cases hv
      exact hall
    rw [hiff, not_and_or, not_not]

/-- A process that starts: no connection, and nothing of it is in the database. -/
def startedProcess (d : Database (Recorded κ)) : World (Recorded κ) where
  db := { d with catalog := (d.catalog.1, []) }
  conn := none
  reconnects := 0
  process := ⟨false⟩

/-- **Migrations are not skipped.**  However the calls of one process and whatever happens between
them follow one another: a call with `migrate=True` that returns normally leaves all migrations
executed and committed exactly when, up to its end, no commit that carried them was undone. -/
theorem migrated_iff {d : Database (Recorded κ)} {pre : List (SchemaEvent κ)} {e : SchemaEvent κ}
    {u v : World (Recorded κ)} (hu : exec (schemaStep server) (startedProcess d) pre = some u)
    (hv : schemaStep server u e = some v) (hreturns : ReturnsMigrated server u e) :
    Migrated v.db ↔
      Along (schemaStep server) (fun u e => ¬ Loses server u e) (startedProcess d) (pre ++ [e]) := by
  have hstart : Inactive (startedProcess d) := nofun
  have hfresh : Truthful (startedProcess d).schema := Or.inr ⟨rfl, fun _ _ => List.not_mem_nil⟩
  obtain ⟨hinactive, _⟩ := exec_outcome hstart hu
  obtain ⟨_, hflag, _⟩ := schemaStep_outcome hinactive hv
  have hexec : exec (schemaStep server) (startedProcess d) (pre ++ [e]) = some v :=
    exec_append.mpr ⟨u, hu, exec_cons.mpr ⟨v, hv, rfl⟩⟩
  have hset : v.process.migrated = true := hflag hreturns
  obtain ⟨_, hout⟩ := exec_outcome hstart hexec
  rcases hout.truthful hfresh with ⟨htruthful, hkept⟩ | ⟨hskipped, hlost⟩
  · refine iff_of_true ?_ (not_not.mp hkept)
    rcases htruthful with ⟨_, hall⟩ | ⟨hunset, _⟩
    · exact hall
    · rw [World.schema, hset] at hunset
      cases hunset
  · exact iff_of_false hskipped.2 hlost

end Schema

/-! ## A switchover at the start of the worker -/

/-- Nothing is rejected, and both queue tables are there. -/
def grantedServer : SchemaServer Unit where
  pg := ⟨fun _ _ => none, fun _ => 2, fun c _ => c⟩
  refuses := fun _ => none

/-- The worker before its first call. -/
def newWorker : World (Recorded Unit) := startedProcess ⟨JobTable.empty, none, ((), [])⟩

/-- Round 0 loses its connection after this many messages, and round 1 nothing. -/
def switchover (messages : ℕ) : ℕ → Round := fun i =>
  ⟨0, 0, if i = 0 then List.replicate messages .arrives ++
    [.lost "server closed the connection unexpectedly" false] else []⟩

/-- The third migration is lost; the next round executes and commits all of them. -/
theorem migrated_thirdLost :
    Migrated (call (fun _ => ensureFlexOpsSchema grantedServer true) (switchover 4)
      newWorker).2.db := by
  have hreturns : ReturnsMigrated grantedServer newWorker (.worker true (switchover 4)) :=
    ⟨by decide +kernel, rfl⟩
  refine (@migrated_iff _ _ _ [] _ _ _ rfl rfl hreturns).mpr ⟨not_not.mpr ⟨?_, ?_⟩, fun _ _ => trivial⟩
  · rintro l hl ⟨_, l', hok, _⟩
    cases hl
    have hraised : (Client.run (prepareSchema grantedServer true)
        ⟨newWorker.db, .idle, ⟨false⟩, (switchover 4 0).fates.tail⟩).1 ≠ .ok () := by
      decide +kernel
    exact hraised (congrArg Prod.fst hok)
  · intro u hu
    obtain rfl := retry_drop hu
    refine ⟨?_, fun v hv => ?_⟩
    · intro l hl
      cases hl
      exact not_loses_of_fates (fun _ => rfl) (List.isEmpty_iff.mp (by decide +kernel))
    · have hsome : _ = true := congrArg Option.isSome hv
      exact absurd hsome (by decide +kernel)

/-- The commit is lost; the next round finds the flag set, commits nothing and returns. -/
theorem migrations_skipped :
    ∃ v, schemaStep grantedServer newWorker (.worker true (switchover 13)) = some v ∧
      ReturnsMigrated grantedServer newWorker (.worker true (switchover 13)) ∧
      ¬ Migrated v.db := by
  refine ⟨_, rfl, ⟨by decide +kernel, rfl⟩, ?_⟩
  decide +kernel

end FlexQuery
