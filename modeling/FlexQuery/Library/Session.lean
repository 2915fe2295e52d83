import Mathlib

/-!
# Transactions over a connection that can be lost

A client sends statements to a database, each inside the transaction of its connection; the first
one after a commit or a rollback begins it.

* `Fate` — what becomes of a message: it arrives, or the connection is lost, and the server may
  have carried the message out all the same.
* `execute`, `commit`, `rollback` — the messages.  Once a statement has been rejected, every
  further one is, until a rollback.
* `firstRejection` — which of some statements, sent in order, is rejected.
* `Settles` — the connection is left without a transaction, or it is lost, unless a statement was
  rejected; the rules take a client apart message by message.
* `Triple`, `Shows` — what holds before and after a client, and the rules for a part of the database
  that stays as it is until the commit.
-/

set_option autoImplicit false

namespace Session

variable {δ μ ε ρ α β : Type}

/-- What becomes of a message. -/
inductive Fate where
  | arrives
  /-- The connection is lost; the answer is not received, whether or not there is one. -/
  | lost (text : String) (carriedOut : Bool)

/-- The transaction of a connection. -/
inductive Txn (δ : Type) where
  | idle
  /-- What the statements so far have made of the database. -/
  | active (work : δ)
  /-- A statement was rejected. -/
  | failed
  | closed

/-- Why a client stops. -/
inductive Fault (ε : Type) where
  | lost (text : String)
  /-- The transaction had failed before. -/
  | inFailed
  | raised (e : ε)
  deriving DecidableEq

/-- A connection with the database behind it, what the client keeps in its own memory, and the
fates of the messages to come; those after the last one arrive. -/
structure Link (δ μ : Type) where
  db : δ
  txn : Txn δ
  memory : μ
  fates : List Fate

/-- What a client does over a connection. -/
abbrev Client (δ μ ε α : Type) := ExceptT (Fault ε) (StateM (Link δ μ)) α

def Client.run (c : Client δ μ ε α) (l : Link δ μ) : Except (Fault ε) α × Link δ μ :=
  Id.run (StateT.run (ExceptT.run c) l)

/-! ## Messages -/

def Link.fate (l : Link δ μ) : Fate := l.fates.headD .arrives

/-- The transaction after one message. -/
def Link.sent (l : Link δ μ) (db : δ) (txn : Txn δ) : Link δ μ :=
  { l with db := db, txn := txn, fates := l.fates.tail }

/-- What a statement reads; none where it is not run. -/
def Link.view (l : Link δ μ) : Option δ :=
  match l.txn with
  | .idle => some l.db
  | .active work => some work
  | .failed => none
  | .closed => none

def ALREADY_CLOSED : String := "connection already closed"

/-- A statement: what it makes of the database and the rows it returns, or why it is rejected. -/
def execute (query : δ → Except ε (δ × ρ)) : Client δ μ ε ρ := fun l =>
  match l.txn, l.fate with
  | .closed, _ => (.error (.lost ALREADY_CLOSED), l)
  | _, .lost text _ => (.error (.lost text), l.sent l.db .closed)
  | .failed, .arrives => (.error .inFailed, l.sent l.db .failed)
  | .idle, .arrives =>
    match query l.db with
    | .error e => (.error (.raised e), l.sent l.db .failed)
    | .ok (work, rows) => (.ok rows, l.sent l.db (.active work))
  | .active work, .arrives =>
    match query work with
    | .error e => (.error (.raised e), l.sent l.db .failed)
    | .ok (work, rows) => (.ok rows, l.sent l.db (.active work))

/-- Without a transaction nothing is sent; a failed one is undone. -/
def commit : Client δ μ ε Unit := fun l =>
  match l.txn, l.fate with
  | .closed, _ => (.error (.lost ALREADY_CLOSED), l)
  | .idle, _ => (.ok (), l)
  | .failed, .lost text _ => (.error (.lost text), l.sent l.db .closed)
  | .failed, .arrives => (.ok (), l.sent l.db .idle)
  | .active work, .lost text carriedOut =>
    (.error (.lost text), l.sent (if carriedOut then work else l.db) .closed)
  | .active work, .arrives => (.ok (), l.sent work .idle)

def rollback : Client δ μ ε Unit := fun l =>
  match l.txn, l.fate with
  | .closed, _ => (.error (.lost ALREADY_CLOSED), l)
  | .idle, _ => (.ok (), l)
  | _, .lost text _ => (.error (.lost text), l.sent l.db .closed)
  | _, .arrives => (.ok (), l.sent l.db .idle)

/-- A commit that the server may refuse, with the transaction undone. -/
def commitUnless (refuses : δ → Option ε) : Client δ μ ε Unit := fun l =>
  match l.txn, l.fate with
  | .active work, .arrives =>
    match refuses work with
    | some e => (.error (.raised e), l.sent l.db .idle)
    | none => (.ok (), l.sent work .idle)
  | _, _ => commit l

/-- The client notes something for itself; nothing is sent. -/
def remember (f : μ → μ) : Client δ μ ε Unit := fun l =>
  (.ok (), { l with memory := f l.memory })

def remembered : Client δ μ ε μ := fun l => (.ok l.memory, l)

/-- Statements whose rows are not read, in order. -/
def executeAll : List (δ → Except ε δ) → Client δ μ ε Unit
  | [] => pure ()
  | q :: qs => do
    execute fun d => (q d).map fun work => (work, ())
    executeAll qs

/-! ## Running a client -/

theorem run_throw (f : Fault ε) (l : Link δ μ) :
    Client.run (throw f : Client δ μ ε α) l = (.error f, l) :=
  rfl

theorem run_bind (c : Client δ μ ε α) (k : α → Client δ μ ε β) (l : Link δ μ) :
    Client.run (c >>= k) l =
      match Client.run c l with
      | (.ok a, l) => Client.run (k a) l
      | (.error f, l) => (.error f, l) := by
  simp only [Client.run, bind, ExceptT.run, ExceptT.bind, ExceptT.mk, ExceptT.bindCont, StateT.run,
    StateT.bind, Id.run]
  rcases c l with ⟨_ | _, _⟩ <;> rfl

theorem run_tryCatch (c : Client δ μ ε α) (handler : Fault ε → Client δ μ ε α) (l : Link δ μ) :
    Client.run (tryCatch c handler) l =
      match Client.run c l with
      | (.ok a, l) => (.ok a, l)
      | (.error f, l) => Client.run (handler f) l := by
  simp only [Client.run, tryCatch, tryCatchThe, MonadExceptOf.tryCatch, ExceptT.tryCatch,
    ExceptT.run, ExceptT.mk, StateT.run, bind, StateT.bind, Id.run]
  rcases c l with ⟨_ | _, _⟩ <;> rfl

theorem run_remember (f : μ → μ) (l : Link δ μ) :
    Client.run (remember f : Client δ μ ε Unit) l = (.ok (), { l with memory := f l.memory }) :=
  rfl

theorem run_remembered (l : Link δ μ) :
    Client.run (remembered : Client δ μ ε μ) l = (.ok l.memory, l) :=
  rfl

section Messages
variable {l : Link δ μ}

theorem run_execute {d : δ} (h : l.view = some d) (query : δ → Except ε (δ × ρ)) :
    Client.run (execute query) l =
      match l.fate with
      | .lost text _ => (.error (.lost text), l.sent l.db .closed)
      | .arrives =>
        match query d with
        | .error e => (.error (.raised e), l.sent l.db .failed)
        | .ok (work, rows) => (.ok rows, l.sent l.db (.active work)) := by
  change execute query l = _
  unfold execute
  unfold Link.view at h
  cases htxn : l.txn <;> rw [htxn] at h <;> cases h <;> cases l.fate <;> rfl

/-- No statement is run in a failed transaction. -/
theorem run_execute_failed (h : l.txn = .failed) (query : δ → Except ε (δ × ρ)) :
    Client.run (execute query) l =
      match l.fate with
      | .lost text _ => (.error (.lost text), l.sent l.db .closed)
      | .arrives => (.error .inFailed, l.sent l.db .failed) := by
  change execute query l = _
  unfold execute
  rw [h]
  cases l.fate <;> rfl

theorem run_commit {work : δ} (h : l.txn = .active work) :
    Client.run (commit : Client δ μ ε Unit) l =
      match l.fate with
      | .lost text carriedOut =>
        (.error (.lost text), l.sent (if carriedOut then work else l.db) .closed)
      | .arrives => (.ok (), l.sent work .idle) := by
  change commit l = _
  unfold commit
  rw [h]
  cases l.fate <;> rfl

theorem run_commit_idle (h : l.txn = .idle) :
    Client.run (commit : Client δ μ ε Unit) l = (.ok (), l) := by
  change commit l = _
  unfold commit
  rw [h]

theorem run_commit_failed (h : l.txn = .failed) :
    Client.run (commit : Client δ μ ε Unit) l =
      match l.fate with
      | .lost text _ => (.error (.lost text), l.sent l.db .closed)
      | .arrives => (.ok (), l.sent l.db .idle) := by
  change commit l = _
  unfold commit
  rw [h]
  cases l.fate <;> rfl

theorem run_commit_closed (h : l.txn = .closed) :
    Client.run (commit : Client δ μ ε Unit) l = (.error (.lost ALREADY_CLOSED), l) := by
  change commit l = _
  unfold commit
  rw [h]

/-- The commit of a transaction is carried out, whether or not it is answered. -/
def Link.CarriedOut (refuses : δ → Option ε) (l : Link δ μ) : Prop :=
  match l.fate with
  | .lost _ carriedOut => carriedOut = true
  | .arrives => ∀ work, l.txn = .active work → refuses work = none

theorem commitUnless_none : (commitUnless (fun _ => none) : Client δ μ ε Unit) = commit := by
  funext l
  unfold commitUnless commit
  cases l.txn <;> cases l.fate <;> rfl

theorem run_commitUnless {work : δ} (h : l.txn = .active work) (refuses : δ → Option ε) :
    Client.run (commitUnless refuses : Client δ μ ε Unit) l =
      match l.fate with
      | .lost text carriedOut =>
        (.error (.lost text), l.sent (if carriedOut then work else l.db) .closed)
      | .arrives =>
        match refuses work with
        | some e => (.error (.raised e), l.sent l.db .idle)
        | none => (.ok (), l.sent work .idle) := by
  change commitUnless refuses l = _
  unfold commitUnless commit
  rw [h]
  cases l.fate <;> rfl

/-- Either the transaction is in the database, or it was not carried out and the commit raises. -/
theorem commitUnless_outcome {work : δ} (h : l.txn = .active work) (refuses : δ → Option ε) :
    let done := Client.run (commitUnless refuses : Client δ μ ε Unit) l
    done.2.memory = l.memory ∧ (∀ w, done.2.txn ≠ .active w) ∧
      (done.2.db = work ∧ l.CarriedOut refuses ∨
        done.2.db = l.db ∧ (∃ f, done.1 = .error f) ∧ ¬ l.CarriedOut refuses) := by
  rw [run_commitUnless h, Link.CarriedOut]
  cases l.fate with
  | lost text carriedOut =>
    cases carriedOut with
    | false => exact ⟨rfl, nofun, Or.inr ⟨rfl, ⟨_, rfl⟩, Bool.false_ne_true⟩⟩
    | true => exact ⟨rfl, nofun, Or.inl ⟨rfl, rfl⟩⟩
  | arrives =>
    cases hrefused : refuses work with
    | none =>
      refine ⟨rfl, nofun, Or.inl ⟨rfl, fun w hw => ?_⟩⟩
      rw [h] at hw
      cases hw
      exact hrefused
    | some e =>
      refine ⟨rfl, nofun, Or.inr ⟨rfl, ⟨_, rfl⟩, fun hnone => ?_⟩⟩
      rw [hnone work h] at hrefused
      cases hrefused

theorem run_rollback (h : (∃ work, l.txn = .active work) ∨ l.txn = .failed) :
    Client.run (rollback : Client δ μ ε Unit) l =
      match l.fate with
      | .lost text _ => (.error (.lost text), l.sent l.db .closed)
      | .arrives => (.ok (), l.sent l.db .idle) := by
  change rollback l = _
  unfold rollback
  rcases h with ⟨work, h⟩ | h <;> rw [h] <;> cases l.fate <;> rfl

theorem run_rollback_idle (h : l.txn = .idle) :
    Client.run (rollback : Client δ μ ε Unit) l = (.ok (), l) := by
  change rollback l = _
  unfold rollback
  rw [h]

theorem run_rollback_closed (h : l.txn = .closed) :
    Client.run (rollback : Client δ μ ε Unit) l = (.error (.lost ALREADY_CLOSED), l) := by
  change rollback l = _
  unfold rollback
  rw [h]

end Messages

/-! ## How a client leaves the connection -/

/-- Sent in order until a message is lost, the first of the statements that is rejected. -/
def firstRejection : List (δ → Except ε δ) → δ → List Fate → Option ε
  | [], _, _ => none
  | q :: qs, d, fates =>
    match fates.headD .arrives with
    | .lost .. => none
    | .arrives =>
      match q d with
      | .error e => some e
      | .ok work => firstRejection qs work fates.tail

/-- Either the statement was rejected and the transaction has failed, or there is no transaction
on the connection and no statement met a failed one, or there is no connection. -/
def Settles (rejection : Option ε) (x : Except (Fault ε) α × Link δ μ) : Prop :=
  match rejection with
  | some e => x.1 = .error (.raised e) ∧ x.2.txn = .failed
  | none => (x.2.txn = .idle ∧ x.1 ≠ .error .inFailed) ∨ ∃ text, x.1 = .error (.lost text)

section Rules
variable {l : Link δ μ}

theorem settles_pure {a : α} (h : l.txn = .idle) :
    Settles none (Client.run (pure a : Client δ μ ε α) l) :=
  Or.inl ⟨h, nofun⟩

theorem settles_throw {f : Fault ε} (h : l.txn = .idle) (hf : f ≠ .inFailed) :
    Settles none (Client.run (throw f : Client δ μ ε α) l) := by
  refine Or.inl ⟨h, ?_⟩
  rw [run_throw]
  rintro ⟨⟩
  exact hf rfl

/-- Another value in place of the one returned. -/
theorem settles_map {rejection : Option ε} {c : Client δ μ ε α} (g : α → β)
    (h : Settles rejection (Client.run c l)) :
    Settles rejection (Client.run (c >>= fun a => pure (g a)) l) := by
  rw [run_bind]
  rcases hx : Client.run c l with ⟨f | a, l'⟩ <;> rw [hx] at h
  · cases rejection with
    | none =>
      rcases h with ⟨hidle, hne⟩ | ⟨text, htext⟩
      · exact Or.inl ⟨hidle, fun hf => hne (congrArg Except.error (Except.error.inj hf))⟩
      · exact Or.inr ⟨text, congrArg Except.error (Except.error.inj htext)⟩
    | some e => exact ⟨congrArg Except.error (Except.error.inj h.1), h.2⟩
  · cases rejection with
    | none =>
      rcases h with ⟨hidle, _⟩ | ⟨_, htext⟩
      · exact settles_pure hidle
      · cases htext
    | some e => cases h.1

/-- One client after another that leaves no transaction. -/
theorem settles_bind {c : Client δ μ ε α} {k : α → Client δ μ ε β}
    (h : Settles none (Client.run c l))
    (hk : ∀ a l', l'.txn = .idle → Settles none (Client.run (k a) l')) :
    Settles none (Client.run (c >>= k) l) := by
  rw [run_bind]
  rcases hx : Client.run c l with ⟨f | a, l'⟩ <;> rw [hx] at h
  · rcases h with ⟨hidle, hne⟩ | ⟨text, htext⟩
    · exact Or.inl ⟨hidle, fun hf => hne (congrArg Except.error (Except.error.inj hf))⟩
    · exact Or.inr ⟨text, congrArg Except.error (Except.error.inj htext)⟩
  · rcases h with ⟨hidle, _⟩ | ⟨_, htext⟩
    · exact hk a l' hidle
    · cases htext

theorem settles_execute {d : δ} {query : δ → Except ε (δ × ρ)} {q : δ → Except ε δ}
    {qs : List (δ → Except ε δ)} {k : ρ → Client δ μ ε α} (hview : l.view = some d)
    (hq : q d = (query d).map Prod.fst)
    (hk : ∀ work rows, query d = .ok (work, rows) →
      Settles (firstRejection qs work l.fates.tail)
        (Client.run (k rows) (l.sent l.db (.active work)))) :
    Settles (firstRejection (q :: qs) d l.fates) (Client.run (execute query >>= k) l) := by
  rw [run_bind, run_execute hview, firstRejection, ← Link.fate, hq]
  cases l.fate with
  | lost text carriedOut => exact Or.inr ⟨text, rfl⟩
  | arrives =>
    cases hquery : query d with
    | error e => exact ⟨rfl, rfl⟩
    | ok x => exact hk x.1 x.2 hquery

theorem settles_commit {d : δ} {k : Client δ μ ε α} (hview : l.view = some d)
    (hk : ∀ l', l'.txn = .idle → Settles none (Client.run k l')) :
    Settles none (Client.run (commit >>= fun _ => k) l) := by
  unfold Link.view at hview
  cases htxn : l.txn <;> rw [htxn] at hview <;> cases hview
  · rw [run_bind, run_commit_idle htxn]
    exact hk l htxn
  · rw [run_bind, run_commit htxn]
    cases l.fate with
    | lost text carriedOut => exact Or.inr ⟨text, rfl⟩
    | arrives => exact hk _ rfl

theorem settles_rollback {k : Client δ μ ε α}
    (h : (∃ work, l.txn = .active work) ∨ l.txn = .failed)
    (hk : Settles none (Client.run k (l.sent l.db .idle))) :
    Settles none (Client.run (rollback >>= fun _ => k) l) := by
  rw [run_bind, run_rollback h]
  cases l.fate with
  | lost text carriedOut => exact Or.inr ⟨text, rfl⟩
  | arrives => exact hk

theorem settles_executeAll {qs rest : List (δ → Except ε δ)} {k : Client δ μ ε α} {d : δ}
    (hview : l.view = some d)
    (hk : ∀ l' d', l'.view = some d' → l'.memory = l.memory →
      Settles (firstRejection rest d' l'.fates) (Client.run k l')) :
    Settles (firstRejection (qs ++ rest) d l.fates)
      (Client.run (executeAll qs >>= fun _ => k) l) := by
  induction qs generalizing l d with
  | nil => exact hk l d hview rfl
  | cons q qs ih =>
    rw [executeAll, bind_assoc, List.cons_append]
    refine settles_execute hview ?_ fun work rows _ => ?_
    · cases q d <;> rfl
    · exact ih (l := l.sent l.db (.active work)) rfl hk

/-- A statement with its commit, undone when either fails. -/
theorem settles_guarded {query : δ → Except ε (δ × ρ)} (h : l.txn = .idle) :
    Settles none (Client.run (tryCatch (do let rows ← execute query; commit; pure rows)
      fun f => do rollback; throw f : Client δ μ ε ρ) l) := by
  rw [run_tryCatch, run_bind, run_execute (show l.view = some l.db by rw [Link.view, h])]
  cases hfate : l.fate with
  | lost text carriedOut =>
    simp only
    rw [run_bind, run_rollback_closed rfl]
    exact Or.inr ⟨_, rfl⟩
  | arrives =>
    simp only
    cases query l.db with
    | error e => exact settles_rollback (Or.inr rfl) (settles_throw rfl nofun)
    | ok x =>
      simp only
      rw [run_bind, run_commit rfl]
      cases (l.sent l.db (.active x.1)).fate with
      | lost text carriedOut =>
        simp only
        rw [run_bind, run_rollback_closed rfl]
        exact Or.inr ⟨_, rfl⟩
      | arrives => exact Or.inl ⟨rfl, nofun⟩

end Rules

/-! ## Triples -/

/-- From a link with `P` the client returns and leaves `Q`, or stops and leaves `E`. -/
def Triple (P : Link δ μ → Prop) (c : Client δ μ ε α) (Q : α → Link δ μ → Prop)
    (E : Fault ε → Link δ μ → Prop) : Prop :=
  ∀ l, P l →
    match Client.run c l with
    | (.ok a, l) => Q a l
    | (.error f, l) => E f l

section TripleRules
variable {P : Link δ μ → Prop} {c : Client δ μ ε α} {Q : α → Link δ μ → Prop}
  {E : Fault ε → Link δ μ → Prop}

theorem Triple.ok (h : Triple P c Q E) {l l' : Link δ μ} {a : α} (hl : P l)
    (hrun : Client.run c l = (.ok a, l')) : Q a l' := by
  have := h l hl
  rwa [hrun] at this

theorem Triple.error (h : Triple P c Q E) {l l' : Link δ μ} {f : Fault ε} (hl : P l)
    (hrun : Client.run c l = (.error f, l')) : E f l' := by
  have := h l hl
  rwa [hrun] at this

theorem Triple.weaken {P' : Link δ μ → Prop} {Q' : α → Link δ μ → Prop} (h : Triple P c Q E)
    (hpre : ∀ l, P' l → P l) (hpost : ∀ a l, Q a l → Q' a l) : Triple P' c Q' E := by
  intro l hl
  rcases hrun : Client.run c l with ⟨f | a, l'⟩
  · exact h.error (hpre l hl) hrun
  · exact hpost a l' (h.ok (hpre l hl) hrun)

/-- A fact that is not about the link. -/
theorem triple_frame {φ : Prop} (h : φ → Triple P c Q E) :
    Triple (fun l => P l ∧ φ) c (fun a l => Q a l ∧ φ) E := by
  rintro l ⟨hl, hφ⟩
  rcases hrun : Client.run c l with ⟨f | a, l'⟩
  · exact (h hφ).error hl hrun
  · exact ⟨(h hφ).ok hl hrun, hφ⟩

theorem triple_pure {a : α} (h : ∀ l, P l → Q a l) : Triple P (pure a : Client δ μ ε α) Q E := h

theorem triple_bind {R : β → Link δ μ → Prop} {k : α → Client δ μ ε β} (hc : Triple P c Q E)
    (hk : ∀ a, Triple (Q a) (k a) R E) : Triple P (c >>= k) R E := by
  intro l hl
  rw [run_bind]
  rcases hrun : Client.run c l with ⟨f | a, l'⟩
  · exact hc.error hl hrun
  · exact hk a l' (hc.ok hl hrun)

theorem triple_tryCatch {E' : Fault ε → Link δ μ → Prop} {handler : Fault ε → Client δ μ ε α}
    (hc : Triple P c Q E') (hh : ∀ f, Triple (E' f) (handler f) Q E) :
    Triple P (tryCatch c handler) Q E := by
  intro l hl
  rw [run_tryCatch]
  rcases hrun : Client.run c l with ⟨f | a, l'⟩
  · exact hh f l' (hc.error hl hrun)
  · exact hc.ok hl hrun

theorem triple_remember {Q : Unit → Link δ μ → Prop} {f : μ → μ}
    (h : ∀ l, P l → Q () { l with memory := f l.memory }) :
    Triple P (remember f : Client δ μ ε Unit) Q E := h

theorem triple_remembered {Q : μ → Link δ μ → Prop} (h : ∀ l, P l → Q l.memory l) :
    Triple P (remembered : Client δ μ ε μ) Q E := h

/-- A client that only sends messages: its memory stays, and it leaves no transaction when it
stops. -/
def Silent (c : Client δ μ ε α) : Prop :=
  ∀ l, (Client.run c l).2.memory = l.memory ∧
    ∀ f, (Client.run c l).1 = .error f → ∀ work, (Client.run c l).2.txn ≠ .active work

theorem silent_pure (a : α) : Silent (pure a : Client δ μ ε α) := fun _ => ⟨rfl, nofun⟩

theorem silent_bind {k : α → Client δ μ ε β} (hc : Silent c) (hk : ∀ a, Silent (k a)) :
    Silent (c >>= k) := by
  intro l
  have hfirst := hc l
  rw [run_bind]
  rcases hrun : Client.run c l with ⟨f | a, l'⟩ <;> rw [hrun] at hfirst
  · exact ⟨hfirst.1, fun _ _ => hfirst.2 f rfl⟩
  · exact ⟨(hk a l').1.trans hfirst.1, (hk a l').2⟩

theorem silent_execute (query : δ → Except ε (δ × ρ)) :
    Silent (execute query : Client δ μ ε ρ) := by
  intro l
  change (execute query l).2.memory = l.memory ∧
    ∀ f, (execute query l).1 = .error f → ∀ work, (execute query l).2.txn ≠ .active work
  unfold execute
  split
  · rename_i hclosed
    exact ⟨rfl, fun _ _ work hactive => by rw [hclosed] at hactive; cases hactive⟩
  · exact ⟨rfl, fun _ _ => nofun⟩
  · exact ⟨rfl, fun _ _ => nofun⟩
  · split
    · exact ⟨rfl, fun _ _ => nofun⟩
    · exact ⟨rfl, nofun⟩
  · split
    · exact ⟨rfl, fun _ _ => nofun⟩
    · exact ⟨rfl, nofun⟩

theorem silent_executeAll (qs : List (δ → Except ε δ)) :
    Silent (executeAll qs : Client δ μ ε Unit) := by
  induction qs with
  | nil => exact silent_pure ()
  | cons q qs ih => exact silent_bind (silent_execute _) fun _ => ih

/-- What a silent client keeps. -/
theorem Silent.triple {m : μ} (hc : Silent c) (h : Triple P c Q E) :
    Triple (fun l => P l ∧ l.memory = m) c (fun a l => Q a l ∧ l.memory = m)
      fun f l => E f l ∧ l.memory = m ∧ ∀ work, l.txn ≠ .active work := by
  rintro l ⟨hl, hmemory⟩
  obtain ⟨hkept, hleft⟩ := hc l
  rcases hrun : Client.run c l with ⟨f | a, l'⟩ <;> rw [hrun] at hkept hleft
  · exact ⟨h.error hl hrun, hkept.trans hmemory, hleft f rfl⟩
  · exact ⟨h.ok hl hrun, hkept.trans hmemory⟩

end TripleRules

/-! ## What is kept until the commit -/

section Shows
variable {τ : Type} (see : δ → τ)

/-- The database shows `base`, and the next statement, if it can be run, is shown `t`. -/
structure Shows (base t : τ) (l : Link δ μ) : Prop where
  kept : see l.db = base
  view : ∀ d, l.view = some d → see d = t

/-- The same inside a transaction. -/
structure Working (base t : τ) (l : Link δ μ) : Prop extends Shows see base t l where
  active : ∃ work, l.txn = .active work

/-- The database shows `base`. -/
def Keeps (base : τ) : Fault ε → Link δ μ → Prop := fun _ l => see l.db = base

variable {see} {base t : τ} {l : Link δ μ}

theorem Shows.idle (hkept : see l.db = base) (h : l.txn = .idle) : Shows see base base l where
  kept := hkept
  view := by
    intro d hd
    rw [Link.view, h] at hd
    cases hd
    exact hkept

/-- Without a transaction the next statement is shown the database. -/
theorem Shows.inactive (hkept : see l.db = base) (h : ∀ work, l.txn ≠ .active work) :
    Shows see base base l where
  kept := hkept
  view := by
    intro d hd
    unfold Link.view at hd
    cases htxn : l.txn <;> rw [htxn] at hd <;> cases hd
    · exact hkept
    · exact absurd htxn (h _)

theorem Shows.closed (hkept : see l.db = base) (h : l.txn = .closed) : Shows see base t l where
  kept := hkept
  view := by
    intro d hd
    rw [Link.view, h] at hd
    cases hd

/-- What the client keeps for itself is not shown. -/
theorem Working.remember (h : Working see base t l) (m : μ) :
    Working see base t { l with memory := m } :=
  ⟨⟨h.kept, h.view⟩, h.active⟩

theorem shows_execute {t' : τ} {R : ρ → Prop} {query : δ → Except ε (δ × ρ)}
    (h : ∀ d work rows, see d = t → query d = .ok (work, rows) → see work = t' ∧ R rows) :
    Triple (Shows see base t) (execute query : Client δ μ ε ρ)
      (fun rows l => Working see base t' l ∧ R rows) (Keeps see base) := by
  rintro l ⟨hkept, hview⟩
  cases hv : l.view with
  | some d =>
    rw [run_execute hv]
    cases l.fate with
    | lost text carriedOut => exact hkept
    | arrives =>
      simp only
      cases hquery : query d with
      | error e => exact hkept
      | ok x =>
        obtain ⟨hsee, hrows⟩ := h d x.1 x.2 (hview d hv) hquery
        refine ⟨⟨⟨hkept, ?_⟩, x.1, rfl⟩, hrows⟩
        intro d' hd'
        cases hd'
        exact hsee
  | none =>
    unfold Link.view at hv
    cases htxn : l.txn <;> rw [htxn] at hv <;> cases hv
    · rw [run_execute_failed htxn]
      cases l.fate <;> exact hkept
    · change match execute query l with
        | (.ok rows, l) => Working see base t' l ∧ R rows
        | (.error _, l) => see l.db = base
      unfold execute
      rw [htxn]
      exact hkept

/-- A statement whose rows are not read. -/
theorem shows_statement {q : δ → Except ε δ} {g : τ → τ}
    (h : ∀ d work, q d = .ok work → see work = g (see d)) :
    Triple (Shows see base t)
      (execute fun d => (q d).map fun work => (work, ()) : Client δ μ ε Unit)
      (fun _ => Working see base (g t)) (Keeps see base) := by
  have hsee : ∀ d work (rows : Unit), see d = t →
      ((q d).map fun work => (work, ())) = .ok (work, rows) → see work = g t ∧ True := by
    intro d work rows hd hq
    cases hx : q d with
    | error e =>
      rw [hx] at hq
      cases hq
    | ok w =>
      rw [hx] at hq
      cases hq
      exact ⟨hd ▸ h d _ hx, trivial⟩
  exact (shows_execute hsee).weaken (fun _ hl => hl) fun _ _ hl => hl.1

section Statements
variable {ξ : Type} {q : ξ → δ → Except ε δ} {g : ξ → τ → τ}

/-- The first of some statements begins the transaction. -/
theorem shows_executeAll_cons (h : ∀ x d work, q x d = .ok work → see work = g x (see d))
    (x : ξ) (xs : List ξ) :
    Triple (Shows see base t) (executeAll ((x :: xs).map q) : Client δ μ ε Unit)
      (fun _ => Working see base ((x :: xs).foldl (fun t x => g x t) t)) (Keeps see base) := by
  induction xs generalizing x t with
  | nil => exact triple_bind (shows_statement (h x)) fun _ => triple_pure fun _ hl => hl
  | cons y ys ih =>
    refine triple_bind (shows_statement (h x)) fun _ => ?_
    exact (ih y).weaken (fun _ hl => hl.toShows) fun _ _ hl => hl

theorem working_executeAll (h : ∀ x d work, q x d = .ok work → see work = g x (see d))
    (xs : List ξ) :
    Triple (Working see base t) (executeAll (xs.map q) : Client δ μ ε Unit)
      (fun _ => Working see base (xs.foldl (fun t x => g x t) t)) (Keeps see base) := by
  cases xs with
  | nil => exact triple_pure fun _ hl => hl
  | cons x xs =>
    exact (shows_executeAll_cons h x xs).weaken (fun _ hl => hl.toShows) fun _ _ hl => hl

theorem shows_executeAll (h : ∀ x d work, q x d = .ok work → see work = g x (see d))
    (xs : List ξ) :
    Triple (Shows see base t) (executeAll (xs.map q) : Client δ μ ε Unit)
      (fun _ => Shows see base (xs.foldl (fun t x => g x t) t)) (Keeps see base) := by
  cases xs with
  | nil => exact triple_pure fun _ hl => hl
  | cons x xs =>
    exact (shows_executeAll_cons h x xs).weaken (fun _ hl => hl) fun _ _ hl => hl.toShows

end Statements

/-- A commit of what is there already. -/
theorem shows_commit :
    Triple (Shows see base base) (commit : Client δ μ ε Unit)
      (fun _ => Shows see base base) (Keeps see base) := by
  rintro l ⟨hkept, hview⟩
  cases htxn : l.txn with
  | idle =>
    rw [run_commit_idle htxn]
    exact ⟨hkept, hview⟩
  | closed =>
    rw [run_commit_closed htxn]
    exact hkept
  | failed =>
    rw [run_commit_failed htxn]
    cases l.fate with
    | lost text carriedOut => exact hkept
    | arrives => exact Shows.idle hkept rfl
  | active work =>
    have hwork : see work = base := hview work (by rw [Link.view, htxn])
    rw [run_commit htxn]
    cases l.fate with
    | lost text carriedOut => cases carriedOut <;> [exact hkept; exact hwork]
    | arrives => exact Shows.idle hwork rfl

/-- A rollback, whether or not it is answered. -/
theorem shows_rollback :
    Triple (fun l => see l.db = base) (rollback : Client δ μ ε Unit)
      (fun _ => Shows see base base) (fun _ => Shows see base base) := by
  intro l hkept
  cases htxn : l.txn with
  | idle =>
    rw [run_rollback_idle htxn]
    exact Shows.idle hkept htxn
  | closed =>
    rw [run_rollback_closed htxn]
    exact Shows.closed hkept htxn
  | failed =>
    rw [run_rollback (Or.inr htxn)]
    cases l.fate with
    | lost text carriedOut => exact Shows.closed hkept rfl
    | arrives => exact Shows.idle hkept rfl
  | active work =>
    rw [run_rollback (Or.inl ⟨work, htxn⟩)]
    cases l.fate with
    | lost text carriedOut => exact Shows.closed hkept rfl
    | arrives => exact Shows.idle hkept rfl

end Shows

end Session
