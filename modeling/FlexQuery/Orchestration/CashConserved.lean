import FlexQuery.Worker.Done

/-!
# What becomes of the cash transactions of a report

Between the reports that IB answers with and the counts that a flex-transactions run returns.

* `reportBodies`, `breaks` — the reports among the answers, and the answers that end the run.
* `cashElements` — the `CashTransaction` elements of the reports.
* `Readable` — `parse_cash_transactions_xml` makes a row of the element.
* `cash_conserved_iff` — every element is counted as written or skipped exactly when all of them are
  readable and no answer ends the run, or when there is none.
-/

set_option autoImplicit false

namespace FlexQuery

open Visit

/-! ## The answers -/

section Answers
variable (flex : FlexService)

/-- The generated report of a GetStatement. -/
def reportBody : HttpRequest × HttpAnswer → Option String
  | (.getStatement .., .body body) =>
    if (statementNotReady flex body).isNone then some body else none
  | _ => none

/-- The reports of a part of the wire. -/
def reportBodies (part : Wire) : List String := part.filterMap (reportBody flex)

/-- An answer that makes the client raise something other than a `ValueError`. -/
def breaks : HttpRequest × HttpAnswer → Bool
  | (_, .raised _ _) => true
  | (.sendRequest .., .body body) =>
    match flex.fromstring body with
    | .error _ => true
    | .ok _ => false
  | _ => false

variable {flex}

def PyExc.isOther : PyExc → Bool
  | .valueError _ => false
  | .other _ _ => true

/-- It is not a `ValueError`. -/
def escapes {α : Type} : Except PyExc α → Bool
  | .ok _ => false
  | .error e => e.isOther

variable (flex) in
/-- The answers hold the one report that a fetch returns, and one of them breaks it off exactly when
it escapes. -/
def Delivers (part : Wire) (body : Except PyExc String) : Prop :=
  reportBodies flex part = body.toOption.toList ∧ part.any (breaks flex) = escapes body

theorem Delivers.cons {x : HttpRequest × HttpAnswer} {part : Wire} {body : Except PyExc String}
    (hbody : reportBody flex x = none) (hbreaks : breaks flex x = false)
    (h : Delivers flex part body) : Delivers flex (x :: part) body := by
  constructor
  · rw [← h.1, reportBodies, List.filterMap_cons_none hbody, reportBodies]
  · rw [List.any_cons, hbreaks, Bool.false_or]
    exact h.2

theorem pollStatement_delivers (t q : String) (n : ℕ) (last : Option String) (w : Wire) :
    ∃ polls, (pollStatement flex (.getStatement t q) n last w).2 = w ++ polls ∧
      Delivers flex polls (pollStatement flex (.getStatement t q) n last w).1 := by
  induction n generalizing last w with
  | zero => exact ⟨[], (List.append_nil w).symm, rfl, rfl⟩
  | succ n ih =>
    have hagain : ∀ last', reportBody flex (.getStatement t q, flex.answer w (.getStatement t q)) =
        none → breaks flex (.getStatement t q, flex.answer w (.getStatement t q)) = false →
        ∃ polls, (pollStatement flex (.getStatement t q) n last'
            (flex.send w (.getStatement t q)).2).2 = w ++ polls ∧
          Delivers flex polls (pollStatement flex (.getStatement t q) n last'
            (flex.send w (.getStatement t q)).2).1 := by
      intro last' hbody hbreaks
      obtain ⟨polls, hpolls, hdelivers⟩ := ih last' (flex.send w (.getStatement t q)).2
      refine ⟨(.getStatement t q, flex.answer w (.getStatement t q)) :: polls, ?_,
        hdelivers.cons hbody hbreaks⟩
      rw [hpolls, FlexService.send, List.append_assoc]
      rfl
    simp only [pollStatement, FlexService.send] at hagain ⊢
    cases hans : flex.answer w (.getStatement t q) with
    | httpError text =>
      rw [hans] at hagain
      exact hagain _ rfl rfl
    | raised cls msg => exact ⟨[_], rfl, rfl, rfl⟩
    | body body =>
      rw [hans] at hagain
      simp only
      cases hready : statementNotReady flex body with
      | none => exact ⟨[_], rfl, by simp [reportBodies, reportBody, hready, Except.toOption], rfl⟩
      | some why => exact hagain _ (by simp [reportBody, hready]) rfl

/-! ## A fetch -/

theorem strptimeYmd_error {s : String} {e : PyExc} (h : strptimeYmd s = .error e) :
    e.isOther = false := by
  unfold strptimeYmd at h
  split at h
  · cases h
    rfl
  · split at h
    · cases h
      rfl
    · unfold Date.ofCivil at h
      split at h
      · cases h
      · cases h
        rfl
    · cases h
      rfl

theorem checkSpan_error {fromDate toDate : String} {e : PyExc}
    (h : checkSpan fromDate toDate = .error e) : e.isOther = false := by
  have hreword : ∀ e, e.isOther = false → (checkSpan.reword e).isOther = false := by
    intro e he
    cases e with
    | other cls msg => cases he
    | valueError msg =>
      simp only [checkSpan.reword]
      split <;> rfl
  unfold checkSpan at h
  split at h
  · split at h
    · cases h
      rfl
    · cases h
  · rename_i hread
    cases h
    exact hreword _ (strptimeYmd_error hread)
  · rename_i hread
    cases h
    exact hreword _ (strptimeYmd_error hread)

/-- What is refused locally is a `ValueError`. -/
theorem reportRequest_error {t q : String} {fromDate toDate : Option String} {period : Option ℤ}
    {e : PyExc} (h : reportRequest t q fromDate toDate period = .error e) : e.isOther = false := by
  unfold reportRequest at h
  split at h
  · cases h
  · split at h
    · split at h
      · rename_i hspan
        cases h
        exact checkSpan_error hspan
      · cases h
    · split at h
      · cases h
        rfl
      · cases h

variable (flex) in
/-- A fetch without its parser. -/
def fetchBody (t q : String) (fromDate toDate : Option String) (period : Option ℤ) (w : Wire) :
    Except PyExc String × Wire :=
  match requestReport flex t q fromDate toDate period w with
  | (.error e, w') => (.error e, w')
  | (.ok ref, w') => getStatement flex t ref w'

theorem fetchReport_body {ρ : Type} (parse : String → Except PyExc (List ρ)) (t q : String)
    (fromDate toDate : Option String) (period : Option ℤ) (w : Wire) :
    fetchReport flex parse t q fromDate toDate period w =
      ((fetchBody flex t q fromDate toDate period w).1.bind parse,
        (fetchBody flex t q fromDate toDate period w).2) := by
  unfold fetchReport fetchBody
  rcases requestReport flex t q fromDate toDate period w with ⟨e | ref, w'⟩
  · rfl
  · simp only
    rcases getStatement flex t ref w' with ⟨e | body, w''⟩ <;> rfl

theorem fetchBody_delivers (t q : String) (fromDate toDate : Option String) (period : Option ℤ)
    (w : Wire) :
    ∃ part, (fetchBody flex t q fromDate toDate period w).2 = w ++ part ∧
      Delivers flex part (fetchBody flex t q fromDate toDate period w).1 := by
  unfold fetchBody requestReport
  cases hreq : reportRequest t q fromDate toDate period with
  | error e => exact ⟨[], (List.append_nil w).symm, rfl, (reportRequest_error hreq).symm⟩
  | ok req =>
    obtain ⟨p, dates, rfl⟩ := reportRequest_ok hreq
    simp only [FlexService.send]
    have hbreaks : breaks flex (.sendRequest t q p dates, flex.answer w (.sendRequest t q p dates)) =
        escapes (readReference flex (flex.answer w (.sendRequest t q p dates))) := by
      cases flex.answer w (.sendRequest t q p dates) with
      | httpError text => rfl
      | raised cls msg => rfl
      | body body =>
        simp only [breaks, readReference]
        cases flex.fromstring body with
        | error e => rfl
        | ok root =>
          simp only
          split
          · rfl
          · split <;> rfl
    cases href : readReference flex (flex.answer w (.sendRequest t q p dates)) with
    | error e =>
      rw [href] at hbreaks
      exact ⟨[_], rfl, rfl, by simp [hbreaks]⟩
    | ok ref =>
      rw [href] at hbreaks
      obtain ⟨polls, hpolls, hdelivers⟩ := @pollStatement_delivers flex t ref
        MAX_GET_STATEMENT_POLLS none
        (w ++ [(.sendRequest t q p dates, flex.answer w (.sendRequest t q p dates))])
      refine ⟨(.sendRequest t q p dates, flex.answer w (.sendRequest t q p dates)) :: polls, ?_,
        hdelivers.cons rfl hbreaks⟩
      rw [List.append_assoc] at hpolls
      exact hpolls

end Answers

/-! ## A turn -/

section Turns
variable (d : Deployment)

/-- The rows of a report. -/
def Deployment.cashRowsOf (body : String) : List CashRow :=
  (parseCashTransactionsXml d.flex body).map FlexCash.toRow

/-- The answers of a turn hold the report whose rows it returns, if it does, and one of them breaks
it off exactly when it escapes. -/
def TurnDelivers (part : Wire) (o : Outcome (List CashRow) PyExc) : Prop :=
  (reportBodies d.flex part).flatMap d.cashRowsOf = o.ok?.getD [] ∧
    part.any (breaks d.flex) = o.escaped?.isSome

variable {d}

theorem Delivers.ok {part : Wire} {body : String} (h : Delivers d.flex part (.ok body)) :
    TurnDelivers d part (.ok (d.cashRowsOf body)) := by
  refine ⟨?_, h.2⟩
  rw [h.1]
  exact List.append_nil _

theorem Delivers.failed {part : Wire} {e text : String}
    (h : Delivers d.flex part (.error (.valueError e))) : TurnDelivers d part (.failed text) := by
  refine ⟨?_, h.2⟩
  rw [h.1]
  rfl

theorem Delivers.escaped {part : Wire} {cls msg : String}
    (h : Delivers d.flex part (.error (.other cls msg))) :
    TurnDelivers d part (.escaped (.other cls msg)) := by
  refine ⟨?_, h.2⟩
  rw [h.1]
  rfl

/-- A failed fetch before it adds nothing. -/
theorem TurnDelivers.after_failed {part rest : Wire} {e : String}
    {o : Outcome (List CashRow) PyExc} (h : Delivers d.flex part (.error (.valueError e)))
    (hrest : TurnDelivers d rest o) : TurnDelivers d (part ++ rest) o := by
  constructor
  · rw [← hrest.1, reportBodies, List.filterMap_append, ← reportBodies, h.1]
    rfl
  · rw [List.any_append, h.2, ← hrest.2]
    rfl

theorem fetchChunk_delivers (fallback : Bool) (req : CashRequest) (w : Wire) :
    ∃ part, (fetchChunk d.env fallback req w).2 = w ++ part ∧
      TurnDelivers d part (fetchChunk d.env fallback req w).1 := by
  obtain ⟨part, hwire, hfirst⟩ := @fetchBody_delivers d.env.flex req.token req.queryId req.chunk.1
    req.chunk.2 none w
  unfold fetchChunk
  rw [fetchReport_body]
  rcases hb : fetchBody d.env.flex req.token req.queryId req.chunk.1 req.chunk.2 none w with
    ⟨(e | ⟨cls, msg⟩) | body, w'⟩ <;> rw [hb] at hwire hfirst <;> simp only [Except.bind]
  · split
    · -- The second fetch goes on from the wire of the first.
      obtain ⟨rest, hrest, hsecond⟩ := @fetchBody_delivers d.env.flex req.token req.queryId none
        none none w'
      have hboth : ∀ w'', w'' = w' ++ rest → w'' = w ++ (part ++ rest) := by
        rintro w'' rfl
        rw [show w' = w ++ part from hwire, List.append_assoc]
      rw [fetchReport_body]
      rcases hb' : fetchBody d.env.flex req.token req.queryId none none none w' with
        ⟨(e' | ⟨cls, msg⟩) | body, w''⟩ <;> rw [hb'] at hrest hsecond <;> simp only [Except.bind]
      · exact ⟨part ++ rest, hboth _ hrest, .after_failed hfirst hsecond.failed⟩
      · exact ⟨part ++ rest, hboth _ hrest, .after_failed hfirst hsecond.escaped⟩
      · exact ⟨part ++ rest, hboth _ hrest, .after_failed hfirst hsecond.ok⟩
    · exact ⟨part, hwire, hfirst.failed⟩
  · exact ⟨part, hwire, hfirst.escaped⟩
  · exact ⟨part, hwire, hfirst.ok⟩

theorem turns_deliver {turns : List CashTurn}
    (h : ∀ t ∈ turns, TurnDelivers d t.part t.outcome) :
    (reportBodies d.flex (turns.flatMap Turn.part)).flatMap d.cashRowsOf = cashRows turns ∧
      (turns.flatMap Turn.part).any (breaks d.flex) = (escapedOf turns).isSome := by
  induction turns with
  | nil => exact ⟨rfl, rfl⟩
  | cons t turns ih =>
    obtain ⟨hrows, hbreaks⟩ := h t List.mem_cons_self
    obtain ⟨hrest, hrest'⟩ := ih fun t' ht' => h t' (List.mem_cons_of_mem _ ht')
    constructor
    · rw [List.flatMap_cons, reportBodies, List.filterMap_append, List.flatMap_append,
        ← reportBodies, ← reportBodies, hrows, hrest]
      rfl
    · rw [List.flatMap_cons, List.any_append, hbreaks, hrest']
      simp only [escapedOf, List.findSome?_cons]
      cases t.outcome.escaped? <;> rfl

/-- All turns of a loop. -/
theorem visit_delivers (fallback : Bool) (reqs : List CashRequest) (w : Wire) :
    let visited := visit (fetchChunk d.env fallback) reqs w
    visited.2 = w ++ visited.1.flatMap Turn.part ∧
      (reportBodies d.flex (visited.1.flatMap Turn.part)).flatMap d.cashRowsOf =
        cashRows visited.1 ∧
      (visited.1.flatMap Turn.part).any (breaks d.flex) = (escapedOf visited.1).isSome := by
  constructor
  · apply visit_log
    intro req log
    obtain ⟨part, hpart, _⟩ := @fetchChunk_delivers d fallback req log
    exact ⟨part, hpart.symm⟩
  · apply turns_deliver
    intro t ht
    obtain ⟨part, hpart, hdelivers⟩ := @fetchChunk_delivers d fallback t.key t.before
    have hbody := (visit_turns t ht).2
    rw [part_eq hbody hpart]
    rwa [hbody] at hdelivers

end Turns

/-! ## The elements -/

section Elements
variable (flex : FlexService)

/-- The `CashTransaction` elements of a report, each with the account of the report. -/
def reportElements (body : String) : List (String × Element) :=
  match flex.fromstring body with
  | .error _ => []
  | .ok root => (root.iter.filter isCashTransaction).map fun elem => (reportAccountId root, elem)

/-- Those of the reports that the answers hold. -/
def cashElements (part : Wire) : List (String × Element) :=
  (reportBodies flex part).flatMap (reportElements flex)

/-- It names an account or an amount, and a date that one of the formats reads. -/
def Readable (x : String × Element) : Prop :=
  (cashAccount x.1 x.2 ≠ "" ∨ (cashAmount x.2).isZero = false) ∧
    (cashTs (cashDateTime x.2)).isSome = true

instance (x : String × Element) : Decidable (Readable x) := inferInstanceAs (Decidable (_ ∧ _))

theorem readable_iff (x : String × Element) :
    Readable x ↔ (cashRow x.1 x.2).isSome = true := by
  unfold Readable cashRow
  simp only
  split
  · rename_i hblank
    refine iff_of_false ?_ Bool.false_ne_true
    rintro ⟨h | h, _⟩ <;> simp [h] at hblank
  · rename_i hblank
    rw [Option.isSome_map]
    refine and_iff_right ?_
    by_contra hnot
    rw [not_or, not_not, Bool.not_eq_false] at hnot
    exact hblank (by simp [hnot])

/-- One row for each element that is not passed over. -/
theorem cashElements_rows (d : Deployment) (part : Wire) :
    (reportBodies d.flex part).flatMap d.cashRowsOf =
      (cashElements d.flex part).filterMap fun x => (cashRow x.1 x.2).map FlexCash.toRow := by
  rw [cashElements, List.filterMap_flatMap]
  refine congrArg (fun f => List.flatMap f _) (funext fun body => ?_)
  unfold Deployment.cashRowsOf parseCashTransactionsXml reportElements
  cases d.flex.fromstring body with
  | error e => rfl
  | ok root => rw [List.filterMap_map, List.map_filterMap]; rfl

end Elements

/-! ## The counts -/

/-- `upsert_account_transactions` returns, and what it does not write it counts as skipped. -/
def Deployment.Upserts (d : Deployment) : Prop :=
  ∀ rows gs, ∃ written skipped gs', d.upsertAccountTransactions rows gs =
    (.ok (written, skipped), gs') ∧ written + skipped = rows.length

/-- Every element is written or skipped, and a run that stored none of them is not ok. -/
structure CashConserved (elements : ℕ) (result : CashResult) : Prop where
  counted : elements = result.count + result.skipped.getD 0
  told : elements ≠ 0 → result.count = 0 → result.ok = false

section Counts
variable {d : Deployment} {n k : ℕ} {req : Requested} {turns : List CashTurn} {gs : GoldenSource}

/-- The counts of a result are those of the writer. -/
theorem finishCash_written (hnone : escapedOf turns = none) (hrows : cashRows turns ≠ [])
    {written skipped : ℕ} {gs' : GoldenSource}
    (h : d.upsertAccountTransactions (cashRows turns) gs = (.ok (written, skipped), gs')) :
    let finished := finishCash d.env n req k turns gs
    finished.1.count = written ∧ finished.1.skipped = some skipped ∧
      (written = 0 → finished.1.ok = false) := by
  have hup : d.env.upsertAccountTransactions (cashRows turns) gs = (.ok (written, skipped), gs') := h
  simp only [finishCash, hnone, if_neg hrows, hup]
  split
  · rename_i hzero
    exact ⟨hzero.symm, rfl, fun _ => rfl⟩
  · rename_i hne
    exact ⟨rfl, rfl, fun hzero => absurd hzero hne⟩

/-- Where the writer is not called nothing is counted. -/
theorem finishCash_unwritten (h : escapedOf turns ≠ none ∨ cashRows turns = []) :
    let finished := finishCash d.env n req k turns gs
    finished.1.count = 0 ∧ finished.1.skipped = none ∧
      (escapedOf turns ≠ none → finished.1.ok = false) := by
  simp only [finishCash]
  cases hesc : escapedOf turns with
  | some e => exact ⟨rfl, rfl, fun _ => rfl⟩
  | none =>
    have hrows : cashRows turns = [] := h.resolve_left fun hne => hne hesc
    simp only [if_pos hrows]
    split
    · exact ⟨rfl, rfl, fun hne => absurd rfl hne⟩
    · exact ⟨rfl, rfl, fun hne => absurd rfl hne⟩

/-- **After the loop.**  As many elements as rows, and no fetch has escaped; or no elements. -/
theorem finishCash_conserved_iff (hupsert : d.Upserts) {elements : ℕ}
    (hle : (cashRows turns).length ≤ elements) :
    CashConserved elements (finishCash d.env n req k turns gs).1 ↔
      elements = 0 ∨ (escapedOf turns = none ∧ (cashRows turns).length = elements) := by
  by_cases hcalled : escapedOf turns = none ∧ cashRows turns ≠ []
  · obtain ⟨hnone, hrows⟩ := hcalled
    obtain ⟨written, skipped, gs', hup, hsum⟩ := hupsert (cashRows turns) gs
    obtain ⟨hcount, hskipped, htold⟩ := @finishCash_written d n k req turns gs hnone hrows _ _ _ hup
    have hpos : 0 < (cashRows turns).length := List.length_pos_iff.mpr hrows
    constructor
    · rintro ⟨hcounted, _⟩
      rw [hcount, hskipped, Option.getD_some, hsum] at hcounted
      exact Or.inr ⟨hnone, hcounted.symm⟩
    · rintro (hzero | ⟨_, hall⟩)
      · omega
      · refine ⟨?_, fun _ hzero => htold (hcount.symm.trans hzero)⟩
        rw [hcount, hskipped, Option.getD_some, hsum, hall]
  · have hnot : escapedOf turns ≠ none ∨ cashRows turns = [] := by
      by_contra hboth
      rw [not_or, not_not] at hboth
      exact hcalled hboth
    obtain ⟨hcount, hskipped, _⟩ := @finishCash_unwritten d n k req turns gs hnot
    constructor
    · rintro ⟨hcounted, _⟩
      rw [hcount, hskipped] at hcounted
      exact Or.inl hcounted
    · intro h
      have hzero : elements = 0 := by
        rcases h with hzero | ⟨hnone, hall⟩
        · exact hzero
        · rw [← hall, hnot.resolve_left fun hne => hne hnone]
          rfl
      refine ⟨?_, fun hne => absurd hzero hne⟩
      rw [hcount, hskipped, hzero]
      rfl

end Counts

/-! ## The run -/

/-- **Cash rows are conserved.**  Whatever IB answers a flex-transactions run: the `CashTransaction`
elements of the reports it fetches are as many as the rows it writes and those it reports as
skipped, and it is not ok if it stores none of them, exactly when all of them are readable and no
answer breaks a fetch off, or there are none. -/
theorem cash_conserved_iff {d : Deployment} (hupsert : d.Upserts) (payload : Dict) (today : Date)
    (gs : GoldenSource) (w : Wire) :
    let run := fetchCashTransactionsFromFlex d.env payload today gs w
    let answers := run.wire.drop w.length
    CashConserved (cashElements d.flex answers).length run.result ↔
      cashElements d.flex answers = [] ∨
        ((∀ x ∈ answers, breaks d.flex x = false) ∧
          ∀ x ∈ cashElements d.flex answers, Readable x) := by
  rcases cash_run_cases d.env payload today gs w with ⟨why, hrun⟩ | ⟨req, chunks, _, _, hrun⟩
  · rw [hrun]
    simp only [List.drop_length]
    exact iff_of_true ⟨rfl, fun hne => absurd rfl hne⟩ (Or.inl rfl)
  · rw [hrun]
    obtain ⟨hwire, hrows, hbreaks⟩ := @visit_delivers d
      (allowFallback payload && chunks.length = 1) (cashRequests (cashEntries d.env gs) chunks) w
    simp only [runCash]
    rw [hwire, List.drop_left]
    generalize (visit _ _ w).1 = turns at hrows hbreaks ⊢
    generalize turns.flatMap Turn.part = answers at hrows hbreaks ⊢
    rw [cashElements_rows] at hrows
    have hle : (cashRows turns).length ≤ (cashElements d.flex answers).length := by
      rw [← hrows]
      exact List.length_filterMap_le _ _
    have hesc : escapedOf turns = none ↔ ∀ x ∈ answers, breaks d.flex x = false := by
      rw [← Option.not_isSome_iff_eq_none, ← hbreaks, List.any_eq_true]
      simp
    have hall : (cashRows turns).length = (cashElements d.flex answers).length ↔
        ∀ x ∈ cashElements d.flex answers, Readable x := by
      rw [← hrows, List.filterMap_length_eq_length]
      simp only [Option.isSome_map, readable_iff]
    rw [finishCash_conserved_iff hupsert hle, List.length_eq_zero_iff, hesc, hall]

/-! ## A report with one element -/

def cashItem (attrib : List (String × String)) : Element := .mk "CashTransaction" attrib none []

/-- IB answers every query with that one element. -/
def oneCashItem (item : Element) : Deployment :=
  { hostOnly with
    flex := scripted
      (fun req =>
        match req with
        | .sendRequest .. => acceptedDoc.1
        | .getStatement .. => "report")
      [acceptedDoc, ("report", reportOf "U1" "CashTransactions" [item])] }

/-- One query for cash transactions. -/
def cashQuery : GoldenSource :=
  { dailyImport with settingsFlex := [⟨"301", none, none, "cash_transactions"⟩] }

def oneMonth : Dict := [("from_date", .str "20260801"), ("to_date", .str "20260831")]

theorem oneCashItem_upserts (item : Element) : (oneCashItem item).Upserts :=
  fun rows gs => ⟨rows.length, 0, gs, rfl, rfl⟩

/-- A deposit with a date is written. -/
theorem deposit_conserved :
    let d := oneCashItem (cashItem [("dateTime", "20260814"), ("amount", "25")])
    let run := fetchCashTransactionsFromFlex d.env oneMonth tradesToday cashQuery []
    CashConserved (cashElements d.flex run.wire).length run.result := by
  refine (cash_conserved_iff (oneCashItem_upserts _) oneMonth tradesToday cashQuery []).mpr
    (Or.inr ⟨?_, ?_⟩)
  · decide +kernel
  · decide +kernel

/-- A deposit without a date is neither written nor counted, and the run is ok. -/
theorem dateless_deposit_lost :
    let d := oneCashItem (cashItem [("amount", "25")])
    let run := fetchCashTransactionsFromFlex d.env oneMonth tradesToday cashQuery []
    (cashElements d.flex run.wire).length = 1 ∧ run.result.ok = true ∧
      run.result.message = some "No cash transactions in report." ∧
      ¬ CashConserved (cashElements d.flex run.wire).length run.result := by
  have hone : (cashElements (oneCashItem (cashItem [("amount", "25")])).flex
      (fetchCashTransactionsFromFlex (oneCashItem (cashItem [("amount", "25")])).env oneMonth
        tradesToday cashQuery []).wire).length = 1 := by
    decide +kernel
  have hok : (fetchCashTransactionsFromFlex (oneCashItem (cashItem [("amount", "25")])).env
      oneMonth tradesToday cashQuery []).result.ok = true := by
    decide +kernel
  refine ⟨hone, hok, by decide +kernel, fun hconserved => ?_⟩
  have htold := hconserved.told (by rw [hone]; exact one_ne_zero) (by decide +kernel)
  rw [hok] at htold
  cases htold

end FlexQuery
