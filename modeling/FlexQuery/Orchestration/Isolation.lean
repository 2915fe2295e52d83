import FlexQuery.Worker.Done

/-!
# What one failing fetch does to the others

* `Isolates` — what a run makes of the rows and the failures of its turns.
* `runs_isolate` — either run does so: a `ValueError` is kept apart from the other fetches, any
  other exception ends the run before its write.
* `timeout_drops_rows` — a query that timed out, and the rows of the one before it.
-/

set_option autoImplicit false

namespace FlexQuery

open Visit

/-- What a run does once its loop is over, given the rows of the fetches that succeeded and the
texts of those that failed with a `ValueError`. -/
structure Isolates {ρ β : Type} (rows : List ρ) (texts : List String) (escaped : Option PyExc)
    (write : List ρ → GoldenSource → Except PyExc β × GoldenSource) (success : β → Prop)
    (gs store : GoldenSource) (ok : Bool) (error : Option String) (errors : List String) :
    Prop where
  /-- Another exception: nothing is written, and only its text is kept. -/
  stopped : ∀ e, escaped = some e → store = gs ∧ ok = false ∧ error = some e.str
  /-- No rows: the failures are the error. -/
  empty : escaped = none → rows = [] →
    store = gs ∧ (texts ≠ [] → ok = false ∧ error = some (joined texts))
  /-- All rows are handed to the writer; if it succeeds the failures are listed. -/
  written : escaped = none → rows ≠ [] → store = (write rows gs).2 ∧
    ∀ b, (write rows gs).1 = .ok b → success b → ok = true ∧ errors = texts
  /-- The writer did not succeed. -/
  unwritten : escaped = none → rows ≠ [] →
    (∀ e, (write rows gs).1 = .error e → ok = false ∧ error = some e.str) ∧
      ∀ b, (write rows gs).1 = .ok b → ¬ success b → ok = false

theorem finishTrades_isolates (env : Env) (entries : List TradesEntry) (req : Requested)
    (turns : List TradesTurn) (gs : GoldenSource) :
    let finished := finishTrades env entries req turns gs
    Isolates (tradeRows turns) (tradesErrors entries.length turns) (escapedOf turns)
      env.writeAccountExecutionsToDb (· = true) gs finished.2 finished.1.ok finished.1.error
      finished.1.errors := by
  constructor
  · intro e he
    simp only [finishTrades, he]
    exact ⟨trivial, rfl, rfl⟩
  · intro hnone hrows
    simp only [finishTrades, hnone, if_pos hrows]
    split
    · exact ⟨rfl, fun _ => ⟨rfl, rfl⟩⟩
    · rename_i herr
      exact ⟨rfl, fun h => absurd h herr⟩
  · intro hnone hrows
    simp only [finishTrades, hnone, if_neg hrows]
    cases hw : env.writeAccountExecutionsToDb (tradeRows turns) gs with
    | mk res gs' =>
      cases res with
      | error e => exact ⟨rfl, nofun⟩
      | ok written =>
        cases written with
        | false =>
          refine ⟨rfl, ?_⟩
          rintro b hb rfl
          cases hb
        | true => exact ⟨rfl, fun _ _ _ => ⟨rfl, rfl⟩⟩
  · intro hnone hrows
    simp only [finishTrades, hnone, if_neg hrows]
    cases hw : env.writeAccountExecutionsToDb (tradeRows turns) gs with
    | mk res gs' =>
      cases res with
      | error e =>
        refine ⟨?_, nofun⟩
        intro e' he
        cases he
        exact ⟨rfl, rfl⟩
      | ok written =>
        cases written with
        | false => exact ⟨nofun, fun _ _ _ => rfl⟩
        | true =>
          refine ⟨nofun, ?_⟩
          intro b hb hne
          cases hb
          exact absurd rfl hne

theorem finishCash_isolates (env : Env) (n k : ℕ) (req : Requested) (turns : List CashTurn)
    (gs : GoldenSource) :
    let finished := finishCash env n req k turns gs
    Isolates (cashRows turns) (cashErrors k turns) (escapedOf turns)
      env.upsertAccountTransactions (fun b => b.1 ≠ 0) gs finished.2 finished.1.ok finished.1.error
      finished.1.errors := by
  constructor
  · intro e he
    simp only [finishCash, he]
    exact ⟨trivial, rfl, rfl⟩
  · intro hnone hrows
    simp only [finishCash, hnone, if_pos hrows]
    split
    · exact ⟨rfl, fun _ => ⟨rfl, rfl⟩⟩
    · rename_i herr
      exact ⟨rfl, fun h => absurd h herr⟩
  · intro hnone hrows
    simp only [finishCash, hnone, if_neg hrows]
    cases hw : env.upsertAccountTransactions (cashRows turns) gs with
    | mk res gs' =>
      cases res with
      | error e => exact ⟨rfl, nofun⟩
      | ok counts =>
        obtain ⟨written, skipped⟩ := counts
        simp only
        split
        · rename_i hzero
          refine ⟨rfl, ?_⟩
          intro b hb hne
          cases hb
          exact absurd hzero hne
        · exact ⟨rfl, fun _ _ _ => ⟨rfl, rfl⟩⟩
  · intro hnone hrows
    simp only [finishCash, hnone, if_neg hrows]
    cases hw : env.upsertAccountTransactions (cashRows turns) gs with
    | mk res gs' =>
      cases res with
      | error e =>
        refine ⟨?_, nofun⟩
        intro e' he
        cases he
        exact ⟨rfl, rfl⟩
      | ok counts =>
        obtain ⟨written, skipped⟩ := counts
        simp only
        split
        · exact ⟨nofun, fun _ _ _ => rfl⟩
        · rename_i hwritten
          refine ⟨nofun, ?_⟩
          intro b hb hne
          cases hb
          exact absurd hwritten hne

/-! ## Turns -/

/-- What each turn came to is in the rows or among the texts, unless it is no `ValueError`. -/
def Accounted {κ α ρ : Type} (turns : List (RunTurn κ α)) (rowsOf : α → List ρ) (rows : List ρ)
    (texts : List String) : Prop :=
  ∀ t ∈ turns,
    (∀ a, t.outcome = .ok a → ∀ r ∈ rowsOf a, r ∈ rows) ∧
    (∀ text, t.outcome = .failed text → ∃ e ∈ texts, text.toList <:+ e.toList) ∧
    ∀ exc, t.outcome = .escaped exc → ∃ cls msg, exc = .other cls msg

theorem fetchQuery_escaped {env : Env} {fallback : Bool} {req : TradesRequest} {w w' : Wire}
    {exc : PyExc} (h : fetchQuery env fallback req w = (.escaped exc, w')) :
    ∃ cls msg, exc = .other cls msg := by
  unfold fetchQuery at h
  split at h
  · cases h
  · cases h
  · cases h
    exact ⟨_, _, rfl⟩

theorem fetchChunk_escaped {env : Env} {widen : Bool} {req : CashRequest} {w w' : Wire}
    {exc : PyExc} (h : fetchChunk env widen req w = (.escaped exc, w')) :
    ∃ cls msg, exc = .other cls msg := by
  unfold fetchChunk at h
  split at h
  · cases h
  · cases h
    exact ⟨_, _, rfl⟩
  · split at h
    · split at h
      · cases h
      · cases h
        exact ⟨_, _, rfl⟩
      · cases h
    · cases h

theorem trades_accounted (env : Env) (fallback : Bool) (entries : List TradesEntry)
    (req : Requested) (w : Wire) :
    let turns := (visit (fetchQuery env fallback) (tradesRequests entries req) w).1
    Accounted turns (·.1) (tradeRows turns) (tradesErrors entries.length turns) := by
  intro turns t ht
  refine ⟨?_, ?_, ?_⟩
  · intro f hf r hr
    exact List.mem_flatMap.mpr ⟨t, ht, by simpa [hf, Outcome.ok?] using hr⟩
  · intro text htext
    refine ⟨_, List.mem_map_of_mem (mem_failures.mpr ⟨t, ht, rfl, htext⟩), ?_⟩
    simp only [String.toList_append]
    exact List.suffix_append _ _
  · intro exc hexc
    have hbody := (visit_turns t ht).2
    rw [hexc] at hbody
    exact fetchQuery_escaped hbody

theorem cash_accounted (d : Deployment) (widen : Bool) (entries : List (String × String))
    (chunks : List Chunk) (w : Wire) (k : ℕ) :
    let turns := (visit (fetchChunk d.env widen) (cashRequests entries chunks) w).1
    Accounted turns id (cashRows turns) (cashErrors k turns) := by
  intro turns t ht
  have hbody := (visit_turns t ht).2
  refine ⟨?_, ?_, ?_⟩
  · intro rows hrows r hr
    exact List.mem_flatMap.mpr ⟨t, ht, by simpa [hrows, Outcome.ok?] using hr⟩
  · intro text htext
    rw [htext] at hbody
    have hne : text ≠ "" := by
      rintro rfl
      exact fetchChunk_says hbody (by decide)
    have hmem : (t.key, text) ∈ (failures turns).filter fun f => f.2 ≠ "" :=
      List.mem_filter.mpr ⟨mem_failures.mpr ⟨t, ht, rfl, htext⟩, decide_eq_true hne⟩
    refine ⟨_, List.mem_map_of_mem hmem, ?_⟩
    simp only
    split
    · exact List.suffix_rfl
    · simp only [String.toList_append]
      exact List.suffix_append _ _
  · intro exc hexc
    rw [hexc] at hbody
    exact fetchChunk_escaped hbody

/-- **Fault isolation, for `ValueError`.**  For any entries and chunks: as long as every failing
fetch raises `ValueError` the run goes through all of them, hands the rows of the others to the
writer and reports the failures; any other exception ends it at that fetch, with nothing written. -/
theorem runs_isolate (d : Deployment) (fallback : Bool) (req : Requested) (gs : GoldenSource)
    (w : Wire) :
    (∀ entries,
      let run := runTrades d.env fallback entries req gs w
      let texts := tradesErrors entries.length run.turns
      (escapedOf run.turns = none → run.turns.map Turn.key = tradesRequests entries req) ∧
      Accounted run.turns (·.1) (tradeRows run.turns) texts ∧
      Isolates (tradeRows run.turns) texts (escapedOf run.turns) d.writeAccountExecutionsToDb
        (· = true) gs run.store run.result.ok run.result.error run.result.errors) ∧
    ∀ entries chunks,
      let run := runCash d.env fallback entries req chunks gs w
      let texts := cashErrors chunks.length run.turns
      (escapedOf run.turns = none → run.turns.map Turn.key = cashRequests entries chunks) ∧
      Accounted run.turns id (cashRows run.turns) texts ∧
      Isolates (cashRows run.turns) texts (escapedOf run.turns) d.upsertAccountTransactions
        (fun b => b.1 ≠ 0) gs run.store run.result.ok run.result.error run.result.errors := by
  constructor
  · intro entries
    exact ⟨(visit_keys _ _).2, trades_accounted d.env fallback entries req w,
      finishTrades_isolates d.env entries req _ gs⟩
  · intro entries chunks
    exact ⟨(visit_keys _ _).2, cash_accounted d _ entries chunks w chunks.length,
      finishCash_isolates d.env entries.length chunks.length req _ gs⟩

/-! ## A timeout -/

/-- IB answers query 101 with a fill; the read of the next report times out. -/
def secondTimesOut : Deployment :=
  { hostOnly with
    tokens := ⟨"host-token", "secondary-token"⟩
    flex := { hostOnly.flex with
      answer := fun w req =>
        match req with
        | .sendRequest _ "202" _ _ => .raised "TimeoutError" "The read operation timed out"
        | req => hostOnly.flex.answer w req } }

/-- The fill of query 101 is not written, and the errors list nothing. -/
theorem timeout_drops_rows :
    let run := runTrades secondTimesOut.env false (tradesEntries secondTimesOut.env dailyImport)
      ⟨some "20260803", some "20260903", .incremental, some 31⟩ dailyImport []
    run.turns.map (fun t => (t.key.entry.queryId, t.outcome)) =
        [("101", .ok ([tradesReportRow], false, none)),
          ("202", .escaped (.other "TimeoutError" "The read operation timed out"))] ∧
      tradeRows run.turns = [tradesReportRow] ∧ run.result.errors = [] ∧
      run.store = dailyImport ∧
      run.store ≠ (secondTimesOut.writeAccountExecutionsToDb (tradeRows run.turns) dailyImport).2 := by
  decide +kernel

end FlexQuery
