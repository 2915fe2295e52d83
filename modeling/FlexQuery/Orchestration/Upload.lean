import FlexQuery.Client.Readiness
import FlexQuery.Orchestration.Answered

/-!
# An uploaded report

`upsert_executions_from_uploaded_flex_xml` of `orchestration/trades.py`: the report comes from a
reader instead of IB, and goes the rest of the way by itself.

* `upsertExecutionsFromUploadedFlexXml`, `uploadAll` — one text, and several in a row.
* `ReportOf`, `turn_report` — the rows of a turn are those of the report it polled last.
* `Upserts` — the writer takes the rows in order, whatever call they come in.
* `uploadAll_written` — texts uploaded in a row leave what one write of all their rows leaves.
* `uploads_of_run` — so do the reports of a run that ends well.
-/

set_option autoImplicit false

namespace FlexQuery

open Visit

def noTradeRows : String :=
  "No Trade rows parsed from XML. Ensure this is a Flex Trades report (Activity → Trades)."

/-- `upsert_executions_from_uploaded_flex_xml`. -/
def upsertExecutionsFromUploadedFlexXml (env : Env) (rawXml : String) (gs : GoldenSource) :
    TradesResult × GoldenSource :=
  if env.postgresReady = false then
    (.refused "PostgreSQL is required to write account_executions.", gs)
  else if strip rawXml = "" then (.refused "Missing xml field in request body.", gs)
  else
    match env.parseTradesXml (strip rawXml) with
    | .error e => (.refused e.str, gs)
    | .ok rows =>
      if rows = [] then (.refused noTradeRows, gs)
      else
        match env.writeAccountExecutionsToDb rows gs with
        | (.error e, gs') => (.refused e.str, gs')
        | (.ok false, gs') => (.refused "Failed to write account_executions.", gs')
        | (.ok true, gs') =>
          ({ ok := true, count := rows.length
             updatedAccounts := (affectedAccounts rows).length
             message := "Upserted " ++ toString rows.length ++
               " execution(s) from uploaded Flex XML for " ++
               toString (affectedAccounts rows).length ++ " account(s)." }, gs')

/-- The texts one after the other, whatever becomes of each. -/
def uploadAll (env : Env) : List String → GoldenSource → List TradesResult × GoldenSource
  | [], gs => ([], gs)
  | text :: texts, gs =>
    let up := upsertExecutionsFromUploadedFlexXml env text gs
    let others := uploadAll env texts up.2
    (up.1 :: others.1, others.2)

/-! ## Where rows come from -/

/-- The report that a turn polled last, and that its rows were read from. -/
def ReportOf (env : Env) (t : TradesTurn) (rows : List TradeRow) (text : String) : Prop :=
  Generated env.flex text ∧ env.parseTradesXml text = .ok rows ∧
    ∃ ref, t.after.getLast? = some (.getStatement t.key.entry.token ref, .body text)

/-- The rows of a turn are those of a report. -/
theorem turn_report {env : Env} {fallback : Bool} {reqs : List TradesRequest} {w : Wire}
    {t : TradesTurn} {f : Fetched} (ht : t ∈ (visit (fetchQuery env fallback) reqs w).1)
    (hok : t.outcome = .ok f) : ∃ text, ReportOf env t f.1 text := by
  have hturn := (visit_turns t ht).2
  rw [hok] at hturn
  have hrows : ∃ text ref, Generated env.flex text ∧ env.parseTradesXml text = .ok f.1 ∧
      t.after.getLast? = some (.getStatement t.key.entry.token ref, .body text) := by
    rcases fetchQuery_answered hturn with hrows | ⟨_, w₁, period, _, hrows⟩
    · exact fetchReport_generated hrows
    · exact fetchReport_generated hrows
  obtain ⟨text, ref, hgenerated, hparse, hlast⟩ := hrows
  exact ⟨text, hgenerated, hparse, ref, hlast⟩

theorem tradeRows_cons (t : TradesTurn) (turns : List TradesTurn) :
    tradeRows (t :: turns) = (t.outcome.ok?.map (·.1)).getD [] ++ tradeRows turns :=
  rfl

theorem forall₂_right {α β : Type} {R : α → β → Prop} {l : List α} {l' : List β}
    (h : List.Forall₂ R l l') : ∀ b ∈ l', ∃ a ∈ l, R a b := by
  induction h with
  | nil => exact fun b hb => absurd hb List.not_mem_nil
  | cons hR _ ih =>
    intro b hb
    rcases List.mem_cons.mp hb with rfl | hb
    · exact ⟨_, List.mem_cons_self, hR⟩
    · obtain ⟨a, ha, hab⟩ := ih b hb
      exact ⟨a, List.mem_cons_of_mem _ ha, hab⟩

/-- A report for every turn that ended well. -/
theorem reports_of {env : Env} {turns : List TradesTurn}
    (h : ∀ t ∈ turns, ∀ f, t.outcome = .ok f → ∃ text, ReportOf env t f.1 text) :
    ∃ texts : List (String × List TradeRow),
      List.Forall₂ (fun t x => ReportOf env t x.2 x.1)
        (turns.filter fun t => t.outcome.ok?.isSome) texts ∧
      texts.flatMap Prod.snd = tradeRows turns := by
  induction turns with
  | nil => exact ⟨[], .nil, rfl⟩
  | cons t turns ih =>
    obtain ⟨texts, hreports, hrows⟩ := ih fun u hu => h u (List.mem_cons_of_mem _ hu)
    cases ho : t.outcome with
    | ok f =>
      obtain ⟨text, htext⟩ := h t List.mem_cons_self f ho
      refine ⟨(text, f.1) :: texts, ?_, ?_⟩
      · rw [List.filter_cons_of_pos (by rw [ho]; rfl)]
        exact .cons htext hreports
      · rw [tradeRows_cons, ho, List.flatMap_cons, hrows]
        rfl
    | failed e =>
      refine ⟨texts, ?_, ?_⟩
      · rwa [List.filter_cons_of_neg (by simp [ho, Outcome.ok?])]
      · rw [tradeRows_cons, ho, hrows]
        rfl
    | escaped e =>
      refine ⟨texts, ?_, ?_⟩
      · rwa [List.filter_cons_of_neg (by simp [ho, Outcome.ok?])]
      · rw [tradeRows_cons, ho, hrows]
        rfl

/-! ## The same write -/

/-- What the writer makes of some rows it makes of them in two calls. -/
structure Upserts (write : List TradeRow → GoldenSource → Except PyExc Bool × GoldenSource) :
    Prop where
  split : ∀ rows rows' gs gs', rows ≠ [] → rows' ≠ [] →
    write (rows ++ rows') gs = (.ok true, gs') →
      ∃ mid, write rows gs = (.ok true, mid) ∧ write rows' mid = (.ok true, gs')

section Write
variable {env : Env} {gs gs' : GoldenSource}

/-- A text with trades, once it is written. -/
theorem upload_ok {text : String} {rows : List TradeRow} (hready : env.postgresReady = true)
    (htext : strip text ≠ "") (hparse : env.parseTradesXml (strip text) = .ok rows)
    (hrows : rows ≠ []) (hwrite : env.writeAccountExecutionsToDb rows gs = (.ok true, gs')) :
    let up := upsertExecutionsFromUploadedFlexXml env text gs
    up.1.ok = true ∧ up.1.count = rows.length ∧
      up.1.updatedAccounts = some (affectedAccounts rows).length ∧ up.2 = gs' := by
  simp only [upsertExecutionsFromUploadedFlexXml, hready, Bool.true_eq_false, if_false,
    if_neg htext, hparse, if_neg hrows, hwrite, and_self]

/-- A text without trades is refused. -/
theorem upload_none {text : String} (hready : env.postgresReady = true) (htext : strip text ≠ "")
    (hparse : env.parseTradesXml (strip text) = .ok []) :
    upsertExecutionsFromUploadedFlexXml env text gs = (.refused noTradeRows, gs) := by
  simp only [upsertExecutionsFromUploadedFlexXml, hready, Bool.true_eq_false, if_false,
    if_neg htext, hparse, if_true]

/-- All rows of some reports, written at once or text by text. -/
theorem uploadAll_written (hready : env.postgresReady = true)
    (hwriter : Upserts env.writeAccountExecutionsToDb) {texts : List (String × List TradeRow)}
    (hparse : ∀ x ∈ texts, strip x.1 ≠ "" ∧ env.parseTradesXml (strip x.1) = .ok x.2)
    (hnone : texts.flatMap Prod.snd = [] → gs' = gs)
    (hwrite : texts.flatMap Prod.snd ≠ [] →
      env.writeAccountExecutionsToDb (texts.flatMap Prod.snd) gs = (.ok true, gs')) :
    let ups := uploadAll env (texts.map Prod.fst) gs
    ups.2 = gs' ∧ (ups.1.map TradesResult.count).sum = (texts.flatMap Prod.snd).length := by
  induction texts generalizing gs with
  | nil => exact ⟨(hnone rfl).symm, rfl⟩
  | cons x texts ih =>
    obtain ⟨text, rows⟩ := x
    obtain ⟨htext, htrades⟩ := hparse _ List.mem_cons_self
    have hothers := fun y hy => hparse y (List.mem_cons_of_mem _ hy)
    simp only [List.flatMap_cons] at hnone hwrite
    simp only [List.map_cons, uploadAll, List.flatMap_cons, List.sum_cons, List.length_append]
    by_cases hrows : rows = []
    · subst hrows
      rw [upload_none hready htext htrades]
      obtain ⟨hstore, hcount⟩ := ih hothers hnone hwrite
      exact ⟨hstore, by rw [hcount]; rfl⟩
    · -- The write of this text's rows, and what it leaves for the others.
      have hmid : ∃ mid, env.writeAccountExecutionsToDb rows gs = (.ok true, mid) ∧
          (texts.flatMap Prod.snd = [] → gs' = mid) ∧ (texts.flatMap Prod.snd ≠ [] →
            env.writeAccountExecutionsToDb (texts.flatMap Prod.snd) mid = (.ok true, gs')) := by
        have hall := hwrite (List.append_ne_nil_of_left_ne_nil hrows _)
        by_cases hrest : texts.flatMap Prod.snd = []
        · rw [hrest, List.append_nil] at hall
          exact ⟨gs', hall, fun _ => rfl, fun hne => absurd hrest hne⟩
        · obtain ⟨mid, hfirst, hlast⟩ := hwriter.split _ _ _ _ hrows hrest hall
          exact ⟨mid, hfirst, fun hnil => absurd hnil hrest, fun _ => hlast⟩
      obtain ⟨mid, hfirst, hnil, hlast⟩ := hmid
      obtain ⟨_, hcount, _, hstore⟩ := upload_ok hready htext htrades hrows hfirst
      rw [hstore, hcount]
      obtain ⟨hstore', hcount'⟩ := ih hothers hnil hlast
      exact ⟨hstore', by rw [hcount']⟩

/-- What a run that ends well has written, and says it has. -/
theorem finishTrades_written {entries : List TradesEntry} {req : Requested}
    {turns : List TradesTurn} (h : (finishTrades env entries req turns gs).1.ok = true) :
    let run := finishTrades env entries req turns gs
    (tradeRows turns = [] → run.2 = gs) ∧
      (tradeRows turns ≠ [] →
        env.writeAccountExecutionsToDb (tradeRows turns) gs = (.ok true, run.2)) ∧
      run.1.count = (tradeRows turns).length := by
  unfold finishTrades at h ⊢
  cases hesc : escapedOf turns with
  | some e =>
    rw [hesc] at h
    cases h
  | none =>
    rw [hesc] at h
    simp only at h ⊢
    by_cases hrows : tradeRows turns = []
    · rw [if_pos hrows] at h ⊢
      split at h
      · cases h
      · rename_i herr
        rw [if_neg herr]
        exact ⟨fun _ => rfl, fun hne => absurd hrows hne, by rw [hrows]; rfl⟩
    · rw [if_neg hrows] at h ⊢
      cases hwrite : env.writeAccountExecutionsToDb (tradeRows turns) gs with
      | mk res gs' =>
        rw [hwrite] at h
        cases res with
        | error e => cases h
        | ok written =>
          cases written with
          | false => cases h
          | true => exact ⟨fun hnil => absurd hnil hrows, fun _ => rfl, rfl⟩

/-- **The reports of a run**, uploaded one by one, leave the store the run left and count its
rows. -/
theorem uploads_of_run (hwriter : Upserts env.writeAccountExecutionsToDb)
    (htrim : ∀ text rows, Generated env.flex text → env.parseTradesXml text = .ok rows →
      strip text ≠ "" ∧ env.parseTradesXml (strip text) = .ok rows)
    {payload : Dict} {today : Date} {w : Wire}
    (hok : (fetchFlexTradesAndUpsertExecutions env payload today gs w).result.ok = true) :
    let run := fetchFlexTradesAndUpsertExecutions env payload today gs w
    ∃ texts : List (String × List TradeRow),
      List.Forall₂ (fun t x => ReportOf env t x.2 x.1)
        (run.turns.filter fun t => t.outcome.ok?.isSome) texts ∧
      let ups := uploadAll env (texts.map Prod.fst) gs
      ups.2 = run.store ∧ (ups.1.map TradesResult.count).sum = run.result.count := by
  have hready : env.postgresReady = true := by
    by_contra hready
    rw [Bool.not_eq_true] at hready
    rw [fetchFlexTradesAndUpsertExecutions, if_pos hready] at hok
    cases hok
  obtain ⟨req, _, hrun, _⟩ := trades_run_ok hok
  rw [hrun] at hok ⊢
  obtain ⟨hnone, hwrite, hcount⟩ := finishTrades_written hok
  have hturns : ∀ t ∈ (visit (fetchQuery env (allowFallback payload))
      (tradesRequests (tradesEntries env gs) req) w).1, ∀ f : Fetched, t.outcome = .ok f →
        ∃ text, ReportOf env t f.1 text :=
    fun t ht f hf => turn_report ht hf
  obtain ⟨texts, hreports, hrows⟩ := reports_of hturns
  rw [← hrows] at hnone hwrite hcount
  have hparse : ∀ x ∈ texts, strip x.1 ≠ "" ∧ env.parseTradesXml (strip x.1) = .ok x.2 := by
    intro x hx
    obtain ⟨t, _, hgenerated, hparse, _⟩ := forall₂_right hreports x hx
    exact htrim _ _ hgenerated hparse
  obtain ⟨hstore, hsum⟩ := uploadAll_written hready hwriter hparse hnone hwrite
  exact ⟨texts, hreports, hstore, hsum.trans hcount.symm⟩

end Write

end FlexQuery
