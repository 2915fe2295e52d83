import FlexQuery.Orchestration.Trades

/-!
# After a partial flex-trades run

Some queries of a scheduled run failed, the rows of the others are written, and the next attempt
counts back from the newest trade date that write left.

* `StoresTrades` — what is relied on of `write_account_executions_to_db`.
* `NextTradesWindowReaches` — the next window contains the first one, in terms of the store before
  the write and the rows written.
* `failed_query_reached_iff` — a failed query is asked for its window again exactly then.
* `failed_first_import` — a first import of two accounts, one of which failed: the next window
  leaves eleven months of the failed one out.
-/

set_option autoImplicit false

namespace FlexQuery

open Visit

/-- `write_account_executions_to_db` writes no other table; and when it answers true, the trade
dates of the Flex executions are those there were and those of its rows. -/
structure StoresTrades
    (write : List TradeRow → GoldenSource → Except PyExc Bool × GoldenSource) : Prop where
  settingsFlex : ∀ rows gs, (write rows gs).2.settingsFlex = gs.settingsFlex
  flexSettings : ∀ rows gs, (write rows gs).2.flexSettings = gs.flexSettings
  dates : ∀ rows gs, (write rows gs).1 = .ok true → ∀ d,
    d ∈ flexDates (write rows gs).2 ↔ d ∈ flexDates gs ∨ d ∈ rows.filterMap TradeRow.tradeDate

/-- From yesterday `y` of a run to yesterday `y'` of the next attempt, with these rows written in
between, the first day of the window does not move forward. -/
def NextTradesWindowReaches (gs : GoldenSource) (rows : List TradeRow) (y y' : ℤ) : Prop :=
  match maxDate (flexDates gs) with
  | some m => (y' = y ∧ y ≤ m.ord) ∨
      (m.ord ≤ y ∧ ∀ d ∈ rows.filterMap TradeRow.tradeDate, d ≤ m)
  | none => (rows.filterMap TradeRow.tradeDate = [] ∧ y' = y) ∨
      ((∃ d ∈ rows.filterMap TradeRow.tradeDate, (getFlexRangeDays gs).1 < min y' d.ord) ∧
        ∀ d ∈ rows.filterMap TradeRow.tradeDate,
          min y' d.ord + (getFlexRangeDays gs).2 ≤ y + (getFlexRangeDays gs).1)

/-! ## The newest trade date after a write -/

theorem maxDate_congr {ds es : List Date} (h : ∀ d, d ∈ ds ↔ d ∈ es) :
    maxDate ds = maxDate es := by
  cases hm : maxDate es with
  | none =>
    rw [maxDate_eq_none] at hm ⊢
    rw [List.eq_nil_iff_forall_not_mem] at hm ⊢
    intro d hd
    exact hm d ((h d).mp hd)
  | some m =>
    rw [maxDate_eq_some] at hm ⊢
    exact ⟨(h m).mpr hm.1, fun d hd => hm.2 d ((h d).mp hd)⟩

/-- The store a scheduled run leaves when it ends well. -/
theorem store_dates {env : Env} {gs gs' : GoldenSource} {rows : List TradeRow}
    (hstores : StoresTrades env.writeAccountExecutionsToDb)
    (h : (rows = [] ∧ gs' = gs) ∨ env.writeAccountExecutionsToDb rows gs = (.ok true, gs')) :
    gs'.settingsFlex = gs.settingsFlex ∧ getFlexRangeDays gs' = getFlexRangeDays gs ∧
      maxDate (flexDates gs') = maxDate (flexDates gs ++ rows.filterMap TradeRow.tradeDate) := by
  rcases h with ⟨rfl, rfl⟩ | hwrite
  · exact ⟨rfl, rfl, by rw [List.filterMap_nil, List.append_nil]⟩
  · have hqueries := hstores.settingsFlex rows gs
    have hset := hstores.flexSettings rows gs
    have hdates := hstores.dates rows gs (congrArg Prod.fst hwrite)
    rw [hwrite] at hqueries hset hdates
    refine ⟨hqueries, ?_, ?_⟩
    · unfold getFlexRangeDays readFlexSettings
      rw [hset]
    · apply maxDate_congr
      intro d
      rw [hdates d, List.mem_append]

/-- When the start of the next window is on or before the start of this one. -/
theorem tradesStart_le_iff {gs gs' : GoldenSource} {rows : List TradeRow} {y y' : ℤ} (hy : y ≤ y')
    (hpos : 1 ≤ tradesStart gs y) (hrange : getFlexRangeDays gs' = getFlexRangeDays gs)
    (hnewest : maxDate (flexDates gs') =
      maxDate (flexDates gs ++ rows.filterMap TradeRow.tradeDate)) :
    (1 ≤ tradesStart gs' y' ∧ tradesStart gs' y' ≤ tradesStart gs y) ↔
      NextTradesWindowReaches gs rows y y' := by
  unfold tradesStart NextTradesWindowReaches at *
  rw [hnewest, hrange]
  cases hm : maxDate (flexDates gs) with
  | some m =>
    rw [hm] at hpos
    obtain ⟨hmem, hall⟩ := maxDate_eq_some.mp hm
    cases hm' : maxDate (flexDates gs ++ rows.filterMap TradeRow.tradeDate) with
    | none =>
      rw [maxDate_eq_none, List.append_eq_nil_iff] at hm'
      rw [hm'.1] at hmem
      cases hmem
    | some m' =>
      obtain ⟨hmem', hall'⟩ := maxDate_eq_some.mp hm'
      have hle := Date.le_iff.mp (hall' m (List.mem_append_left _ hmem))
      simp only at hpos ⊢
      constructor
      · rintro ⟨_, hstart⟩
        by_cases hsame : y' = y ∧ y ≤ m.ord
        · exact Or.inl hsame
        · refine Or.inr ⟨by omega, ?_⟩
          intro d hd
          have hd' := Date.le_iff.mp (hall' d (List.mem_append_right _ hd))
          exact Date.le_iff.mpr (by omega)
      · rintro (⟨rfl, hym⟩ | ⟨hmy, hrows⟩)
        · omega
        · have hnew : m' ≤ m := by
            rcases List.mem_append.mp hmem' with h | h
            · exact hall m' h
            · exact hrows m' h
          have hnew := Date.le_iff.mp hnew
          omega
  | none =>
    rw [hm] at hpos
    rw [maxDate_eq_none.mp hm, List.nil_append]
    cases hm' : maxDate (rows.filterMap TradeRow.tradeDate) with
    | none =>
      rw [maxDate_eq_none.mp hm']
      simp only at hpos ⊢
      constructor
      · rintro ⟨_, hstart⟩
        exact Or.inl ⟨trivial, by omega⟩
      · rintro (⟨_, rfl⟩ | ⟨⟨d, hd, _⟩, _⟩)
        · exact ⟨hpos, le_refl _⟩
        · cases hd
    | some m' =>
      obtain ⟨hmem', hall'⟩ := maxDate_eq_some.mp hm'
      simp only at hpos ⊢
      constructor
      · rintro ⟨hcal, hstart⟩
        refine Or.inr ⟨⟨m', hmem', by omega⟩, ?_⟩
        intro d hd
        have hd' := Date.le_iff.mp (hall' d hd)
        omega
      · rintro (⟨hnil, _⟩ | ⟨⟨d, hd, hcal⟩, hrows⟩)
        · rw [hnil] at hmem'
          cases hmem'
        · have hd' := Date.le_iff.mp (hall' d hd)
          have hlast := hrows m' hmem'
          omega

/-- **After a partial run.**  For every query of a scheduled run that failed while the run went on
to write the rows of the others: the window of a later attempt contains the one it was asked for
exactly when `NextTradesWindowReaches` holds of the store and the delivered rows; and an attempt
that ends well has asked the query for that later window. -/
theorem failed_query_reached_iff {env : Env} {payload : Dict} {gs : GoldenSource}
    {today today' : Date} {w : Wire} (hstores : StoresTrades env.writeAccountExecutionsToDb)
    (hfrom : optionalText payload "from_date" = .ok none)
    (hto : optionalText payload "to_date" = .ok none) (htoday : today ≤ today')
    (hok : (fetchFlexTradesAndUpsertExecutions env payload today gs w).result.ok = true) :
    let run := fetchFlexTradesAndUpsertExecutions env payload today gs w
    ∀ t ∈ run.turns, ∀ text, t.outcome = .failed text →
      ∃ a b : Date, t.key.fromDate = some (strftimeYmd a) ∧ t.key.toDate = some (strftimeYmd b) ∧
        ((∃ w', scheduledTradesWindow run.store today' = .ok w' ∧ w'.start ≤ a ∧ b ≤ w'.stop) ↔
          NextTradesWindowReaches gs (tradeRows run.turns) (today.ord - 1) (today'.ord - 1)) ∧
        ∀ (env' : Env) (w' : Wire), env'.tokens = env.tokens →
          let next := fetchFlexTradesAndUpsertExecutions env' payload today' run.store w'
          next.result.ok = true → ∃ win, scheduledTradesWindow run.store today' = .ok win ∧
            ∃ t' ∈ next.turns, t'.key.entry = t.key.entry ∧
              t'.key.fromDate = some (strftimeYmd win.start) ∧
              t'.key.toDate = some (strftimeYmd win.stop) := by
  intro run t ht text _
  obtain ⟨win, hwin, hkeys, hstore⟩ := scheduled_trades_ok hfrom hto hok
  obtain ⟨hqueries, hrange, hnewest⟩ := store_dates hstores hstore
  obtain ⟨hstop, hstart⟩ := scheduledTradesWindow_ok hwin
  have hkey := List.mem_map_of_mem (f := Turn.key) ht
  rw [hkeys] at hkey
  obtain ⟨hentry, hfd, htd⟩ := mem_tradesRequests hkey
  have hlater := Date.le_iff.mp htoday
  have hpos := win.start.one_le
  refine ⟨win.start, win.stop, hfd, htd, ?_, ?_⟩
  · rw [← tradesStart_le_iff (by omega) (hstart ▸ hpos) hrange hnewest,
      ← scheduledTradesWindow_reaches_iff]
    apply exists_congr
    intro w'
    apply and_congr_right
    intro hw'
    obtain ⟨hstop', _⟩ := scheduledTradesWindow_ok hw'
    have hend : win.stop ≤ w'.stop := Date.le_iff.mpr (by omega)
    rw [and_iff_left hend, Date.le_iff, hstart]
  · intro env' wire htokens next hnext
    have hsame : tradesEntries env' run.store = tradesEntries env gs := by
      unfold tradesEntries getFlexConfig
      rw [htokens, hqueries]
    obtain ⟨win', hwin', hkeys', _⟩ := scheduled_trades_ok hfrom hto hnext
    rw [← hsame] at hentry
    obtain ⟨i, hi⟩ := exists_tradesRequest
      ⟨some (strftimeYmd win'.start), some (strftimeYmd win'.stop), win'.mode, some win'.days⟩
      hentry
    rw [← hkeys'] at hi
    obtain ⟨t', ht', hkey'⟩ := List.mem_map.mp hi
    exact ⟨win', hwin', t', ht', by rw [hkey'], by rw [hkey'], by rw [hkey']⟩

/-! ## Two runs -/

/-- A writer that stores every row. -/
def writeAll (rows : List TradeRow) (gs : GoldenSource) : Except PyExc Bool × GoldenSource :=
  (.ok true, { gs with executions := gs.executions ++ rows.map fun r =>
    ⟨r.accountId, "flex_trades", r.tradeDate⟩ })

theorem writeAll_stores : StoresTrades writeAll where
  settingsFlex _ _ := rfl
  flexSettings _ _ := rfl
  dates := by
    intro rows gs _ d
    simp only [writeAll, flexDates, flexExecutions, List.filter_append, List.filterMap_append,
      List.mem_append]
    apply or_congr_right
    simp [List.filterMap_map, List.filter_map, List.mem_filterMap]

/-- A statement of U1 with one trade of 2026-09-02, at 09:30 in New York. -/
def tradesReport : String × Element :=
  ("<FlexQueryResponse><FlexStatements><FlexStatement accountId='U1'><Trades>" ++
    "<Trade accountId='U1' dateTime='20260902;093000' tradeDate='20260902' symbol='AAPL' />" ++
    "</Trades></FlexStatement></FlexStatements></FlexQueryResponse>",
    reportOf "U1" "Trades" [.mk "Trade"
      [("accountId", "U1"), ("dateTime", "20260902;093000"), ("tradeDate", "20260902"),
        ("symbol", "AAPL")] none [] ])

/-- 2026-09-02. -/
def tradesReportDay : Date := ⟨739861, by decide, by decide⟩

/-- The row of `tradesReport`. -/
def tradesReportRow : TradeRow := ⟨"U1", some 1788355800, some tradesReportDay, none⟩

/-- IB answers query 101 and has no statement for query 202. -/
def oneQueryAnswered : Env where
  flex := scripted
    (fun req =>
      match req with
      | .sendRequest _ "101" _ _ => acceptedDoc.1
      | .sendRequest .. => (refusedDoc "1003" "Statement is not available.").1
      | .getStatement .. => tradesReport.1)
    [acceptedDoc, refusedDoc "1003" "Statement is not available.", tradesReport]
  tokens := ⟨"host-token", "secondary-token"⟩
  postgresReady := true
  parseCashTransactionsXml := fun _ => .ok []
  parseTradesXml := fun body => .ok (if body = tradesReport.1 then [tradesReportRow] else [])
  upsertAccountTransactions := fun rows gs => (.ok (rows.length, 0), gs)
  writeAccountExecutionsToDb := writeAll

/-- Nothing imported yet. -/
def firstImport : GoldenSource where
  executions := []
  transactions := []
  settingsFlex := [⟨"101", "202", none, "trades"⟩]
  flexSettings := none

/-- U1 last traded on 2026-09-02. -/
def dailyImport : GoldenSource :=
  { firstImport with executions := [⟨"U1", "flex_trades", tradesReportDay⟩] }

/-- The payload of a queued run. -/
def queuedPayload : Dict := [("fallback", .bool false)]

/-- 2026-09-04. -/
def tradesToday : Date := ⟨739863, by decide, by decide⟩

theorem dailyImport_turns :
    (fetchFlexTradesAndUpsertExecutions oneQueryAnswered queuedPayload tradesToday dailyImport
      []).turns.map (fun t => (t.key, t.outcome)) =
      [(⟨0, ⟨"host-token", "101", "host", none⟩, some "20260803", some "20260903"⟩,
          .ok ([tradesReportRow], false, none)),
        (⟨1, ⟨"secondary-token", "202", "secondary", none⟩, some "20260803", some "20260903"⟩,
          .failed "Flex request failed: [1003] Statement is not available.")] := by
  decide +kernel

/-- A daily run that brings no newer trade leaves the window where it was. -/
theorem failed_query_reached_daily :
    ∃ t ∈ (fetchFlexTradesAndUpsertExecutions oneQueryAnswered queuedPayload tradesToday
        dailyImport []).turns,
      (∃ text, t.outcome = .failed text) ∧ ∃ a b : Date,
        t.key.fromDate = some (strftimeYmd a) ∧ t.key.toDate = some (strftimeYmd b) ∧
        ∃ w', scheduledTradesWindow (fetchFlexTradesAndUpsertExecutions oneQueryAnswered
            queuedPayload tradesToday dailyImport []).store tradesToday = .ok w' ∧
          w'.start ≤ a ∧ b ≤ w'.stop := by
  obtain ⟨t, ht, _, hout⟩ :=
    exists_turn dailyImport_turns (List.mem_cons_of_mem _ List.mem_cons_self)
  obtain ⟨a, b, hfd, htd, hiff, _⟩ :=
    @failed_query_reached_iff oneQueryAnswered queuedPayload dailyImport tradesToday tradesToday []
      writeAll_stores rfl rfl le_rfl (by decide +kernel) t ht _ hout
  refine ⟨t, ht, ⟨_, hout⟩, a, b, hfd, htd, hiff.mpr ?_⟩
  have hrows : tradeRows (fetchFlexTradesAndUpsertExecutions oneQueryAnswered queuedPayload
      tradesToday dailyImport []).turns = [tradesReportRow] := by
    decide +kernel
  have hnewest : maxDate (flexDates dailyImport) = some tradesReportDay := by decide +kernel
  rw [hrows, NextTradesWindowReaches, hnewest]
  exact Or.inr ⟨by decide, by decide⟩

/-- The first import of both accounts asks for 360 days.  U1 is written and U2 failed: the next
attempt asks for 31 days of both. -/
theorem failed_first_import :
    let run := fetchFlexTradesAndUpsertExecutions oneQueryAnswered queuedPayload tradesToday
      firstImport []
    StoresTrades oneQueryAnswered.writeAccountExecutionsToDb ∧ run.result.ok = true ∧
      run.turns.map (fun t => (t.key, t.outcome)) =
        [(⟨0, ⟨"host-token", "101", "host", none⟩, some "20250908", some "20260903"⟩,
            .ok ([tradesReportRow], false, none)),
          (⟨1, ⟨"secondary-token", "202", "secondary", none⟩, some "20250908", some "20260903"⟩,
            .failed "Flex request failed: [1003] Statement is not available.")] ∧
      ¬ ∀ t ∈ run.turns, ∀ text, t.outcome = .failed text → ∃ a b : Date,
        t.key.fromDate = some (strftimeYmd a) ∧ t.key.toDate = some (strftimeYmd b) ∧
        ∃ w', scheduledTradesWindow run.store tradesToday = .ok w' ∧
          w'.start ≤ a ∧ b ≤ w'.stop := by
  have hrun :
      let run := fetchFlexTradesAndUpsertExecutions oneQueryAnswered queuedPayload tradesToday
        firstImport []
      run.result.ok = true ∧
        run.turns.map (fun t => (t.key, t.outcome)) =
          [(⟨0, ⟨"host-token", "101", "host", none⟩, some "20250908", some "20260903"⟩,
              .ok ([tradesReportRow], false, none)),
            (⟨1, ⟨"secondary-token", "202", "secondary", none⟩, some "20250908", some "20260903"⟩,
              .failed "Flex request failed: [1003] Statement is not available.")] ∧
        scheduledTradesWindow run.store tradesToday =
          .ok ⟨⟨739831, by decide, by decide⟩, ⟨739862, by decide, by decide⟩, .incremental, 31⟩ := by
    decide +kernel
  obtain ⟨hok, hturns, hnext⟩ := hrun
  refine ⟨writeAll_stores, hok, hturns, ?_⟩
  intro hall
  obtain ⟨t, ht, hkey, hout⟩ :=
    exists_turn hturns (List.mem_cons_of_mem _ List.mem_cons_self)
  obtain ⟨a, b, hfd, _, w', hw', hstart, _⟩ := hall t ht _ hout
  rw [hkey] at hfd
  have ha : a = ⟨739502, by decide, by decide⟩ :=
    eq_of_strftimeYmd (by decide +kernel) (Option.some_injective _ hfd)
  rw [hnext] at hw'
  cases hw'
  rw [ha] at hstart
  exact absurd hstart (by decide)

end FlexQuery
