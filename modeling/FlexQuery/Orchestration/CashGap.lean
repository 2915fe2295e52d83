import FlexQuery.Orchestration.Transactions

/-!
# After a partial flex-transactions run

Some requests of a scheduled run failed, the rows of the others are written, and the next attempt
computes its window from the store as that write left it.

* `StoresRows` — what is relied on of `upsert_account_transactions`.
* `scheduledWindow_reaches_iff` — when a scheduled window reaches back to a day.
* `NextWindowReaches` — the same, from the store before the write and the rows written.
* `failed_chunk_reached_iff` — a failed chunk is asked for again exactly then.
* `failed_first_load` — a first load of two accounts, one of which failed: the next window leaves
  eleven months of the failed one out.
-/

set_option autoImplicit false

namespace FlexQuery

open Visit Interval

/-- `upsert_account_transactions` writes no other table; and when it reports rows written, the
days of an account are those it had and those of its rows. -/
structure StoresRows
    (upsert : List CashRow → GoldenSource → Except PyExc (ℕ × ℕ) × GoldenSource) : Prop where
  executions : ∀ rows gs, (upsert rows gs).2.executions = gs.executions
  settingsFlex : ∀ rows gs, (upsert rows gs).2.settingsFlex = gs.settingsFlex
  flexSettings : ∀ rows gs, (upsert rows gs).2.flexSettings = gs.flexSettings
  days : ∀ rows gs written skipped, (upsert rows gs).1 = .ok (written, skipped) → written ≠ 0 →
    ∀ acct d, acct ≠ "" → (d ∈ cashDays (upsert rows gs).2 acct ↔
      d ∈ cashDays gs acct ∨ ∃ r ∈ rows, r.accountId = acct ∧ r.ts = d)

/-- The account has a stored or a delivered row on that day. -/
def DayAfter (gs : GoldenSource) (rows : List CashRow) (acct : String) (d : Date) : Prop :=
  d ∈ cashDays gs acct ∨ ∃ r ∈ rows, r.accountId = acct ∧ r.ts = d

/-- Some account that counts has a stored or a delivered row. -/
def AnyDay (gs : GoldenSource) (rows : List CashRow) : Prop :=
  ∃ acct, Counted gs acct ∧ ∃ d, DayAfter gs rows acct d

/-- The window computed from these stored and delivered rows, up to that yesterday, reaches back
to day `a`: its margin does, or an account has no row after `a`. -/
def NextWindowReaches (gs : GoldenSource) (rows : List CashRow) (yesterday a : ℤ) : Prop :=
  (AnyDay gs rows ∧ 1 ≤ yesterday - (getFlexRangeDays gs).1 ∧
    (yesterday - (getFlexRangeDays gs).1 ≤ a ∨
      ∃ acct, Counted gs acct ∧ (∃ d, DayAfter gs rows acct d) ∧
        ∀ d, DayAfter gs rows acct d → d.ord ≤ a)) ∨
  (¬ AnyDay gs rows ∧ 1 ≤ yesterday - (getFlexRangeDays gs).2 ∧
    yesterday - (getFlexRangeDays gs).2 ≤ a)

/-! ## One store -/

theorem dayAfter_nil {gs : GoldenSource} {acct : String} {d : Date} :
    DayAfter gs [] acct d ↔ d ∈ cashDays gs acct := by
  simp [DayAfter]

/-- The newest stored day of an account that has one. -/
theorem exists_maxDate {ds : List Date} (h : ∃ d, d ∈ ds) : ∃ m, maxDate ds = some m := by
  obtain ⟨d, hd⟩ := h
  cases hm : maxDate ds with
  | none =>
    rw [maxDate_eq_none.mp hm] at hd
    cases hd
  | some m => exact ⟨m, rfl⟩

theorem readLastTransactionDates_ne_nil {gs : GoldenSource} :
    readLastTransactionDates gs ≠ [] ↔ AnyDay gs [] := by
  constructor
  · intro h
    obtain ⟨e, he⟩ := List.exists_mem_of_ne_nil _ h
    obtain ⟨hcounted, hmax⟩ := mem_readLastTransactionDates.mp he
    exact ⟨e.1, hcounted, e.2, dayAfter_nil.mpr (maxDate_eq_some.mp hmax).1⟩
  · rintro ⟨acct, hcounted, d, hd⟩
    obtain ⟨m, hm⟩ := exists_maxDate ⟨d, dayAfter_nil.mp hd⟩
    exact List.ne_nil_of_mem (mem_readLastTransactionDates.mpr ⟨hcounted, hm⟩)

/-- An account with no row after day `a` is an entry of the map that is not after `a`. -/
theorem lastDate_le_iff {gs : GoldenSource} {a : ℤ} :
    (∃ e ∈ readLastTransactionDates gs, e.2.ord ≤ a) ↔
      ∃ acct, Counted gs acct ∧ (∃ d, DayAfter gs [] acct d) ∧
        ∀ d, DayAfter gs [] acct d → d.ord ≤ a := by
  constructor
  · rintro ⟨e, he, hle⟩
    obtain ⟨hcounted, hmax⟩ := mem_readLastTransactionDates.mp he
    obtain ⟨hmem, hall⟩ := maxDate_eq_some.mp hmax
    refine ⟨e.1, hcounted, ⟨e.2, dayAfter_nil.mpr hmem⟩, ?_⟩
    intro d hd
    exact (Date.le_iff.mp (hall d (dayAfter_nil.mp hd))).trans hle
  · rintro ⟨acct, hcounted, ⟨d, hd⟩, hall⟩
    obtain ⟨m, hm⟩ := exists_maxDate ⟨d, dayAfter_nil.mp hd⟩
    exact ⟨(acct, m), mem_readLastTransactionDates.mpr ⟨hcounted, hm⟩,
      hall m (dayAfter_nil.mpr (maxDate_eq_some.mp hm).1)⟩

/-- When a scheduled window reaches back to a day. -/
theorem scheduledWindow_reaches_iff {gs : GoldenSource} {today : Date} {a : ℤ} :
    (∃ w, scheduledWindow gs today = .ok w ∧ w.start.ord ≤ a) ↔
      NextWindowReaches gs [] (today.ord - 1) a := by
  obtain ⟨hdef, hinit⟩ := getFlexRangeDays_pos gs
  have hmargin : windowMargin (readLastTransactionDates gs) (getFlexRangeDays gs).1
      (getFlexRangeDays gs).2 =
        if readLastTransactionDates gs = [] then (getFlexRangeDays gs).2
        else (getFlexRangeDays gs).1 := by
    rw [windowMargin, max_eq_right hdef, max_eq_right hinit]
  unfold NextWindowReaches
  rw [← readLastTransactionDates_ne_nil, ← lastDate_le_iff]
  by_cases hnil : readLastTransactionDates gs = []
  · rw [if_pos hnil] at hmargin
    constructor
    · rintro ⟨w, hw, hle⟩
      obtain ⟨hstop, _, hreach, _, hexact, _⟩ := transactionsWindow_ok hw
      have hpos := w.start.one_le
      rw [hmargin] at hreach hexact
      rw [hnil] at hexact
      rcases hexact with hexact | ⟨e, he, _⟩
      · exact Or.inr ⟨not_not_intro hnil, by omega, by omega⟩
      · cases he
    · rintro (⟨hne, _⟩ | ⟨_, hpos, hle⟩)
      · exact absurd hnil hne
      · obtain ⟨w, hw⟩ := transactionsWindow_isOk (hmargin ▸ hpos)
        obtain ⟨hstop, _, _, _, hexact, _⟩ := transactionsWindow_ok hw
        rw [hmargin, hnil] at hexact
        rcases hexact with hexact | ⟨e, he, _⟩
        · exact ⟨w, hw, by omega⟩
        · cases he
  · rw [if_neg hnil] at hmargin
    constructor
    · rintro ⟨w, hw, hle⟩
      obtain ⟨hstop, _, hreach, _, hexact, _⟩ := transactionsWindow_ok hw
      have hpos := w.start.one_le
      rw [hmargin] at hreach hexact
      refine Or.inl ⟨hnil, by omega, ?_⟩
      rcases hexact with hexact | ⟨e, he, hstart⟩
      · exact Or.inl (by omega)
      · exact Or.inr ⟨e, he, hstart ▸ hle⟩
    · rintro (⟨_, hpos, hle⟩ | ⟨hall, _⟩)
      · obtain ⟨w, hw⟩ := transactionsWindow_isOk (hmargin ▸ hpos)
        obtain ⟨hstop, _, hreach, hlast, _⟩ := transactionsWindow_ok hw
        rw [hmargin] at hreach
        refine ⟨w, hw, ?_⟩
        rcases hle with hle | ⟨e, he, hle⟩
        · omega
        · exact (Date.le_iff.mp (hlast e he)).trans hle
      · exact absurd hnil hall

/-! ## The store after a write -/

theorem Counted.congr {gs gs' : GoldenSource} (h : gs'.executions = gs.executions)
    (acct : String) : Counted gs' acct ↔ Counted gs acct := by
  unfold Counted
  rw [h]

/-- The window after a write, from the store before it and the rows written. -/
theorem nextWindowReaches_congr {gs gs' : GoldenSource} {rows : List CashRow} {y a : ℤ}
    (hexec : gs'.executions = gs.executions) (hset : gs'.flexSettings = gs.flexSettings)
    (hdays : ∀ acct d, acct ≠ "" → (d ∈ cashDays gs' acct ↔ DayAfter gs rows acct d)) :
    NextWindowReaches gs' [] y a ↔ NextWindowReaches gs rows y a := by
  have hrange : getFlexRangeDays gs' = getFlexRangeDays gs := by
    unfold getFlexRangeDays readFlexSettings
    rw [hset]
  have hday : ∀ acct, Counted gs acct → ∀ d,
      DayAfter gs' [] acct d ↔ DayAfter gs rows acct d := by
    intro acct hcounted d
    rw [dayAfter_nil]
    exact hdays acct d hcounted.1
  have hany : AnyDay gs' [] ↔ AnyDay gs rows := by
    constructor
    · rintro ⟨acct, hcounted, d, hd⟩
      have hcounted := (Counted.congr hexec acct).mp hcounted
      exact ⟨acct, hcounted, d, (hday acct hcounted d).mp hd⟩
    · rintro ⟨acct, hcounted, d, hd⟩
      exact ⟨acct, (Counted.congr hexec acct).mpr hcounted, d, (hday acct hcounted d).mpr hd⟩
  have hquiet : (∃ acct, Counted gs' acct ∧ (∃ d, DayAfter gs' [] acct d) ∧
        ∀ d, DayAfter gs' [] acct d → d.ord ≤ a) ↔
      ∃ acct, Counted gs acct ∧ (∃ d, DayAfter gs rows acct d) ∧
        ∀ d, DayAfter gs rows acct d → d.ord ≤ a := by
    apply exists_congr
    intro acct
    rw [Counted.congr hexec acct]
    apply and_congr_right
    intro hcounted
    simp only [hday acct hcounted]
  unfold NextWindowReaches
  rw [hany, hquiet, hrange]

/-- The store a scheduled run leaves when it ends well. -/
theorem store_days {env : Env} {gs gs' : GoldenSource} {rows : List CashRow}
    (hstores : StoresRows env.upsertAccountTransactions)
    (h : (rows = [] ∧ gs' = gs) ∨ ∃ written skipped, written ≠ 0 ∧
      env.upsertAccountTransactions rows gs = (.ok (written, skipped), gs')) :
    gs'.executions = gs.executions ∧ gs'.settingsFlex = gs.settingsFlex ∧
      gs'.flexSettings = gs.flexSettings ∧
      ∀ acct d, acct ≠ "" → (d ∈ cashDays gs' acct ↔ DayAfter gs rows acct d) := by
  rcases h with ⟨rfl, rfl⟩ | ⟨written, skipped, hne, hup⟩
  · exact ⟨rfl, rfl, rfl, fun acct d _ => dayAfter_nil.symm⟩
  · have hexec := hstores.executions rows gs
    have hqueries := hstores.settingsFlex rows gs
    have hset := hstores.flexSettings rows gs
    have hdays := hstores.days rows gs written skipped (congrArg Prod.fst hup) hne
    rw [hup] at hexec hqueries hset hdays
    exact ⟨hexec, hqueries, hset, hdays⟩

/-! ## The requests of a run -/

/-- The next run of the same queries, if it ends well, has asked for every day of its window. -/
theorem asked_again {env : Env} {payload : Dict} {gs : GoldenSource} {today : Date} {w : Wire}
    {win : Window} {req : CashRequest} (hfrom : optionalText payload "from_date" = .ok none)
    (hto : optionalText payload "to_date" = .ok none) (hwin : scheduledWindow gs today = .ok win)
    (hentry : (req.token, req.queryId) ∈ cashEntries env gs)
    (hok : (fetchCashTransactionsFromFlex env payload today gs w).result.ok = true) {d : ℤ}
    (h₁ : win.start.ord ≤ d) (h₂ : d ≤ win.stop.ord) :
    ∃ t ∈ (fetchCashTransactionsFromFlex env payload today gs w).turns,
      t.key.token = req.token ∧ t.key.queryId = req.queryId ∧
      ∃ a b : Date, t.key.chunk = (some (strftimeYmd a), some (strftimeYmd b)) ∧
        a.ord ≤ d ∧ d ≤ b.ord := by
  obtain ⟨win', days, hwin', hdays, hkeys, _⟩ := scheduled_run_ok hfrom hto hok
  rw [hwin] at hwin'
  cases hwin'
  have hle : win.start ≤ win.stop := Date.le_iff.mpr (h₁.trans h₂)
  obtain ⟨c, hc, hc₁, hc₂⟩ := (splitWindow_chunks hle hdays).2.tiles.covers d h₁ h₂
  obtain ⟨day, hday, rfl⟩ := List.mem_map.mp hc
  have hmem : (⟨req.token, req.queryId, some (strftimeYmd day.1), some (strftimeYmd day.2)⟩ :
      CashRequest) ∈ cashRequests (cashEntries env gs)
        (days.map fun c => (some (strftimeYmd c.1), some (strftimeYmd c.2))) :=
    mem_cashRequests.mpr ⟨hentry, List.mem_map_of_mem hday⟩
  rw [← hkeys] at hmem
  obtain ⟨t, ht, hkey⟩ := List.mem_map.mp hmem
  exact ⟨t, ht, by rw [hkey], by rw [hkey], day.1, day.2, by rw [hkey], hc₁, hc₂⟩

/-- **After a partial run.**  For every request of a scheduled run that failed while the run went
on to write the rows of the others: the window of a later attempt contains its chunk exactly when
`NextWindowReaches` holds of the stored and the delivered rows; and then an attempt that ends
well has asked for each of its days again. -/
theorem failed_chunk_reached_iff {env : Env} {payload : Dict} {gs : GoldenSource}
    {today today' : Date} {w : Wire} (hstores : StoresRows env.upsertAccountTransactions)
    (hfrom : optionalText payload "from_date" = .ok none)
    (hto : optionalText payload "to_date" = .ok none) (htoday : today ≤ today')
    (hok : (fetchCashTransactionsFromFlex env payload today gs w).result.ok = true) :
    let run := fetchCashTransactionsFromFlex env payload today gs w
    ∀ t ∈ run.turns, ∀ text, t.outcome = .failed text →
      ∃ a b : Date, a ≤ b ∧ t.key.chunk = (some (strftimeYmd a), some (strftimeYmd b)) ∧
        ((∃ w', scheduledWindow run.store today' = .ok w' ∧ w'.start ≤ a ∧ b ≤ w'.stop) ↔
          NextWindowReaches gs (cashRows run.turns) (today'.ord - 1) a.ord) ∧
        ((∃ w', scheduledWindow run.store today' = .ok w' ∧ w'.start ≤ a ∧ b ≤ w'.stop) →
          ∀ (env' : Env) (w' : Wire), env'.tokens = env.tokens →
            let next := fetchCashTransactionsFromFlex env' payload today' run.store w'
            next.result.ok = true → ∀ d, a.ord ≤ d → d ≤ b.ord →
              ∃ t' ∈ next.turns, t'.key.token = t.key.token ∧ t'.key.queryId = t.key.queryId ∧
                ∃ a' b' : Date, t'.key.chunk = (some (strftimeYmd a'), some (strftimeYmd b')) ∧
                  a'.ord ≤ d ∧ d ≤ b'.ord) := by
  intro run t ht text _
  obtain ⟨win, days, hwin, hdays, hkeys, hstore⟩ := scheduled_run_ok hfrom hto hok
  obtain ⟨hexec, hqueries, hset, hafter⟩ := store_days hstores hstore
  have hkey := List.mem_map_of_mem (f := Turn.key) ht
  rw [hkeys] at hkey
  obtain ⟨hentry, hchunk⟩ := mem_cashRequests.mp hkey
  obtain ⟨c, hc, hceq⟩ := List.mem_map.mp hchunk
  obtain ⟨hstop, _, hmargin, _⟩ := transactionsWindow_ok hwin
  have hpos : 1 ≤ windowMargin (readLastTransactionDates gs) (getFlexRangeDays gs).1
      (getFlexRangeDays gs).2 := by
    unfold windowMargin
    split <;> exact le_max_left _ _
  have hle : win.start ≤ win.stop := Date.le_iff.mpr (by omega)
  obtain ⟨_, hc₁, hc₂⟩ := (splitWindow_chunks hle hdays).2.tiles.bounds (c.1.ord, c.2.ord)
    (List.mem_map_of_mem hc)
  have hlater := Date.le_iff.mp htoday
  refine ⟨c.1, c.2, Date.le_iff.mpr hc₁, hceq.symm, ?_, ?_⟩
  · rw [← nextWindowReaches_congr hexec hset hafter, ← scheduledWindow_reaches_iff]
    apply exists_congr
    intro w'
    apply and_congr_right
    intro hw'
    obtain ⟨hstop', _⟩ := transactionsWindow_ok hw'
    have hend : c.2 ≤ w'.stop := Date.le_iff.mpr (by omega)
    exact and_iff_left hend
  · rintro ⟨w', hw', hstart, hend⟩ env' wire htokens next hnext d hd₁ hd₂
    have hsame : cashEntries env' run.store = cashEntries env gs := by
      unfold cashEntries getFlexConfig
      rw [htokens, hqueries]
    exact asked_again hfrom hto hw' (by rw [hsame]; exact hentry) hnext
      ((Date.le_iff.mp hstart).trans hd₁) (hd₂.trans (Date.le_iff.mp hend))

/-! ## Two runs -/

/-- A writer that skips the rows without an account. -/
def upsertNamed (rows : List CashRow) (gs : GoldenSource) :
    Except PyExc (ℕ × ℕ) × GoldenSource :=
  let named := rows.filter fun r => r.accountId ≠ ""
  (.ok (named.length, rows.length - named.length),
    { gs with transactions := gs.transactions ++ named.map fun r => ⟨r.accountId, r.ts⟩ })

theorem upsertNamed_stores : StoresRows upsertNamed where
  executions _ _ := rfl
  settingsFlex _ _ := rfl
  flexSettings _ _ := rfl
  days := by
    intro rows gs written skipped _ _ acct d hacct
    rw [mem_cashDays, mem_cashDays]
    simp only [upsertNamed, List.mem_append, List.mem_map, List.mem_filter, decide_eq_true_eq]
    constructor
    · rintro ⟨t, ht | ⟨r, ⟨hr, _⟩, rfl⟩, ha, hd⟩
      · exact Or.inl ⟨t, ht, ha, hd⟩
      · exact Or.inr ⟨r, hr, Option.some_injective _ ha, Option.some_injective _ hd⟩
    · rintro (⟨t, ht, ha, hd⟩ | ⟨r, hr, rfl, rfl⟩)
      · exact ⟨t, Or.inl ht, ha, hd⟩
      · exact ⟨_, Or.inr ⟨r, ⟨hr, hacct⟩, rfl⟩, rfl, rfl⟩

/-- A statement of U1 with one cash transaction of 2026-09-02. -/
def cashReport : String × Element :=
  ("<FlexQueryResponse><FlexStatements><FlexStatement accountId='U1'><CashTransactions>" ++
    "<CashTransaction accountId='U1' dateTime='20260902' amount='5' type='Dividends' />" ++
    "</CashTransactions></FlexStatement></FlexStatements></FlexQueryResponse>",
    reportOf "U1" "CashTransactions" [.mk "CashTransaction"
      [("accountId", "U1"), ("dateTime", "20260902"), ("amount", "5"), ("type", "Dividends")]
      none [] ])

/-- 2026-09-02. -/
def cashReportDay : Date := ⟨739861, Date.one_le_september2, Date.september2_le_max⟩

/-- IB answers query 101 and has no statement for query 202. -/
def oneAnswered : Env where
  flex := scripted
    (fun req =>
      match req with
      | .sendRequest _ "101" _ _ => acceptedDoc.1
      | .sendRequest .. => (refusedDoc "1019" "Statement generation in progress.").1
      | .getStatement .. => cashReport.1)
    [acceptedDoc, refusedDoc "1019" "Statement generation in progress.", cashReport]
  tokens := ⟨"host-token", "secondary-token"⟩
  postgresReady := true
  parseCashTransactionsXml := fun body =>
    .ok (if body = cashReport.1 then [⟨"U1", cashReportDay⟩] else [])
  parseTradesXml := fun _ => .ok []
  upsertAccountTransactions := upsertNamed
  writeAccountExecutionsToDb := fun _ gs => (.ok true, gs)

/-- Two accounts with Flex executions and no cash rows yet. -/
def firstLoad : GoldenSource where
  executions := [⟨"U1", "flex_trades", cashReportDay⟩, ⟨"U2", "flex_trades", cashReportDay⟩]
  transactions := []
  settingsFlex := [⟨"101", "202", none, "cash_transactions"⟩]
  flexSettings := none

/-- The same two accounts, last seen on 2026-09-02. -/
def dailyLoad : GoldenSource :=
  { firstLoad with transactions := [⟨"U1", cashReportDay⟩, ⟨"U2", cashReportDay⟩] }

/-- 2026-09-04. -/
def cashToday : Date := ⟨739863, Date.one_le_september4, Date.september4_le_max⟩

/-- A daily run loses nothing: the margin brings the failed chunk back. -/
theorem failed_chunk_reached_daily :
    ∃ t ∈ (fetchCashTransactionsFromFlex oneAnswered [] cashToday dailyLoad []).turns,
      (∃ text, t.outcome = .failed text) ∧ ∃ a b : Date,
        t.key.chunk = (some (strftimeYmd a), some (strftimeYmd b)) ∧
        ∃ w', scheduledWindow
            (fetchCashTransactionsFromFlex oneAnswered [] cashToday dailyLoad []).store cashToday =
              .ok w' ∧ w'.start ≤ a ∧ b ≤ w'.stop := by
  have hturns : (fetchCashTransactionsFromFlex oneAnswered [] cashToday dailyLoad []).turns.map
      (fun t => (t.key, t.outcome)) =
        [(⟨"host-token", "101", some "20260804", some "20260903"⟩, .ok [⟨"U1", cashReportDay⟩]),
          (⟨"secondary-token", "202", some "20260804", some "20260903"⟩,
            .failed "Flex request failed: [1019] Statement generation in progress.")] := by
    decide +kernel
  obtain ⟨t, ht, hkey, hout⟩ :=
    exists_turn hturns (List.mem_cons_of_mem _ List.mem_cons_self)
  obtain ⟨a, b, _, hchunk, hiff, _⟩ :=
    @failed_chunk_reached_iff oneAnswered [] dailyLoad cashToday cashToday [] upsertNamed_stores rfl
      rfl le_rfl (by decide +kernel) t ht _ hout
  refine ⟨t, ht, ⟨_, hout⟩, a, b, hchunk, hiff.mpr ?_⟩
  rw [hkey] at hchunk
  have ha : a = ⟨739832, by decide, by decide⟩ :=
    eq_of_strftimeYmd (by decide +kernel) (Option.some_injective _ (congrArg Prod.fst hchunk))
  refine Or.inl ⟨⟨"U1", by decide, cashReportDay, Or.inl (by decide)⟩, by decide, Or.inl ?_⟩
  rw [ha]
  decide

/-- The first load of both accounts asks for 360 days.  U1 is written and U2 failed: the next
attempt asks for 30 days of both. -/
theorem failed_first_load :
    let run := fetchCashTransactionsFromFlex oneAnswered [] cashToday firstLoad []
    StoresRows oneAnswered.upsertAccountTransactions ∧ run.result.ok = true ∧
      run.turns.map (fun t => (t.key, t.outcome)) =
        [(⟨"host-token", "101", some "20250908", some "20260903"⟩, .ok [⟨"U1", cashReportDay⟩]),
          (⟨"secondary-token", "202", some "20250908", some "20260903"⟩,
            .failed "Flex request failed: [1019] Statement generation in progress.")] ∧
      ¬ ∀ t ∈ run.turns, ∀ text, t.outcome = .failed text → ∃ a b : Date, a ≤ b ∧
        t.key.chunk = (some (strftimeYmd a), some (strftimeYmd b)) ∧
        ∃ w', scheduledWindow run.store cashToday = .ok w' ∧ w'.start ≤ a ∧ b ≤ w'.stop := by
  have hrun :
      let run := fetchCashTransactionsFromFlex oneAnswered [] cashToday firstLoad []
      run.result.ok = true ∧
        run.turns.map (fun t => (t.key, t.outcome)) =
          [(⟨"host-token", "101", some "20250908", some "20260903"⟩, .ok [⟨"U1", cashReportDay⟩]),
            (⟨"secondary-token", "202", some "20250908", some "20260903"⟩,
              .failed "Flex request failed: [1019] Statement generation in progress.")] ∧
        scheduledWindow run.store cashToday =
          .ok ⟨⟨739832, by decide, by decide⟩, ⟨739862, by decide, by decide⟩, .incremental, 30⟩ := by
    decide +kernel
  obtain ⟨hok, hturns, hnext⟩ := hrun
  refine ⟨upsertNamed_stores, hok, hturns, ?_⟩
  intro hall
  obtain ⟨t, ht, hkey, hout⟩ :=
    exists_turn hturns (List.mem_cons_of_mem _ List.mem_cons_self)
  obtain ⟨a, b, _, hchunk, w', hw', hstart, _⟩ := hall t ht _ hout
  rw [hkey] at hchunk
  have ha : a = ⟨739502, by decide, by decide⟩ :=
    eq_of_strftimeYmd (by decide +kernel) (Option.some_injective _ (congrArg Prod.fst hchunk))
  rw [hnext] at hw'
  cases hw'
  rw [ha] at hstart
  exact absurd hstart (by decide)

end FlexQuery
