import FlexQuery.Orchestration.TradesGap
import FlexQuery.Worker.Handlers

/-!
# What a job that is done has done

* `TradesComplete`, `CashComplete` — every fetch answered, and what came was written.
* `done_complete` — a dispatch that returns leaves a complete run, and the manual path marks the
  same runs done.
* `done_requests_configured` — a done run requested every query id on a side that has a token.
* `secondary_side_skipped` — ids on a side without a token are passed over, and the run is done.
-/

set_option autoImplicit false

namespace FlexQuery

open Visit

/-- Every query of the run answered, and either no row came or the writer took all of them. -/
def TradesComplete (env : Env) (payload : Dict) (today : Date) (gs : GoldenSource)
    (run : TradesRun) : Prop :=
  ∃ req, tradesWindow payload gs today = .ok req ∧
    run.turns.map Turn.key = tradesRequests (tradesEntries env gs) req ∧
    (∀ t ∈ run.turns, ∃ f, t.outcome = .ok f ∧
      Answered env.flex env.parseTradesXml t.key.entry.token t.key.entry.queryId t.key.fromDate
        t.key.toDate (allowFallback payload) t.before t.after f.1) ∧
    ((tradeRows run.turns = [] ∧ run.store = gs) ∨
      env.writeAccountExecutionsToDb (tradeRows run.turns) gs = (.ok true, run.store))

/-- Every query id and chunk of the run answered, and either no row came or the writer took all of
them and wrote some. -/
def CashComplete (env : Env) (payload : Dict) (today : Date) (gs : GoldenSource) (run : CashRun) :
    Prop :=
  ∃ req chunks, cashWindow payload gs today = .ok req ∧
    requestChunks req.fromDate req.toDate = .ok chunks ∧
    run.turns.map Turn.key = cashRequests (cashEntries env gs) chunks ∧
    (∀ t ∈ run.turns, ∃ rows, t.outcome = .ok rows ∧
      Answered env.flex env.parseCashTransactionsXml t.key.token t.key.queryId t.key.chunk.1
        t.key.chunk.2 (allowFallback payload && chunks.length = 1) t.before t.after rows) ∧
    ((cashRows run.turns = [] ∧ run.store = gs) ∨
      ∃ written skipped, written ≠ 0 ∧ env.upsertAccountTransactions (cashRows run.turns) gs =
        (.ok (written, skipped), run.store))

/-! ## No error, no failure -/

/-- In a run whose errors are all blank no query failed. -/
theorem trades_none_failed {n : ℕ} {turns : List TradesTurn}
    (h : ∀ e ∈ tradesErrors n turns, strip e = "") : ∀ t ∈ turns, ∀ text,
      t.outcome ≠ .failed text := by
  intro t ht text ho
  have hmem := List.mem_map_of_mem (f := fun f : TradesRequest × String =>
    "Flex query " ++ toString (f.1.index + 1) ++ "/" ++ toString n ++ " (" ++ f.1.entry.role ++
      " " ++ f.1.entry.queryId ++ "): " ++ f.2) (mem_failures.mpr ⟨t, ht, rfl, ho⟩)
  apply absurd (h _ hmem)
  have hhead : strip "Flex query " ≠ "" := by decide
  simp only [String.append_assoc]
  exact strip_append_ne hhead _

/-- The text a chunk of the real client fails with says something. -/
theorem fetchChunk_says {d : Deployment} {widen : Bool} {req : CashRequest} {w w' : Wire}
    {text : String} (h : fetchChunk d.env widen req w = (.failed text, w')) : strip text ≠ "" := by
  unfold fetchChunk at h
  cases hf : fetchReport d.env.flex d.env.parseCashTransactionsXml req.token req.queryId
      req.chunk.1 req.chunk.2 none w with
  | mk res w₁ =>
    rw [hf] at h
    cases res with
    | ok rows => cases h
    | error e =>
      cases e with
      | other cls msg => cases h
      | valueError e =>
        have he := d.cash_says hf
        simp only at h
        split at h
        · split at h
          · cases h
          · cases h
          · cases h
            exact strip_append_ne (strip_append_ne he _) _
        · cases h
          exact he

theorem cash_none_failed {d : Deployment} {widen : Bool} {entries : List (String × String)}
    {chunks : List Chunk} {w : Wire} {k : ℕ}
    (h : ∀ e ∈ cashErrors k (visit (fetchChunk d.env widen) (cashRequests entries chunks) w).1,
      strip e = "") :
    ∀ t ∈ (visit (fetchChunk d.env widen) (cashRequests entries chunks) w).1, ∀ text,
      t.outcome ≠ .failed text := by
  intro t ht text ho
  have hbody := (visit_turns t ht).2
  rw [ho] at hbody
  have hspoken := fetchChunk_says hbody
  have hne : text ≠ "" := by
    rintro rfl
    exact hspoken (by decide)
  have hmem : (t.key, text) ∈ (failures (visit (fetchChunk d.env widen)
      (cashRequests entries chunks) w).1).filter fun f => f.2 ≠ "" :=
    List.mem_filter.mpr ⟨mem_failures.mpr ⟨t, ht, rfl, ho⟩, decide_eq_true hne⟩
  have hblank := h _ (List.mem_map_of_mem hmem)
  simp only at hblank
  split at hblank
  · exact hspoken hblank
  · -- A text that ends in something said is not blank.
    rw [strip_eq_empty] at hblank
    apply hspoken
    rw [strip_eq_empty]
    intro c hc
    apply hblank c
    rw [String.toList_append]
    exact List.mem_append_right _ hc

/-- A turn that neither failed nor escaped has rows. -/
theorem outcome_ok {α : Type} {o : Outcome α PyExc} (hfailed : ∀ text, o ≠ .failed text)
    (hescaped : ∀ e, o ≠ .escaped e) : ∃ a, o = .ok a := by
  cases o with
  | ok a => exact ⟨a, rfl⟩
  | failed text => exact absurd rfl (hfailed text)
  | escaped e => exact absurd rfl (hescaped e)

theorem trades_complete {env : Env} {payload : Dict} {today : Date} {gs : GoldenSource} {w : Wire}
    {n : ℕ}
    (h : let r := (fetchFlexTradesAndUpsertExecutions env payload today gs w).result
      requireOk "flex-trades" r.ok r.error r.errors r.count = .ok n) :
    TradesComplete env payload today gs
      (fetchFlexTradesAndUpsertExecutions env payload today gs w) := by
  obtain ⟨hok, _, hblank⟩ := requireOk_eq_ok h
  obtain ⟨req, hwin, hrun, hkeys, herrors, hstore⟩ := trades_run_ok hok
  refine ⟨req, hwin, hkeys, ?_, hstore⟩
  rw [herrors] at hblank
  have hfailed := trades_none_failed hblank
  rw [hrun] at hok hfailed ⊢
  obtain ⟨hesc, _⟩ := finishTrades_ok hok
  intro t ht
  obtain ⟨f, hf⟩ := outcome_ok (hfailed t ht) (escapedOf_none hesc t ht)
  have hbody := (visit_turns t ht).2
  rw [hf] at hbody
  exact ⟨f, hf, fetchQuery_answered hbody⟩

theorem cash_complete {d : Deployment} {payload : Dict} {today : Date} {gs : GoldenSource}
    {w : Wire} {n : ℕ}
    (h : let r := (fetchCashTransactionsFromFlex d.env payload today gs w).result
      requireOk "flex-transactions" r.ok r.error r.errors r.count = .ok n) :
    CashComplete d.env payload today gs
      (fetchCashTransactionsFromFlex d.env payload today gs w) := by
  obtain ⟨hok, _, hblank⟩ := requireOk_eq_ok h
  obtain ⟨req, chunks, hwin, hchunks, hrun, hkeys, herrors, hstore⟩ := cash_run_ok hok
  refine ⟨req, chunks, hwin, hchunks, hkeys, ?_, hstore⟩
  rw [herrors] at hblank
  rw [hrun] at hok hblank ⊢
  have hfailed := cash_none_failed hblank
  obtain ⟨hesc, _⟩ := finishCash_ok hok
  intro t ht
  obtain ⟨rows, hrows⟩ := outcome_ok (hfailed t ht) (escapedOf_none hesc t ht)
  have hbody := (visit_turns t ht).2
  rw [hrows] at hbody
  exact ⟨rows, hrows, fetchChunk_answered hbody⟩

/-! ## The manual path -/

/-- `_audit_finish` marks the row done exactly when `_require_ok` lets the result pass, and failed
otherwise. -/
theorem auditFinish_agrees {now : Timestamp} {k : ℕ} {res : ManualResult} {t t' : JobTable}
    {r : JobRow} {count : ℕ} (label : String) (hrow : t.row k = some r)
    (h : auditFinish now k res t = .ok t') :
    ∃ r', t'.row k = some r' ∧
      (r'.status = .done ↔ ∃ n, requireOk label res.ok res.error res.errors count = .ok n) ∧
      (r'.status = .failed ↔ ∀ n, requireOk label res.ok res.error res.errors count ≠ .ok n) := by
  have hjudge : (∃ n, requireOk label res.ok res.error res.errors count = .ok n) ↔
      (res.ok && res.said.isEmpty) = true := by
    rw [Bool.and_eq_true, List.isEmpty_iff, ManualResult.said, List.filter_eq_nil_iff]
    constructor
    · rintro ⟨n, hn⟩
      obtain ⟨hok, _, hblank⟩ := requireOk_eq_ok hn
      exact ⟨hok, fun e he => by simpa using hblank e he⟩
    · rintro ⟨hok, hblank⟩
      refine ⟨count, ?_⟩
      have hsaid : (res.errors.filter fun e => strip e ≠ "") = [] :=
        List.filter_eq_nil_iff.mpr hblank
      unfold requireOk
      simp only [hok, hsaid, Bool.not_true, Bool.false_eq_true, if_false, ne_eq, not_true_eq_false]
  have hnever : (∀ n, requireOk label res.ok res.error res.errors count ≠ .ok n) ↔
      ¬ (res.ok && res.said.isEmpty) = true := by
    rw [← hjudge, not_exists]
  rw [hjudge, hnever]
  unfold auditFinish at h
  split at h
  · rename_i hdone
    exact ⟨_, markDone_row h hrow, iff_of_true rfl hdone, iff_of_false nofun (not_not.mpr hdone)⟩
  · rename_i hfailed
    exact ⟨_, markFailed_row h hrow, iff_of_false nofun hfailed, iff_of_true rfl hfailed⟩

/-- **Done means answered and written.**  A dispatch that returns leaves a complete run of its kind,
and the manual path marks a run's job done exactly when a queued one would be. -/
theorem done_complete (d : Deployment) (payload : Dict) (today : Date) (gs : GoldenSource)
    (w : Wire) :
    let trades := fetchFlexTradesAndUpsertExecutions d.env payload today gs w
    let cash := fetchCashTransactionsFromFlex d.env payload today gs w
    (∀ fresh kind out w' gs', dispatch d fresh kind payload today gs w = (.ok out, w', gs') →
      (strip kind = "flex-trades" ∧ TradesComplete d.env payload today gs trades ∧
        gs' = trades.store) ∨
      (strip kind = "flex-transactions" ∧ CashComplete d.env payload today gs cash ∧
        gs' = cash.store)) ∧
    ∀ (now : Timestamp) (k : ℕ) (t t' : JobTable) (r : JobRow), t.row k = some r →
      (auditFinish now k trades.result.manual t = .ok t' → ∃ r', t'.row k = some r' ∧
        (r'.status = .done ↔ ∃ n, requireOk "flex-trades" trades.result.ok trades.result.error
          trades.result.errors trades.result.count = .ok n)) ∧
      (auditFinish now k cash.result.manual t = .ok t' → ∃ r', t'.row k = some r' ∧
        (r'.status = .done ↔ ∃ n, requireOk "flex-transactions" cash.result.ok cash.result.error
          cash.result.errors cash.result.count = .ok n)) := by
  intro trades cash
  constructor
  · intro fresh kind out w' gs' h
    rcases dispatch_ok h with ⟨hkind, hok, _, hstore⟩ | ⟨hkind, hok, _, hstore⟩
    · exact Or.inl ⟨hkind, trades_complete hok, hstore⟩
    · exact Or.inr ⟨hkind, cash_complete hok, hstore⟩
  · intro now k t t' r hrow
    constructor
    · intro h
      obtain ⟨r', hr', hdone, _⟩ := auditFinish_agrees "flex-trades" hrow h
      exact ⟨r', hr', hdone⟩
    · intro h
      obtain ⟨r', hr', hdone, _⟩ := auditFinish_agrees "flex-transactions" hrow h
      exact ⟨r', hr', hdone⟩

/-! ## Every configured query -/

/-- A query id configured for the purpose, with the token of its side. -/
def Configured (gs : GoldenSource) (tokens : FlexTokens) (purpose tok qid : String) : Prop :=
  ∃ r ∈ gs.settingsFlex, r.purpose = some purpose ∧
    ((tok = strip tokens.host ∧ qid ∈ queryIds r.queryHostId) ∨
      (tok = strip tokens.secondary ∧ qid ∈ queryIds r.querySecondaryId))

/-- The query was requested with the token in some part of the wire. -/
def RequestedIn (tok qid : String) (sent : Wire) : Prop :=
  ∃ p dates ans, (.sendRequest tok qid p dates, ans) ∈ sent

theorem queryIds_trimmed {raw : Option String} {qid : String} (h : qid ∈ queryIds raw) :
    strip qid = qid ∧ qid ≠ "" := by
  obtain ⟨hmem, hne⟩ := List.mem_filter.mp h
  obtain ⟨x, _, rfl⟩ := List.mem_map.mp hmem
  exact ⟨strip_strip _, by simpa using hne⟩

/-- A configured id is an entry of the run, unless its side has no token. -/
theorem Configured.entry {gs : GoldenSource} {tokens : FlexTokens} {purpose tok qid : String}
    (h : Configured gs tokens purpose tok qid) (htok : tok ≠ "") :
    (strip tok = tok ∧ strip qid = qid ∧ qid ≠ "") ∧
      ∃ a ∈ getFlexConfig tokens purpose gs, a.token = tok ∧ a.queryId = qid := by
  obtain ⟨r, hr, hpurpose, hside⟩ := h
  have hrow : r ∈ gs.settingsFlex.filter fun r => r.purpose = some purpose :=
    List.mem_filter.mpr ⟨hr, decide_eq_true hpurpose⟩
  have hentry : ∀ role tok' raw, (role, tok', raw) ∈ [("host", strip tokens.host, r.queryHostId),
      ("secondary", strip tokens.secondary, r.querySecondaryId)] → tok' ≠ "" →
      qid ∈ queryIds raw →
      ∃ a ∈ getFlexConfig tokens purpose gs, a.token = tok' ∧ a.queryId = qid := by
    intro role tok' raw hside htok' hq
    refine ⟨⟨tok', qid, role, orNone (strip (r.queryLabel.getD "")),
      orNone (strip (r.purpose.getD ""))⟩, ?_, rfl, rfl⟩
    refine List.mem_flatMap.mpr ⟨r, hrow, List.mem_flatMap.mpr ⟨_, hside, ?_⟩⟩
    simp only [if_neg htok']
    exact List.mem_map_of_mem hq
  rcases hside with ⟨rfl, hq⟩ | ⟨rfl, hq⟩
  · exact ⟨⟨strip_strip _, queryIds_trimmed hq⟩, hentry _ _ _ List.mem_cons_self htok hq⟩
  · exact ⟨⟨strip_strip _, queryIds_trimmed hq⟩,
      hentry _ _ _ (List.mem_cons_of_mem _ (List.mem_singleton_self _)) htok hq⟩

theorem Configured.tradesEntry {env : Env} {gs : GoldenSource} {tok qid : String}
    (h : Configured gs env.tokens "trades" tok qid) (htok : tok ≠ "") :
    ∃ e ∈ tradesEntries env gs, e.token = tok ∧ e.queryId = qid := by
  obtain ⟨⟨hstok, hsqid, hqid⟩, a, ha, rfl, rfl⟩ := h.entry htok
  refine ⟨_, List.mem_filter.mpr ⟨List.mem_map_of_mem ha, ?_⟩, hstok, hsqid⟩
  simp only [hstok, hsqid]
  exact decide_eq_true ⟨htok, hqid⟩

theorem Configured.cashEntry {env : Env} {gs : GoldenSource} {tok qid : String}
    (h : Configured gs env.tokens "cash_transactions" tok qid) (htok : tok ≠ "") :
    (tok, qid) ∈ cashEntries env gs := by
  obtain ⟨⟨hstok, hsqid, hqid⟩, a, ha, rfl, rfl⟩ := h.entry htok
  refine List.mem_filter.mpr ⟨List.mem_map.mpr ⟨a, ha, ?_⟩, decide_eq_true ⟨htok, hqid⟩⟩
  rw [hstok, hsqid]

theorem TradesComplete.requests {env : Env} {payload : Dict} {today : Date} {gs : GoldenSource}
    {w : Wire} {tok qid : String}
    (h : TradesComplete env payload today gs
      (fetchFlexTradesAndUpsertExecutions env payload today gs w))
    (hconf : Configured gs env.tokens "trades" tok qid) (htok : tok ≠ "") :
    ∃ sent, (fetchFlexTradesAndUpsertExecutions env payload today gs w).wire = w ++ sent ∧
      RequestedIn tok qid sent := by
  obtain ⟨req, _, hkeys, hall, _⟩ := h
  obtain ⟨e, he, rfl, rfl⟩ := hconf.tradesEntry htok
  obtain ⟨i, hi⟩ := exists_tradesRequest req he
  rw [← hkeys] at hi
  obtain ⟨t, ht, hkey⟩ := List.mem_map.mp hi
  obtain ⟨f, _, hanswered⟩ := hall t ht
  obtain ⟨p, dates, ans, hsent⟩ := hanswered.requested
  rw [hkey] at hsent
  exact ⟨_, (trades_run_sends env payload today gs w).1, p, dates, ans,
    List.mem_flatMap.mpr ⟨t, ht, hsent⟩⟩

theorem CashComplete.requests {env : Env} {payload : Dict} {today : Date} {gs : GoldenSource}
    {w : Wire} {tok qid : String}
    (h : CashComplete env payload today gs (fetchCashTransactionsFromFlex env payload today gs w))
    (hconf : Configured gs env.tokens "cash_transactions" tok qid) (htok : tok ≠ "") :
    ∃ sent, (fetchCashTransactionsFromFlex env payload today gs w).wire = w ++ sent ∧
      RequestedIn tok qid sent := by
  obtain ⟨req, chunks, _, hchunks, hkeys, hall, _⟩ := h
  obtain ⟨c, hc⟩ := requestChunks_ne_nil hchunks
  have hi : (⟨tok, qid, c⟩ : CashRequest) ∈ cashRequests (cashEntries env gs) chunks :=
    mem_cashRequests.mpr ⟨hconf.cashEntry htok, hc⟩
  rw [← hkeys] at hi
  obtain ⟨t, ht, hkey⟩ := List.mem_map.mp hi
  obtain ⟨rows, _, hanswered⟩ := hall t ht
  obtain ⟨p, dates, ans, hsent⟩ := hanswered.requested
  rw [hkey] at hsent
  obtain ⟨_, _, _, hwire, _⟩ := cash_run_sends env payload today gs w
  exact ⟨_, hwire, p, dates, ans, List.mem_flatMap.mpr ⟨t, ht, hsent⟩⟩

/-- **Every query with a token is requested.**  A run that ends as done has requested every query
id configured for its purpose on a side whose token is not blank. -/
theorem done_requests_configured {d : Deployment} {fresh : FreshnessDb} {kind : String}
    {payload : Dict} {today : Date} {gs gs' : GoldenSource} {w w' : Wire} {out : Dispatched}
    (h : dispatch d fresh kind payload today gs w = (.ok out, w', gs')) :
    ∃ purpose, ((strip kind = "flex-trades" ∧ purpose = "trades") ∨
      (strip kind = "flex-transactions" ∧ purpose = "cash_transactions")) ∧
      ∀ tok qid, Configured gs d.tokens purpose tok qid → tok ≠ "" →
        ∃ sent, w' = w ++ sent ∧ RequestedIn tok qid sent := by
  rcases dispatch_ok h with ⟨hkind, hok, rfl, _⟩ | ⟨hkind, hok, rfl, _⟩
  · exact ⟨_, Or.inl ⟨hkind, rfl⟩, fun tok qid hconf htok =>
      (trades_complete hok).requests hconf htok⟩
  · exact ⟨_, Or.inr ⟨hkind, rfl⟩, fun tok qid hconf htok =>
      (cash_complete hok).requests hconf htok⟩

/-! ## A run on the host side -/

/-- IB answers every query with one fill; only the host side has a token. -/
def hostOnly : Deployment where
  flex := scripted
    (fun req =>
      match req with
      | .sendRequest .. => acceptedDoc.1
      | .getStatement .. => tradesReport.1)
    [acceptedDoc, tradesReport]
  zone := easternZone
  tokens := ⟨"host-token", ""⟩
  postgresReady := true
  upsertAccountTransactions := fun rows gs => (.ok (rows.length, 0), gs)
  writeAccountExecutionsToDb := writeAll

def freshnessUp : FreshnessDb := ⟨.ok (), some 1, fun _ _ _ => .ok ()⟩

/-- Queries 101 and 102 on the host side. -/
def hostQueries : GoldenSource := { dailyImport with settingsFlex := [⟨"101, 102", none, none,
  "trades"⟩] }

theorem hostOnly_dispatch :
    let run := fetchFlexTradesAndUpsertExecutions hostOnly.env queuedPayload tradesToday
      hostQueries []
    dispatch hostOnly freshnessUp "flex-trades" queuedPayload tradesToday hostQueries [] =
      (.ok ⟨2, some 1⟩, run.wire, run.store) :=
  dispatch_trades rfl (by decide +kernel) rfl

/-- Both queries of the host side have answered and were written. -/
theorem done_complete_host :
    TradesComplete hostOnly.env queuedPayload tradesToday hostQueries
      (fetchFlexTradesAndUpsertExecutions hostOnly.env queuedPayload tradesToday hostQueries
        []) := by
  obtain ⟨hdone, _⟩ := done_complete hostOnly queuedPayload tradesToday hostQueries []
  rcases hdone _ _ _ _ _ hostOnly_dispatch with ⟨_, h, _⟩ | ⟨hkind, _⟩
  · exact h
  · exact absurd hkind (by decide)

/-- Query 102 was requested with the host token. -/
theorem done_requests_host :
    RequestedIn "host-token" "102"
      (fetchFlexTradesAndUpsertExecutions hostOnly.env queuedPayload tradesToday hostQueries
        []).wire := by
  obtain ⟨purpose, hkind, hall⟩ := done_requests_configured hostOnly_dispatch
  have hpurpose : purpose = "trades" := by
    rcases hkind with ⟨_, h⟩ | ⟨h, _⟩
    · exact h
    · exact absurd h (by decide)
  subst hpurpose
  have hconf : Configured hostQueries hostOnly.tokens "trades" "host-token" "102" :=
    ⟨_, List.mem_singleton_self _, rfl, Or.inl ⟨by decide, by decide⟩⟩
  obtain ⟨sent, hwire, hsent⟩ := hall _ _ hconf (by decide)
  rw [hwire]
  exact hsent

/-- Query 202 of the secondary side, which has no token, is never requested, and the run is
done. -/
theorem secondary_side_skipped :
    let run := dispatch hostOnly freshnessUp "flex-trades" queuedPayload tradesToday dailyImport []
    run.1 = .ok ⟨1, some 1⟩ ∧ Configured dailyImport hostOnly.tokens "trades" "" "202" ∧
      ¬ ∃ tok, RequestedIn tok "202" run.2.1 := by
  have hsent : (dispatch hostOnly freshnessUp "flex-trades" queuedPayload tradesToday dailyImport
      []).2.1.map (·.1) =
        [.sendRequest "host-token" "101" none (some ("20260803", "20260903")),
          .getStatement "host-token" "7"] := by
    decide +kernel
  have hconf : Configured dailyImport hostOnly.tokens "trades" "" "202" :=
    ⟨⟨"101", "202", none, "trades"⟩, List.mem_singleton_self _, rfl,
      Or.inr ⟨by decide, by decide⟩⟩
  refine ⟨by decide +kernel, hconf, ?_⟩
  rintro ⟨tok, p, dates, ans, hmem⟩
  have hreq := List.mem_map_of_mem (f := (·.1)) hmem
  rw [hsent] at hreq
  simp at hreq

end FlexQuery
