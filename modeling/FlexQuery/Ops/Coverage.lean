import FlexQuery.Api.Metrics
import FlexQuery.Library.LeftJoin
import FlexQuery.Orchestration.CashGap

/-!
# Months without cash rows

`ops/coverage.py`: `COVERAGE_SQL` over the stored tables, and what is made of its rows.

* `Date.monthStart`, `monthLabel` — `date_trunc('month', …)`, and the month as `YYYY-MM`.
* `coverageRows`, `readCoverage` — the rows of the query, and `read_coverage`.
* `Uncovered` — an account traded in a closed month and has no cash row in it.
* `coverage_exact` — the gaps, the gauge and the check say exactly that.
* `backfill_closes` — a flex-transactions run that ends well closes the gaps it got rows for, no
  others, and opens none.
-/

set_option autoImplicit false

namespace FlexQuery

open Calendar LeftJoin Metrics

/-! ## Months -/

theorem monthStart_valid (d : Date) : Civil.Valid ⟨d.civil.year, d.civil.month, 1⟩ := by
  obtain ⟨⟨hyear, hlow, hhigh, hday, hlast⟩, _⟩ := d.civil_valid
  exact ⟨hyear, hlow, hhigh, le_refl 1, hday.trans hlast⟩

/-- `date_trunc('month', d)::date`. -/
def Date.monthStart (d : Date) : Date where
  ord := toOrdinal ⟨d.civil.year, d.civil.month, 1⟩
  one_le := by exact_mod_cast toOrdinal_pos (monthStart_valid d)
  le_max := by exact_mod_cast toOrdinal_le (monthStart_valid d) d.civil_valid.2

theorem civil_monthStart (d : Date) :
    d.monthStart.civil = ⟨d.civil.year, d.civil.month, 1⟩ := by
  show ofOrdinal (Int.toNat ((toOrdinal _ : ℕ) : ℤ)) = _
  rw [Int.toNat_natCast]
  exact ofOrdinal_toOrdinal (monthStart_valid d)

/-- `month.strftime("%Y-%m")`. -/
def monthLabel (m : Date) : String :=
  String.ofList (fourDigits m.civil.year ++ '-' :: twoDigits m.civil.month)

/-- A label tells its month. -/
theorem monthLabel_inj {a b : Date} (h : monthLabel a.monthStart = monthLabel b.monthStart) :
    a.monthStart = b.monthStart := by
  obtain ⟨⟨_, halow, hahigh, _⟩, hayear⟩ := a.civil_valid
  obtain ⟨⟨_, hblow, hbhigh, _⟩, hbyear⟩ := b.civil_valid
  have htext := congrArg String.toList h
  simp only [monthLabel, String.toList_ofList, civil_monthStart] at htext
  have hread := congrArg matchYear htext
  rw [matchYear_fourDigits hayear, matchYear_fourDigits hbyear] at hread
  have hyear : a.civil.year = b.civil.year := congrArg Prod.fst (Option.some.inj hread)
  have hrest := (List.cons.inj (congrArg Prod.snd (Option.some.inj hread))).2
  have hmonths := congrArg (fun t => (monthMatches t).head?) hrest
  have hamonth := monthMatches_twoDigits halow hahigh []
  have hbmonth := monthMatches_twoDigits hblow hbhigh []
  rw [List.append_nil] at hamonth hbmonth
  simp only [hamonth, hbmonth] at hmonths
  have hmonth : a.civil.month = b.civil.month := congrArg Prod.fst (Option.some.inj hmonths)
  apply Date.ext_ord
  show ((toOrdinal ⟨a.civil.year, a.civil.month, 1⟩ : ℕ) : ℤ) = toOrdinal _
  rw [hyear, hmonth]

/-! ## `read_coverage` -/

/-- An account and a month. -/
abbrev AccountMonth := String × Date

/-- The group of an execution: none without an account or a trade date, or in the open month. -/
def executionMonth (today : Date) (x : Execution) : Option AccountMonth :=
  match x.accountId, x.tradeDate with
  | some acct, some d => if d < today.monthStart then some (acct, d.monthStart) else none
  | _, _ => none

/-- The group of a cash transaction. -/
def cashMonth (x : CashTransaction) : Option AccountMonth :=
  match x.accountId, x.ts with
  | some acct, some d => some (acct, d.monthStart)
  | _, _ => none

/-- `ORDER BY e.month, e.account_id`. -/
def monthOrder (a b : AccountMonth) : Bool := a.2 < b.2 || (a.2 = b.2 && a.1 ≤ b.1)

/-- `COVERAGE_SQL`. -/
def coverageRows (gs : GoldenSource) (today : Date) : List (Bucket AccountMonth) :=
  leftJoin monthOrder (executionMonth today) cashMonth gs.executions gs.transactions

/-- `read_coverage`. -/
def readCoverage (gs : GoldenSource) (today : Date) : Coverage :=
  let rows := coverageRows gs today
  { accounts := (rows.map fun g => g.key.1).dedup.mergeSort
    gaps := (rows.filter Bucket.unmatched).map fun g => ⟨g.key.1, monthLabel g.key.2⟩ }

/-! ## What it says -/

/-- The account has an execution in the month, which is closed. -/
def Traded (gs : GoldenSource) (today : Date) (acct : String) (m : Date) : Prop :=
  ∃ x ∈ gs.executions, x.accountId = some acct ∧
    ∃ d, x.tradeDate = some d ∧ d < today.monthStart ∧ d.monthStart = m

/-- And no cash row in it. -/
def Uncovered (gs : GoldenSource) (today : Date) (acct : String) (m : Date) : Prop :=
  Traded gs today acct m ∧ ∀ d ∈ cashDays gs acct, d.monthStart ≠ m

theorem mem_executionMonths {gs : GoldenSource} {today : Date} {acct : String} {m : Date} :
    (acct, m) ∈ keysOf (executionMonth today) gs.executions ↔ Traded gs today acct m := by
  rw [mem_keysOf]
  unfold Traded
  refine exists_congr fun x => and_congr_right fun _ => ?_
  unfold executionMonth
  cases x.accountId with
  | none => simp
  | some a =>
    cases x.tradeDate with
    | none => simp
    | some d =>
      by_cases hclosed : d < today.monthStart
      · simp [hclosed]
      · simp [hclosed]

theorem mem_cashMonths {gs : GoldenSource} {acct : String} {m : Date} :
    (acct, m) ∈ keysOf cashMonth gs.transactions ↔ ∃ d ∈ cashDays gs acct, d.monthStart = m := by
  rw [mem_keysOf]
  simp only [mem_cashDays]
  constructor
  · rintro ⟨x, hx, hkey⟩
    unfold cashMonth at hkey
    split at hkey
    · rename_i a d hacct hts
      cases hkey
      exact ⟨d, ⟨x, hx, hacct, hts⟩, rfl⟩
    · cases hkey
  · rintro ⟨d, ⟨x, hx, hacct, hts⟩, rfl⟩
    exact ⟨x, hx, by simp [cashMonth, hacct, hts]⟩

/-- The keys of the groups without a cash row. -/
def gapKeys (gs : GoldenSource) (today : Date) : List AccountMonth :=
  ((coverageRows gs today).filter Bucket.unmatched).map Bucket.key

theorem gaps_eq (gs : GoldenSource) (today : Date) :
    (readCoverage gs today).gaps = (gapKeys gs today).map fun k => ⟨k.1, monthLabel k.2⟩ := by
  rw [gapKeys, List.map_map]
  rfl

theorem mem_gapKeys {gs : GoldenSource} {today : Date} {acct : String} {m : Date} :
    (acct, m) ∈ gapKeys gs today ↔ Uncovered gs today acct m := by
  rw [gapKeys, coverageRows, mem_unmatched, mem_executionMonths, mem_cashMonths, Uncovered]
  simp

theorem gapKeys_nodup (gs : GoldenSource) (today : Date) : (gapKeys gs today).Nodup :=
  nodup_leftJoin.sublist (List.filter_sublist.map _)

theorem mem_gaps {gs : GoldenSource} {today : Date} {g : CoverageGap} :
    g ∈ (readCoverage gs today).gaps ↔
      ∃ m, Uncovered gs today g.accountId m ∧ monthLabel m = g.month := by
  rw [gaps_eq, List.mem_map]
  constructor
  · rintro ⟨⟨acct, m⟩, hk, rfl⟩
    exact ⟨m, mem_gapKeys.mp hk, rfl⟩
  · rintro ⟨m, hm, hlabel⟩
    exact ⟨(g.accountId, m), mem_gapKeys.mpr hm, by rw [hlabel]⟩

theorem mem_accounts {gs : GoldenSource} {today : Date} {acct : String} :
    acct ∈ (readCoverage gs today).accounts ↔ ∃ m, Traded gs today acct m := by
  have haccounts : ∀ k, k ∈ (coverageRows gs today).map Bucket.key ↔ Traded gs today k.1 k.2 :=
    fun k => mem_map_key.trans mem_executionMonths
  simp only [readCoverage, List.mem_mergeSort, List.mem_dedup, List.mem_map]
  constructor
  · rintro ⟨g, hg, rfl⟩
    exact ⟨g.key.2, (haccounts g.key).mp (List.mem_map_of_mem hg)⟩
  · rintro ⟨m, hm⟩
    obtain ⟨g, hg, hkey⟩ := List.mem_map.mp ((haccounts (acct, m)).mpr hm)
    exact ⟨g, hg, by rw [hkey]⟩

/-- No gap is listed twice. -/
theorem gaps_nodup (gs : GoldenSource) (today : Date) : (readCoverage gs today).gaps.Nodup := by
  rw [gaps_eq]
  refine (gapKeys_nodup gs today).map_on ?_
  intro a ha b hb hgap
  obtain ⟨⟨_, _, _, d, _, _, hd⟩, _⟩ := mem_gapKeys.mp ha
  obtain ⟨⟨_, _, _, e, _, _, he⟩, _⟩ := mem_gapKeys.mp hb
  obtain ⟨hacct, hlabel⟩ := CoverageGap.mk.inj hgap
  rw [← hd, ← he] at hlabel
  exact Prod.ext hacct (by rw [← hd, ← he, monthLabel_inj hlabel])

/-- The months of one account's gaps. -/
theorem gapMonths_months (gs : GoldenSource) (today : Date) (acct : String) :
    ∃ months : List Date, months.Nodup ∧ (∀ m, m ∈ months ↔ Uncovered gs today acct m) ∧
      ((readCoverage gs today).gaps.filter fun g => g.accountId = acct).length =
        months.length := by
  refine ⟨((gapKeys gs today).filter fun k => k.1 = acct).map Prod.snd, ?_, fun m => ?_, ?_⟩
  · refine ((gapKeys_nodup gs today).filter _).map_on ?_
    intro a ha b hb hmonth
    have ha := of_decide_eq_true (List.mem_filter.mp ha).2
    have hb := of_decide_eq_true (List.mem_filter.mp hb).2
    exact Prod.ext (ha.trans hb.symm) hmonth
  · rw [← mem_gapKeys]
    simp
  · rw [gaps_eq, List.filter_map, List.length_map, List.length_map]
    rfl

/-! ## The gauge -/

theorem foldl_reset {α : Type} (xs : List α) (o : Option ℤ) :
    xs.foldl (fun _ _ => some 0) o = if xs = [] then o else some 0 := by
  induction xs generalizing o with
  | nil => rfl
  | cons x xs ih =>
    rw [List.foldl_cons, ih]
    simp

theorem foldl_increment {α : Type} (xs : List α) (n : ℤ) :
    xs.foldl (fun o _ => some (o.getD 0 + 1)) (some n) = some (n + xs.length) := by
  induction xs generalizing n with
  | nil => simp
  | cons x xs ih =>
    rw [List.foldl_cons, Option.getD_some, ih, List.length_cons]
    push_cast
    congr 1
    omega

/-- What `gap_months_by_account` says of an account that is listed, if all gaps are of such. -/
theorem find_gapMonths {coverage : Coverage}
    (h : ∀ g ∈ coverage.gaps, g.accountId ∈ coverage.accounts) (acct : String) :
    Tally.find (gapMonthsByAccount coverage) acct =
      if acct ∈ coverage.accounts then
        some ((coverage.gaps.filter fun g => g.accountId = acct).length : ℤ)
      else none := by
  -- The two loops are one run over the accounts and then the gaps.
  let key : String ⊕ CoverageGap → String := Sum.elim id CoverageGap.accountId
  let value : String ⊕ CoverageGap → Option ℤ → ℤ := Sum.elim (fun _ _ => 0) fun _ n => n.getD 0 + 1
  have hrun : gapMonthsByAccount coverage =
      Tally.run key value (coverage.accounts.map Sum.inl ++ coverage.gaps.map Sum.inr) := by
    rw [Tally.run, List.foldl_append, List.foldl_map, List.foldl_map]
    rfl
  rw [hrun, Tally.find_run, List.filter_append, List.foldl_append, List.filter_map,
    List.filter_map, List.foldl_map, List.foldl_map]
  change List.foldl (fun o _ => some (o.getD 0 + 1))
    (List.foldl (fun _ _ => some 0) none (coverage.accounts.filter fun a => a = acct))
    (coverage.gaps.filter fun g => g.accountId = acct) = _
  rw [foldl_reset]
  by_cases hmem : acct ∈ coverage.accounts
  · have hne : coverage.accounts.filter (fun a => a = acct) ≠ [] :=
      List.ne_nil_of_mem (List.mem_filter.mpr ⟨hmem, decide_eq_true rfl⟩)
    rw [if_neg hne, if_pos hmem, foldl_increment, zero_add]
  · have hnone : coverage.accounts.filter (fun a => a = acct) = [] := by
      rw [List.filter_eq_nil_iff]
      intro a ha hsame
      exact hmem (of_decide_eq_true hsame ▸ ha)
    have hgaps : coverage.gaps.filter (fun g => g.accountId = acct) = [] := by
      rw [List.filter_eq_nil_iff]
      intro g hg hsame
      exact hmem (of_decide_eq_true hsame ▸ h g hg)
    rw [if_pos hnone, if_neg hmem, hgaps]
    rfl

theorem coverageCheck_ok {coverage : Coverage} :
    (coverageCheck (some coverage) none).ok = true ↔ coverage.gaps = [] := by
  unfold coverageCheck
  by_cases hgaps : coverage.gaps = []
  · simp [hgaps]
  · simp [hgaps]

/-- **The ratchet is exact**, on every store: one gap for each account and closed month with
executions and no cash row; every account that traded is listed and gauged with the number of its
gaps; and the check is green when there is none. -/
theorem coverage_exact (gs : GoldenSource) (today : Date) :
    let coverage := readCoverage gs today
    (∀ g, g ∈ coverage.gaps ↔ ∃ m, Uncovered gs today g.accountId m ∧ monthLabel m = g.month) ∧
      coverage.gaps.Nodup ∧
      (∀ acct, Tally.find (gapMonthsByAccount coverage) acct ≠ none ↔
        ∃ m, Traded gs today acct m) ∧
      (∀ acct n, Tally.find (gapMonthsByAccount coverage) acct = some n →
        ∃ months : List Date, months.Nodup ∧ (∀ m, m ∈ months ↔ Uncovered gs today acct m) ∧
          n = months.length) ∧
      ((coverageCheck (some coverage) none).ok = true ↔ ∀ acct m, ¬ Uncovered gs today acct m) := by
  intro coverage
  have hgaps : ∀ g ∈ coverage.gaps, g.accountId ∈ coverage.accounts := by
    intro g hg
    obtain ⟨m, hm, _⟩ := mem_gaps.mp hg
    exact mem_accounts.mpr ⟨m, hm.1⟩
  refine ⟨fun g => mem_gaps, gaps_nodup gs today, fun acct => ?_, fun acct n hn => ?_, ?_⟩
  · have hlisted : acct ∈ coverage.accounts ↔ ∃ m, Traded gs today acct m := mem_accounts
    rw [find_gapMonths hgaps, ← hlisted]
    split
    · rename_i hmem
      simpa using hmem
    · rename_i hmem
      simpa using hmem
  · obtain ⟨months, hnodup, hmonths, hlength⟩ := gapMonths_months gs today acct
    rw [find_gapMonths hgaps] at hn
    split at hn
    · refine ⟨months, hnodup, hmonths, ?_⟩
      rw [← Option.some.inj hn, ← hlength]
    · cases hn
  · rw [coverageCheck_ok, List.eq_nil_iff_forall_not_mem]
    constructor
    · intro hnil acct m hm
      exact hnil ⟨acct, monthLabel m⟩ (mem_gaps.mpr ⟨m, hm, rfl⟩)
    · intro hnone g hg
      obtain ⟨m, hm, _⟩ := mem_gaps.mp hg
      exact hnone g.accountId m hm

/-! ## After a backfill -/

theorem uncovered_backfill {gs gs' : GoldenSource} {rows : List CashRow} {today : Date}
    (hexec : gs'.executions = gs.executions) {acct : String}
    (hdays : ∀ d, d ∈ cashDays gs' acct ↔ DayAfter gs rows acct d) (m : Date) :
    Uncovered gs' today acct m ↔ Uncovered gs today acct m ∧
      ∀ r ∈ rows, r.accountId = acct → r.ts.monthStart ≠ m := by
  unfold Uncovered Traded
  rw [hexec, and_assoc]
  refine and_congr_right fun _ => ?_
  simp only [hdays]
  constructor
  · intro h
    exact ⟨fun d hd => h d (Or.inl hd), fun r hr hacct => h r.ts (Or.inr ⟨r, hr, hacct, rfl⟩)⟩
  · rintro ⟨hold, hnew⟩ d (hd | ⟨r, hr, hacct, rfl⟩)
    · exact hold d hd
    · exact hnew r hr hacct

/-- **A backfill closes the gaps it got rows for**, no others, and opens none: any run of
flex-transactions that ends well, whatever its payload and whatever failed on the way, with a
writer that stores what it is given. -/
theorem backfill_closes {env : Env} (hstores : StoresRows env.upsertAccountTransactions)
    {payload : Dict} {today : Date} {gs : GoldenSource} {w : Wire}
    (hok : (fetchCashTransactionsFromFlex env payload today gs w).result.ok = true)
    (today' : Date) {g : CoverageGap} (hacct : g.accountId ≠ "") :
    let run := fetchCashTransactionsFromFlex env payload today gs w
    (g ∈ (readCoverage run.store today').gaps ↔ g ∈ (readCoverage gs today').gaps ∧
        ∀ r ∈ cashRows run.turns, r.accountId = g.accountId →
          monthLabel r.ts.monthStart ≠ g.month) ∧
      ∀ acct, acct ∈ (readCoverage run.store today').accounts ↔
        acct ∈ (readCoverage gs today').accounts := by
  intro run
  obtain ⟨req, chunks, _, _, _, _, _, hstore⟩ := cash_run_ok hok
  obtain ⟨hexec, _, _, hafter⟩ := store_days hstores hstore
  refine ⟨?_, fun acct => ?_⟩
  · have hgap : ∀ m, Uncovered run.store today' g.accountId m ↔
        Uncovered gs today' g.accountId m ∧
          ∀ r ∈ cashRows run.turns, r.accountId = g.accountId → r.ts.monthStart ≠ m :=
      uncovered_backfill hexec (hafter g.accountId · hacct)
    rw [mem_gaps, mem_gaps]
    constructor
    · rintro ⟨m, hm, hlabel⟩
      obtain ⟨hbefore, hrows⟩ := (hgap m).mp hm
      refine ⟨⟨m, hbefore, hlabel⟩, fun r hr hsame hmonth => ?_⟩
      obtain ⟨⟨_, _, _, d, _, _, rfl⟩, _⟩ := hbefore
      exact hrows r hr hsame (monthLabel_inj (hmonth.trans hlabel.symm))
    · rintro ⟨⟨m, hm, hlabel⟩, hrows⟩
      refine ⟨m, (hgap m).mpr ⟨hm, fun r hr hsame hmonth => ?_⟩, hlabel⟩
      exact hrows r hr hsame (by rw [hmonth, hlabel])
  · rw [mem_accounts, mem_accounts]
    unfold Traded
    rw [show run.store.executions = gs.executions from hexec]

/-- 2026-10-06. -/
def october6 : Date := ⟨739895, by decide, by decide⟩

/-- Both accounts traded in September; the run gets a row of U1 and none of U2. -/
theorem backfill_closes_september :
    let run := fetchCashTransactionsFromFlex oneAnswered [] cashToday firstLoad []
    (∀ acct ∈ ["U1", "U2"], ⟨acct, "2026-09"⟩ ∈ (readCoverage firstLoad october6).gaps) ∧
      ⟨"U1", "2026-09"⟩ ∉ (readCoverage run.store october6).gaps ∧
      ⟨"U2", "2026-09"⟩ ∈ (readCoverage run.store october6).gaps := by
  have hrun : (fetchCashTransactionsFromFlex oneAnswered [] cashToday firstLoad []).result.ok =
        true ∧
      cashRows (fetchCashTransactionsFromFlex oneAnswered [] cashToday firstLoad []).turns =
        [⟨"U1", cashReportDay⟩] := by
    decide +kernel
  obtain ⟨hok, hrows⟩ := hrun
  have hlabel : monthLabel cashReportDay.monthStart = "2026-09" := by decide
  have hbefore : ∀ acct ∈ ["U1", "U2"],
      (⟨acct, "2026-09"⟩ : CoverageGap) ∈ (readCoverage firstLoad october6).gaps := by
    intro acct hacct
    refine mem_gaps.mpr ⟨cashReportDay.monthStart, ⟨?_, fun d hd => absurd hd ?_⟩, hlabel⟩
    · rcases List.mem_pair.mp hacct with rfl | rfl
      · exact ⟨_, List.mem_cons_self, rfl, cashReportDay, rfl, by decide, rfl⟩
      · exact ⟨_, List.mem_cons_of_mem _ List.mem_cons_self, rfl, cashReportDay, rfl, by decide, rfl⟩
    · exact List.not_mem_nil
  have hclosed := fun acct (hacct : acct ≠ "") => (backfill_closes upsertNamed_stores hok october6
    (g := ⟨acct, "2026-09"⟩) hacct).1
  rw [hrows] at hclosed
  refine ⟨hbefore, ?_, ?_⟩
  · rw [hclosed "U1" (by decide)]
    rintro ⟨_, hnone⟩
    exact hnone ⟨"U1", cashReportDay⟩ List.mem_cons_self rfl hlabel
  · rw [hclosed "U2" (by decide)]
    refine ⟨hbefore "U2" (by simp), fun r hr hacct => ?_⟩
    rw [List.mem_singleton.mp hr] at hacct
    exact absurd hacct (by decide)

end FlexQuery
