import FlexQuery.Client.DateTimes
import FlexQuery.Client.TradesParser

/-!
# The two readings of `tradeDate`

A row's `trade_date` is read by `_parse_yyyymmdd_to_date`, its time (when `dateTime` has none) by
`parse_flex_datetime`.

* `firstReading_ymd` — a text that begins with its day in eight digits is read on that day.
* `Zone.dayAt` — the day the local clock shows at an instant.
* `trade_date_iff` — when the two agree.
-/

set_option autoImplicit false

namespace FlexQuery

open Calendar WallClock

/-! ## A day in eight digits -/

theorem toLower_dash {c : Char} (h : c.toLower = '-') : c = '-' := by
  unfold Char.toLower at h
  split at h
  · rename_i hupper
    have hval := congrArg (fun x : Char => x.val.toNat) h
    have hlow := UInt32.le_iff_toNat_le.mp hupper.1
    have hhigh := UInt32.le_iff_toNat_le.mp hupper.2
    simp at hval hlow hhigh
    omega
  · exact h

/-- A format that asks for a dash after the year finds one there. -/
theorem strptime_dash {ds : List Directive} {name s : String} {d : DateTime}
    (h : strptime (.year :: .lit '-' :: ds) name s = .ok d) : '-' ∈ s.toList.take 8 := by
  obtain ⟨r, hmem, _⟩ := strptime_match h
  obtain ⟨y, hy, hmem⟩ := mem_matchFormat_cons hmem
  obtain ⟨x, hx, _⟩ := mem_matchFormat_cons hmem
  obtain ⟨year, hyear, _, hlen, _⟩ := Directive.took (by decide) hy
  obtain ⟨dash, hdash, hne, _, hreads⟩ := Directive.took (by decide) hx
  obtain ⟨c, t, rfl⟩ := List.exists_cons_of_ne_nil hne
  have hc : c = '-' := toLower_dash (hreads c List.mem_cons_self)
  simp only [Directive.width] at hlen
  obtain ⟨k, hk⟩ : ∃ k, 8 - year.length = k + 1 := ⟨7 - year.length, by omega⟩
  rw [hyear, hdash, List.cons_append, List.take_append, hk, List.take_succ_cons, hc]
  exact List.mem_append_right _ List.mem_cons_self

/-- The first eight characters hold no dash. -/
theorem no_dash_of_ymd {s : String} {d : Date} (h : strptimeYmd s = .ok d) : '-' ∉ s.toList := by
  intro hdash
  have hread : strptime [.year, .month, .day] "%Y%m%d" s = .ok (.midnight d) := by
    rw [strptime_ymd, h]
    rfl
  obtain ⟨dir, hdir, hreads⟩ := (strptime_fits hread).1 '-' hdash
  have hnumeral : ∀ dir ∈ [Directive.year, .month, .day], ¬ dir.reads '-' := by decide
  exact hnumeral dir hdir hreads

theorem dashed_refuse {f : FlexFormat} {ds : List Directive} {s : String}
    (hf : f.1.1 = .year :: .lit '-' :: ds) (hwide : 8 ≤ f.2.1)
    (hdash : '-' ∉ s.toList.take 8) : readAs f s = none := by
  apply readAs_none
  intro d hread
  rw [hf] at hread
  have hmem := strptime_dash hread
  rw [slice_toList, List.take_take, Nat.min_eq_left hwide] at hmem
  exact hdash hmem

/-- **The same day.**  A text that begins with a day in eight digits is read on that day, with the
time that follows it or without. -/
theorem firstReading_ymd {s : String} {d : Date} (hlen : 8 ≤ s.toList.length)
    (hd : strptimeYmd (slice s 8) = .ok d) :
    ∃ dt dateOnly, firstReading s = some (dt, dateOnly) ∧ dt.date = d := by
  have hdash := no_dash_of_ymd hd
  rw [slice_toList] at hdash
  have hletter : readAs letterTimed s = none := dashed_refuse rfl (by decide) hdash
  have hblank : readAs blankTimed s = none := dashed_refuse rfl (by decide) hdash
  have hday : readAs compactDay s = some (.midnight d, true) := by
    have hread : strptime compactDay.1.1 compactDay.1.2 (slice s compactDay.2.1) =
        .ok (.midnight d) := by
      have heq := strptime_ymd (slice s 8)
      rw [hd] at heq
      exact heq
    unfold readAs
    rw [if_neg (show ¬ s.toList.length < compactDay.2.1 by simp only [compactDay]; omega), hread]
    rfl
  rw [firstReading_eq, flexFormats_eq]
  cases hcompact : readAs compactTimed s with
  | none =>
    refine ⟨.midnight d, true, ?_, rfl⟩
    simp only [List.findSome?_cons, hcompact, hletter, hblank, hday]
  | some r =>
    refine ⟨r.1, r.2, by simp only [List.findSome?_cons, hcompact], ?_⟩
    unfold readAs at hcompact
    split at hcompact
    · cases hcompact
    · rename_i hlong
      cases hread : strptime compactTimed.1.1 compactTimed.1.2 (slice s compactTimed.2.1) with
      | error e =>
        rw [hread] at hcompact
        cases hcompact
      | ok dt =>
        rw [hread] at hcompact
        cases hcompact
        refine @strptime_compact (slice s 15) _ dt d ?_ hread ?_
        · have hlong : ¬ s.toList.length < 15 := hlong
          rw [slice_toList, List.length_take]
          omega
        · rw [show slice (slice s 15) 8 = slice s 8 by
            unfold slice
            rw [String.toList_ofList, List.take_take]
            rfl]
          exact hd

/-- No answer comes of fewer than eight characters. -/
theorem parseFlexDatetime_long {zone : Zone} {raw : String} {t : ℤ} {dateOnly : Bool}
    (h : parseFlexDatetime zone raw = .ok (some t, dateOnly)) : 8 ≤ (strip raw).toList.length := by
  by_contra hshort
  have hformats : ∀ f ∈ FLEX_DATETIME_FORMATS, 8 ≤ f.2.1 := by decide
  have hreading : firstReading (strip raw) = none := by
    rw [firstReading_eq, List.findSome?_eq_none_iff]
    intro f hf
    have hwide := hformats f hf
    exact readAs_short (by omega)
  have hsearch : searchEightDigits (strip raw) = none := by
    unfold searchEightDigits
    rw [List.findSome?_eq_none_iff]
    intro tail htail
    have hle := ((List.mem_tails _ _).mp htail).length_le
    rw [if_neg]
    rintro ⟨hlong, _⟩
    omega
  unfold parseFlexDatetime at h
  simp only [hreading, hsearch] at h
  split at h <;> cases h

/-! ## The day of a row -/

/-- The ordinal of the day that the local clock shows at an instant. -/
def Zone.dayAt (zone : Zone) (t : ℤ) : ℤ := (t + zone.utcoffset t) / 86400 + 719163

/-- The clock is set forward over the reading, and past midnight by it. -/
def CarriedOver (zone : Zone) (w : ℤ) : Prop :=
  ∃ T, T + zone.utcoffset (T - 1) ≤ w ∧ w < T + zone.utcoffset T ∧
    (w + (zone.utcoffset T - zone.utcoffset (T - 1))) / 86400 ≠ w / 86400

/-- The day on the local clock is that of the reading unless the clock is set past midnight. -/
theorem dayAt_iff {zone : Zone} {jump apart t : ℤ} {d : DateTime} (hzone : zone.Lawful jump apart)
    (h : d.toUtc zone = .ok t) : d.date.ord = zone.dayAt t ↔ ¬ CarriedOver zone d.unix := by
  have hsec := d.sec_lt
  have hunix : d.unix / 86400 + 719163 = d.date.ord := by
    unfold DateTime.unix
    omega
  by_cases hskip : Skipped zone.utcoffset d.unix
  · obtain ⟨T, hlow, hhigh⟩ := hskip
    have hlate : ∀ T, T + zone.utcoffset (T - 1) ≤ d.unix → d.unix < T + zone.utcoffset T →
        zone.dayAt t = (d.unix + (zone.utcoffset T - zone.utcoffset (T - 1))) / 86400 + 719163 := by
      intro T hlow hhigh
      unfold Zone.dayAt
      rw [(DateTime.toUtc_eq_ok.mp h).1, hzone.resolves.late hzone.steps hlow hhigh]
    constructor
    · rintro hday ⟨S, hS, hS', hcarried⟩
      have := hlate S hS hS'
      omega
    · intro hcarried
      have hshift := hlate T hlow hhigh
      have hsame : (d.unix + (zone.utcoffset T - zone.utcoffset (T - 1))) / 86400 =
          d.unix / 86400 := by
        by_contra hne
        exact hcarried ⟨T, hlow, hhigh, hne⟩
      omega
  · have hclock := toUtc_clock hzone hskip h
    refine iff_of_true ?_ ?_
    · unfold Zone.dayAt
      omega
    · rintro ⟨T, hlow, hhigh, _⟩
      exact hskip ⟨T, hlow, hhigh⟩

theorem parseYyyymmddToDate_eq_some {raw : String} {d : Date} (hstrip : strip raw = raw)
    (hne : raw ≠ "") :
    parseYyyymmddToDate raw = some d ↔ strptimeYmd (slice raw 8) = .ok d := by
  unfold parseYyyymmddToDate
  rw [hstrip, if_neg hne]
  cases strptimeYmd (slice raw 8) with
  | error e => exact iff_of_false (by intro h; cases h) (by intro h; cases h)
  | ok x => exact ⟨fun h => congrArg Except.ok (Option.some.inj h),
      fun h => congrArg some (Except.ok.inj h)⟩

/-- The same of one text, read both ways. -/
theorem ymd_iff {zone : Zone} {jump apart t : ℤ} {raw : String} {dateOnly : Bool}
    (hzone : zone.Lawful jump apart) (hstrip : strip raw = raw)
    (hread : parseFlexDatetime zone raw = .ok (some t, dateOnly)) :
    (∃ d, parseYyyymmddToDate raw = some d ∧ d.ord = zone.dayAt t) ↔
      (∃ d, strptimeYmd (slice raw 8) = .ok d) ∧
        ∀ dt dateOnly, firstReading raw = some (dt, dateOnly) → ¬ CarriedOver zone dt.unix := by
  have hlen := parseFlexDatetime_long hread
  rw [hstrip] at hlen
  have hne : raw ≠ "" := by
    rintro rfl
    simp at hlen
  simp only [parseYyyymmddToDate_eq_some hstrip hne]
  have hday : ∀ d, strptimeYmd (slice raw 8) = .ok d → (d.ord = zone.dayAt t ↔
      ∀ dt dateOnly, firstReading raw = some (dt, dateOnly) → ¬ CarriedOver zone dt.unix) := by
    intro d hd
    obtain ⟨dt, b, hfirst, rfl⟩ := firstReading_ymd hlen hd
    have hutc : dt.toUtc zone = .ok t := by
      rw [parseFlexDatetime_of_reading (by rw [hstrip, hfirst])] at hread
      cases hutc : dt.toUtc zone with
      | error e =>
        rw [hutc] at hread
        cases hread
      | ok u =>
        rw [hutc] at hread
        cases hread
        rfl
    rw [dayAt_iff hzone hutc]
    constructor
    · intro hcarried dt' b' heq
      rw [hfirst] at heq
      cases heq
      exact hcarried
    · intro hall
      exact hall dt b hfirst
  constructor
  · rintro ⟨d, hd, hord⟩
    exact ⟨⟨d, hd⟩, (hday d hd).mp hord⟩
  · rintro ⟨⟨d, hd⟩, hall⟩
    exact ⟨d, hd, (hday d hd).mpr hall⟩

theorem tradeRow_tradeDate {zone : Zone} {acct : String} {elem : Element} {row : FlexTrade}
    (h : tradeRow zone acct elem = .ok (some row)) :
    row.tradeDate = parseYyyymmddToDate (attr (tradeAttrs elem) "tradeDate") := by
  obtain ⟨_, _, _, _, _, rfl⟩ := tradeRow_some h
  rfl

/-- **`trade_date` and the time.**  A row whose `tradeDate` can be read as an instant has the local
day of that instant if and only if the attribute begins with its day in eight digits and the local
clock is not set past midnight over the reading. -/
theorem trade_date_iff {zone : Zone} {jump apart t : ℤ} {acct : String} {elem : Element}
    {row : FlexTrade} {dateOnly : Bool} (hzone : zone.Lawful jump apart)
    (hrow : tradeRow zone acct elem = .ok (some row))
    (hread : parseFlexDatetime zone (attr (tradeAttrs elem) "tradeDate") = .ok (some t, dateOnly)) :
    (∃ d, row.tradeDate = some d ∧ d.ord = zone.dayAt t) ↔
      (∃ d, strptimeYmd (slice (attr (tradeAttrs elem) "tradeDate") 8) = .ok d) ∧
        ∀ dt dateOnly, firstReading (attr (tradeAttrs elem) "tradeDate") = some (dt, dateOnly) →
          ¬ CarriedOver zone dt.unix := by
  rw [tradeRow_tradeDate hrow]
  exact ymd_iff hzone (strip_attr elem "tradeDate") hread

/-- A trade on 2026-09-04. -/
def compactTrade : Element :=
  .mk "Trade" [("accountId", "U111"), ("symbol", "NVDA"), ("tradeDate", "20260904")] "" []

theorem compactTrade_agrees :
    ∃ row, tradeRow newYork2026 "" compactTrade = .ok (some row) ∧
      ((∃ d, row.tradeDate = some d ∧ d.ord = newYork2026.dayAt 1788494400) ↔
        (∃ d, strptimeYmd (slice (attr (tradeAttrs compactTrade) "tradeDate") 8) = .ok d) ∧
          ∀ dt dateOnly,
            firstReading (attr (tradeAttrs compactTrade) "tradeDate") = some (dt, dateOnly) →
              ¬ CarriedOver newYork2026 dt.unix) := by
  have hread : parseFlexDatetime newYork2026 (attr (tradeAttrs compactTrade) "tradeDate") =
      .ok (some 1788494400, true) := by decide +kernel
  exact ⟨_, rfl, trade_date_iff newYork2026_lawful rfl hread⟩

/-- The same trade, dated with dashes. -/
def dashedTrade : Element :=
  .mk "Trade" [("accountId", "U111"), ("symbol", "NVDA"), ("tradeDate", "2026-09-04")] "" []

/-- Its time is that of its `tradeDate`, and it has no day. -/
theorem dashed_day_lost :
    ∃ row, tradeRow newYork2026 "" dashedTrade = .ok (some row) ∧
      parseFlexDatetime newYork2026 (attr (tradeAttrs dashedTrade) "tradeDate") =
        .ok (some 1788494400, true) ∧
      row.time = some 1788494400 ∧ row.tradeDate = none := by
  refine ⟨_, rfl, ?_, ?_, ?_⟩ <;> decide +kernel

end FlexQuery
