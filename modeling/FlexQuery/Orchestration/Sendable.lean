import FlexQuery.Orchestration.Requests
import FlexQuery.Orchestration.TradesGap

/-!
# The length of a trades window

A trades run sends its window in one SendRequest per query, and the client refuses a span of more
than `MAX_FLEX_DAYS` before anything is sent.

* `Asks` — the window of a run, in day numbers: the scheduled one, or a readable payload's.
* `Sendable` — the SendRequests of a turn cover the window, none longer than the limit.
* `fetchQuery_sendable_iff` — one turn: exactly when the window is within the limit.
* `trades_window_sendable_iff` — a run.
* `long_outage_unsendable` — a year without executions: every query is refused locally.
-/

set_option autoImplicit false

namespace FlexQuery

open Visit Interval

/-- The days a SendRequest asks for. -/
def HttpRequest.span (req : HttpRequest) : Option (ℤ × ℤ) :=
  match req.dates with
  | none => none
  | some (fd, td) =>
    match strptimeYmd fd, strptimeYmd td with
    | .ok a, .ok b => some (a.ord, b.ord)
    | _, _ => none

/-- The spans requested in a part of the wire. -/
def spans (part : Wire) : List (ℤ × ℤ) := part.filterMap fun x => x.1.span

/-- The requests cover `[a, b]`, and each spans no more than the client accepts. -/
def Sendable (a b : ℤ) (part : Wire) : Prop :=
  Covers a b (spans part) ∧ ∀ c ∈ spans part, c.2 - c.1 ≤ MAX_FLEX_DAYS

/-- The window a run is to ask for: `from_date` and `to_date` of the payload, if both are dates in
order, or the scheduled window if both are missing. -/
inductive Asks (payload : Dict) (gs : GoldenSource) (today : Date) : ℤ → ℤ → Prop
  | scheduled (hfrom : optionalText payload "from_date" = .ok none)
      (hto : optionalText payload "to_date" = .ok none) :
      Asks payload gs today (tradesStart gs (today.ord - 1)) (today.ord - 1)
  | explicit {f t : String} {a b : Date} (hfrom : optionalText payload "from_date" = .ok (some f))
      (hto : optionalText payload "to_date" = .ok (some t))
      (hf : strptimeYmd (slice (strip f) 8) = .ok a) (ht : strptimeYmd (slice (strip t) 8) = .ok b)
      (hle : a ≤ b) : Asks payload gs today a.ord b.ord

/-- The dates of a run read as these days. -/
def Reads (fromDate toDate : Option String) (a b : ℤ) : Prop :=
  ∃ f t da db, fromDate = some f ∧ toDate = some t ∧ strptimeYmd (slice (strip f) 8) = .ok da ∧
    strptimeYmd (slice (strip t) 8) = .ok db ∧ da.ord = a ∧ db.ord = b

theorem tradesStart_le (gs : GoldenSource) (y : ℤ) : tradesStart gs y ≤ y := by
  obtain ⟨hdef, hinit⟩ := getFlexRangeDays_pos gs
  unfold tradesStart
  split <;> omega

theorem Asks.le {payload : Dict} {gs : GoldenSource} {today : Date} {a b : ℤ}
    (h : Asks payload gs today a b) : a ≤ b := by
  cases h with
  | scheduled => exact tradesStart_le gs _
  | explicit _ _ _ _ hle => exact Date.le_iff.mp hle

theorem Asks.reads {payload : Dict} {gs : GoldenSource} {today : Date} {a b : ℤ} {req : Requested}
    (h : Asks payload gs today a b) (hreq : tradesWindow payload gs today = .ok req) :
    1 ≤ a ∧ Reads req.fromDate req.toDate a b := by
  cases h with
  | scheduled hfrom hto =>
    obtain ⟨w, hw, rfl⟩ := tradesWindow_scheduled hfrom hto hreq
    obtain ⟨hstop, hstart⟩ := scheduledTradesWindow_ok hw
    refine ⟨hstart ▸ w.start.one_le, _, _, w.start, w.stop, rfl, rfl, ?_, ?_, hstart, hstop⟩
    · rw [strip_strftimeYmd, slice_strftimeYmd, strptimeYmd_strftimeYmd]
    · rw [strip_strftimeYmd, slice_strftimeYmd, strptimeYmd_strftimeYmd]
  | @explicit f t da db hfrom hto hf ht hle =>
    simp only [tradesWindow, hfrom, hto] at hreq
    cases hreq
    exact ⟨da.one_le, f, t, da, db, rfl, rfl, hf, ht, rfl, rfl⟩

theorem Asks.isOk {payload : Dict} {gs : GoldenSource} {today : Date} {a b : ℤ}
    (h : Asks payload gs today a b) (ha : 1 ≤ a) : ∃ req, tradesWindow payload gs today = .ok req := by
  cases h with
  | scheduled hfrom hto =>
    obtain ⟨w, hw⟩ := scheduledTradesWindow_isOk ha
    simp only [tradesWindow, hfrom, hto, hw]
    exact ⟨_, rfl⟩
  | explicit hfrom hto =>
    simp only [tradesWindow, hfrom, hto]
    exact ⟨_, rfl⟩

/-! ## One turn -/

theorem given_of_reads {s : String} {d : Date} (h : strptimeYmd (slice (strip s) 8) = .ok d) :
    given (some s) = true := by
  have hne : s ≠ "" := by
    rintro rfl
    have hempty : slice (strip "") 8 = "" := by decide
    rw [hempty] at h
    cases h
  simp [given, hne]

theorem statementUnavailable_spanMsg : statementUnavailable spanMsg = false := by decide +kernel

/-- The client's answer to two readable dates. -/
theorem reportRequest_reads {t q f s : String} {a b : Date}
    (hf : strptimeYmd (slice (strip f) 8) = .ok a) (hs : strptimeYmd (slice (strip s) 8) = .ok b) :
    reportRequest t q (some f) (some s) none =
      if b.ord - a.ord > MAX_FLEX_DAYS then .error (.valueError spanMsg)
      else .ok (.sendRequest t q none (some (slice (strip f) 8, slice (strip s) 8))) := by
  unfold reportRequest checkSpan
  simp only [given_of_reads hf, given_of_reads hs, Bool.and_self, if_true, Option.getD_some, hf, hs]
  by_cases hlong : b.daysSince a > MAX_FLEX_DAYS
  · rw [if_pos hlong]
    exact (if_pos hlong).symm
  · rw [if_neg hlong]
    exact (if_neg hlong).symm

/-- Only the exchange of the dates asks for days. -/
theorem Sent.spans {flex : FlexService} {t q fd td : String} {widen : Bool} {part : Wire}
    {a b : Date} (h : Sent flex t q (some (fd, td)) widen part) (ha : strptimeYmd fd = .ok a)
    (hb : strptimeYmd td = .ok b) : spans part = [(a.ord, b.ord)] := by
  obtain ⟨p₁, rest, rfl, ⟨ans, polls, rfl, _, hpolls, _⟩, hrest, _⟩ := h
  have hundated : ∀ x : HttpRequest × HttpAnswer, x.1.dates = none → x.1.span = none := by
    intro x hx
    unfold HttpRequest.span
    rw [hx]
  have hnone : ∀ x ∈ polls ++ rest, x.1.span = none := by
    intro x hx
    apply hundated
    rcases List.mem_append.mp hx with hx | hx
    · have hpoll := (hpolls x hx).1
      cases hreq : x.1 with
      | sendRequest t q p dates =>
        rw [hreq] at hpoll
        cases hpoll
      | getStatement t q => rfl
    · rcases hrest with rfl | ⟨_, hwidened⟩
      · cases hx
      · exact hwidened.dates x hx
  have hfirst : HttpRequest.span (.sendRequest t q none (some (fd, td))) = some (a.ord, b.ord) := by
    unfold HttpRequest.span
    simp only [HttpRequest.dates, ha, hb]
  unfold FlexQuery.spans
  rw [List.cons_append, List.filterMap_cons]
  simp only [hfirst]
  rw [List.filterMap_eq_nil_iff.mpr hnone]

/-- One turn sends its window exactly when that is not too long. -/
theorem fetchQuery_sendable_iff (env : Env) (fallback : Bool) {req : TradesRequest} {a b : ℤ}
    (hreads : Reads req.fromDate req.toDate a b) (hle : a ≤ b) (w : Wire) :
    ∃ part, (fetchQuery env fallback req w).2 = w ++ part ∧
      (Sendable a b part ↔ b - a ≤ MAX_FLEX_DAYS) := by
  obtain ⟨f, s, da, db, hfrom, hto, hf, hs, rfl, rfl⟩ := hreads
  have hreq := reportRequest_reads (t := req.entry.token) (q := req.entry.queryId) hf hs
  rw [fetchQuery_wire, hfrom, hto]
  by_cases hlong : db.ord - da.ord > MAX_FLEX_DAYS
  · rw [if_pos hlong] at hreq
    refine ⟨[], ?_, ?_⟩
    · unfold fetchTradesWithDateFallback fetchTrades
      rw [fetchReport_refused env.flex env.parseTradesXml hreq]
      simp [statementUnavailable_spanMsg]
    · refine iff_of_false ?_ (not_le.mpr hlong)
      rintro ⟨hcover, _⟩
      obtain ⟨c, hc, _⟩ := hcover da.ord le_rfl hle
      cases hc
  · rw [if_neg hlong] at hreq
    obtain ⟨part, hwire, hsent⟩ := fetchTrades_sent env fallback hreq w
    refine ⟨part, hwire, iff_of_true ?_ (not_lt.mp hlong)⟩
    unfold Sendable
    rw [hsent.spans hf hs]
    constructor
    · intro d h₁ h₂
      exact ⟨_, List.mem_singleton_self _, h₁, h₂⟩
    · intro c hc
      rw [List.mem_singleton] at hc
      rw [hc]
      exact not_lt.mp hlong

/-! ## A run -/

/-- The requests of a run are numbered in order. -/
theorem tradesRequests_index (entries : List TradesEntry) (req : Requested) :
    (tradesRequests entries req).Pairwise fun r r' => r.index < r'.index := by
  unfold tradesRequests
  rw [List.pairwise_map, List.pairwise_iff_getElem]
  intro i j hi hj hij
  simpa using hij

/-- **Every trades window is sendable, up to the limit.**  Each query of a run is asked for the
whole window in requests the client accepts, or comes after a query whose exception ended the run,
if and only if the window starts inside the calendar and spans at most `MAX_FLEX_DAYS`. -/
theorem trades_window_sendable_iff {env : Env} {payload : Dict} {gs : GoldenSource} {today : Date}
    {w : Wire} {a b : ℤ} (hasks : Asks payload gs today a b) :
    let run := fetchFlexTradesAndUpsertExecutions env payload today gs w
    (∀ e ∈ (tradesEntries env gs).zipIdx,
      (∃ t ∈ run.turns, t.key.entry = e.1 ∧ t.key.index = e.2 ∧ Sendable a b t.part) ∨
        ∃ t ∈ run.turns, t.key.index < e.2 ∧ ∃ exc, t.outcome = .escaped exc) ↔
      tradesEntries env gs = [] ∨
        (env.postgresReady = true ∧ 1 ≤ a ∧ b - a ≤ MAX_FLEX_DAYS) := by
  intro run
  by_cases hentries : tradesEntries env gs = []
  · refine iff_of_true ?_ (Or.inl hentries)
    rw [hentries]
    nofun
  · -- The first query has no other before it, so it is the one to look at.
    obtain ⟨first, others, hcons⟩ := List.exists_cons_of_ne_nil hentries
    have hfirst : (first, 0) ∈ (tradesEntries env gs).zipIdx := by
      rw [hcons]
      exact List.mem_cons_self
    constructor
    · intro hall
      rcases hall (first, 0) hfirst with ⟨t, ht, _, _, hsendable⟩ | ⟨t, _, hlt, _⟩
      · by_cases hready : env.postgresReady = false
        · simp only [run, fetchFlexTradesAndUpsertExecutions, hready, if_true] at ht
          cases ht
        · cases hwin : tradesWindow payload gs today with
          | error e =>
            simp only [run, fetchFlexTradesAndUpsertExecutions, hready, hentries, hwin,
              if_false] at ht
            cases ht
          | ok req =>
            simp only [run, fetchFlexTradesAndUpsertExecutions, hready, hentries, hwin,
              if_false] at ht
            obtain ⟨hpos, hreads⟩ := hasks.reads hwin
            obtain ⟨hkey, hbody⟩ := visit_turns t ht
            obtain ⟨_, hfrom, hto⟩ := mem_tradesRequests hkey
            rw [← hfrom, ← hto] at hreads
            obtain ⟨part, hwire, hiff⟩ :=
              fetchQuery_sendable_iff env (allowFallback payload) hreads hasks.le t.before
            rw [part_eq hbody hwire] at hsendable
            exact Or.inr ⟨eq_true_of_ne_false hready, hpos, hiff.mp hsendable⟩
      · exact absurd hlt (Nat.not_lt_zero _)
    · rintro (hnil | ⟨hready, hpos, hspan⟩)
      · exact absurd hnil hentries
      · obtain ⟨req, hwin⟩ := hasks.isOk hpos
        obtain ⟨_, hreads⟩ := hasks.reads hwin
        have hrun : run.turns = (visit (fetchQuery env (allowFallback payload))
            (tradesRequests (tradesEntries env gs) req) w).1 := by
          simp only [run, fetchFlexTradesAndUpsertExecutions, hready, hentries, hwin,
            Bool.true_eq_false, if_false]
          rfl
        intro e he
        have hmem : (⟨e.2, e.1, req.fromDate, req.toDate⟩ : TradesRequest) ∈
            tradesRequests (tradesEntries env gs) req := List.mem_map_of_mem he
        rw [hrun]
        rcases visit_reaches hmem with ⟨t, ht, hkey⟩ | ⟨t, ht, hesc, hbefore⟩
        · left
          refine ⟨t, ht, by rw [hkey], by rw [hkey], ?_⟩
          have hreads' : Reads t.key.fromDate t.key.toDate a b := by
            rw [hkey]
            exact hreads
          obtain ⟨part, hwire, hiff⟩ :=
            fetchQuery_sendable_iff env (allowFallback payload) hreads' hasks.le t.before
          rw [part_eq (visit_turns t ht).2 hwire]
          exact hiff.mpr hspan
        · right
          refine ⟨t, ht, ?_, hesc⟩
          have hpair := (tradesRequests_index (tradesEntries env gs) req).sublist hbefore
          exact (List.pairwise_cons.mp hpair).1 _ (List.mem_singleton_self _)

/-- A daily window of 31 days is sent as it is. -/
theorem trades_window_sendable_daily :
    ∃ t ∈ (fetchFlexTradesAndUpsertExecutions oneQueryAnswered queuedPayload tradesToday dailyImport
      []).turns, t.key.index = 0 ∧ Sendable 739831 739862 t.part := by
  have hasks : Asks queuedPayload dailyImport tradesToday 739831 739862 := by
    have hstart : tradesStart dailyImport (tradesToday.ord - 1) = 739831 := by decide +kernel
    rw [← hstart]
    exact Asks.scheduled rfl rfl
  have hsent := (@trades_window_sendable_iff oneQueryAnswered queuedPayload dailyImport tradesToday
    [] 739831 739862 hasks).mpr (Or.inr ⟨rfl, by decide, by decide⟩)
  rcases hsent (⟨"host-token", "101", "host", none⟩, 0) (by decide +kernel) with
    ⟨t, ht, _, hindex, hsendable⟩ | ⟨t, _, hlt, _⟩
  · exact ⟨t, ht, hindex, hsendable⟩
  · exact absurd hlt (Nat.not_lt_zero _)

/-- U1 last traded on 2025-07-29. -/
def outageImport : GoldenSource :=
  { firstImport with executions := [⟨"U1", "flex_trades", some ⟨739461, by decide, by decide⟩⟩] }

/-- 401 days without an execution, and the margin of 30: 431 days, and no request at all. -/
theorem long_outage_unsendable :
    let run := fetchFlexTradesAndUpsertExecutions oneQueryAnswered queuedPayload tradesToday
      outageImport []
    Asks queuedPayload outageImport tradesToday 739431 739862 ∧
      run.turns.map (fun t => (t.key.entry.queryId, t.outcome)) =
        [("101", .failed spanMsg), ("202", .failed spanMsg)] ∧
      run.wire = [] ∧ ¬ ∃ t ∈ run.turns, Sendable 739431 739862 t.part := by
  have hrun :
      let run := fetchFlexTradesAndUpsertExecutions oneQueryAnswered queuedPayload tradesToday
        outageImport []
      run.turns.map (fun t => (t.key.entry.queryId, t.outcome)) =
          [("101", .failed spanMsg), ("202", .failed spanMsg)] ∧
        run.wire = [] ∧ run.turns.map Turn.part = [ [], [] ] := by
    decide +kernel
  obtain ⟨hturns, hwire, hparts⟩ := hrun
  refine ⟨?_, hturns, hwire, ?_⟩
  · have hstart : tradesStart outageImport (tradesToday.ord - 1) = 739431 := by decide +kernel
    rw [← hstart]
    exact Asks.scheduled rfl rfl
  · rintro ⟨t, ht, hcover, _⟩
    have hpart := List.mem_map_of_mem (f := Turn.part) ht
    rw [hparts] at hpart
    have hnil : t.part = [] := by simpa using hpart
    rw [hnil] at hcover
    obtain ⟨c, hc, _⟩ := hcover 739431 le_rfl (by decide)
    cases hc

end FlexQuery
