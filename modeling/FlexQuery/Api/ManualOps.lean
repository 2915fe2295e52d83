import FlexQuery.Api.ConfigSummary
import FlexQuery.Orchestration.Codes
import FlexQuery.Orchestration.Upload
import FlexQuery.Queue.Freshness
import FlexQuery.Worker.Done

/-!
# Runs by hand

`trigger_flex_fetch` and `upload_flex_xml` of `api/manual_ops.py`: the run is made while the reader
waits, and `_audit_finish` leaves the trail a queued job would leave.

* `triggerFlexFetch`, `uploadFlexXml` — the two endpoints; a trigger does not widen by default.
* `Plain` — what a result says of an error goes with `ok`.
* `judged_alike` — `_require_ok` and `_audit_finish` judge a plain result the same way.
* `trail_agrees` — so a triggered run is marked and recorded as the queue's handler would have it.
* `upload_as_fetched` — uploading the reports of a run does what the run did.
-/

set_option autoImplicit false

namespace FlexQuery

open Visit

/-! ## The endpoints -/

/-- `_KIND_TO_JOB`. -/
def KIND_TO_JOB : List (String × String) :=
  [("trades", "flex-trades"), ("transactions", "flex-transactions")]

/-- What an endpoint hands to `_audit_finish`, and what its run leaves. -/
structure ManualRun where
  jobKind : String
  result : ManualResult
  wire : Wire
  store : GoldenSource

/-- `str(payload.pop("kind", "trades")).strip()`; `repr` is Python's `str` of what is not a text. -/
def triggerKind (repr : Json → String) (body : Dict) : String :=
  strip ((body.get "kind").elim "trades" (pyStr repr))

/-- The payload of the run: no `kind`, and no `fallback` unless the reader asks for it. -/
def triggerPayload (body : Dict) : Dict :=
  Dict.setdefault (body.filter fun e => e.1 ≠ "kind") "fallback" (.bool false)

/-- `trigger_flex_fetch`. -/
def triggerFlexFetch (repr : Json → String) (d : Deployment) (body : Dict) (today : Date)
    (gs : GoldenSource) (w : Wire) : Except HttpError ManualRun :=
  let kind := triggerKind repr body
  match (KIND_TO_JOB.find? fun e => e.1 = kind).map (·.2) with
  | none =>
    .error ⟨400, "unsupported kind: '" ++ kind ++ "' (use 'trades' or 'transactions')"⟩
  | some jobKind =>
    if kind = "trades" then
      let run := fetchFlexTradesAndUpsertExecutions d.env (triggerPayload body) today gs w
      .ok ⟨jobKind, run.result.manual, run.wire, run.store⟩
    else
      let run := fetchCashTransactionsFromFlex d.env (triggerPayload body) today gs w
      .ok ⟨jobKind, run.result.manual, run.wire, run.store⟩

/-- `upload_flex_xml`; `str(body.get("xml") or "")` of the request. -/
def uploadFlexXml (d : Deployment) (xml : String) (gs : GoldenSource) (w : Wire) :
    Except HttpError ManualRun :=
  if strip xml = "" then .error ⟨400, "Missing 'xml' field in request body"⟩
  else
    let up := upsertExecutionsFromUploadedFlexXml d.env (strip xml) gs
    .ok ⟨"flex-trades", up.1.manual, w, up.2⟩

/-- A text that says something goes to the upload as it is. -/
theorem uploadFlexXml_eq {d : Deployment} {xml : String} {gs : GoldenSource} {w : Wire}
    (h : strip xml ≠ "") :
    let up := upsertExecutionsFromUploadedFlexXml d.env xml gs
    uploadFlexXml d xml gs w = .ok ⟨"flex-trades", up.1.manual, w, up.2⟩ := by
  have hsame : upsertExecutionsFromUploadedFlexXml d.env (strip xml) gs =
      upsertExecutionsFromUploadedFlexXml d.env xml gs := by
    unfold upsertExecutionsFromUploadedFlexXml
    rw [strip_strip]
  rw [uploadFlexXml, if_neg h, hsame]

/-! ## One judgement -/

/-- An error goes with a run that is not ok, and errors of single queries with one that is. -/
structure Plain (ok : Bool) (error : Option String) (errors : List String) : Prop where
  errors_nil : ok = false → errors = []
  error_none : ok = true → error = none

theorem finishTrades_plain (env : Env) (entries : List TradesEntry) (req : Requested)
    (turns : List TradesTurn) (gs : GoldenSource) :
    let r := (finishTrades env entries req turns gs).1
    Plain r.ok r.error r.errors := by
  unfold finishTrades
  split
  · exact ⟨fun _ => rfl, by rintro ⟨⟩⟩
  · simp only
    split
    · split
      · exact ⟨fun _ => rfl, by rintro ⟨⟩⟩
      · exact ⟨by rintro ⟨⟩, fun _ => rfl⟩
    · split
      · exact ⟨fun _ => rfl, by rintro ⟨⟩⟩
      · exact ⟨fun _ => rfl, by rintro ⟨⟩⟩
      · exact ⟨by rintro ⟨⟩, fun _ => rfl⟩

theorem finishCash_plain (env : Env) (nEntries : ℕ) (req : Requested) (nChunks : ℕ)
    (turns : List CashTurn) (gs : GoldenSource) :
    let r := (finishCash env nEntries req nChunks turns gs).1
    Plain r.ok r.error r.errors := by
  unfold finishCash
  split
  · exact ⟨fun _ => rfl, by rintro ⟨⟩⟩
  · simp only
    split
    · split
      · exact ⟨fun _ => rfl, by rintro ⟨⟩⟩
      · exact ⟨by rintro ⟨⟩, fun _ => rfl⟩
    · split
      · exact ⟨fun _ => rfl, by rintro ⟨⟩⟩
      · split
        · exact ⟨fun _ => rfl, by rintro ⟨⟩⟩
        · exact ⟨by rintro ⟨⟩, fun _ => rfl⟩

section Runs
variable (env : Env) (payload : Dict) (today : Date) (gs : GoldenSource) (w : Wire)

theorem trades_run_plain :
    let r := (fetchFlexTradesAndUpsertExecutions env payload today gs w).result.manual
    Plain r.ok r.error r.errors := by
  rcases trades_run_cases env payload today gs w with ⟨why, hrun⟩ | ⟨req, _, hrun⟩
  · rw [hrun]
    exact ⟨fun _ => rfl, by rintro ⟨⟩⟩
  · rw [hrun]
    exact finishTrades_plain env _ req _ gs

theorem cash_run_plain :
    let r := (fetchCashTransactionsFromFlex env payload today gs w).result.manual
    Plain r.ok r.error r.errors := by
  rcases cash_run_cases env payload today gs w with ⟨why, hrun⟩ | ⟨req, chunks, _, _, hrun⟩
  · rw [hrun]
    exact ⟨fun _ => rfl, by rintro ⟨⟩⟩
  · rw [hrun]
    exact finishCash_plain env _ req _ _ gs

end Runs

/-- What `_audit_finish` makes of a result, against what `_require_ok` made of it. -/
def JudgedAs (res : ManualResult) : Except PyExc ℕ → Prop
  | .ok n => (res.ok && res.said.isEmpty) = true ∧ res.processed = n
  | .error e => (res.ok && res.said.isEmpty) = false ∧
    classifyFlexError e.str = classifyFlexError res.errorText

theorem joined_ne {errors : List String} (hne : errors ≠ [])
    (hsaid : ∀ e ∈ errors, strip e ≠ "") : joined errors ≠ "" := by
  have hstrip : strip (joined errors) ≠ "" := by
    cases errors with
    | nil => exact absurd rfl hne
    | cons e errors =>
      have he := hsaid e List.mem_cons_self
      unfold joined
      cases errors with
      | nil => rwa [String.intercalate_singleton]
      | cons e' errors =>
        rw [String.intercalate_cons_cons, String.append_assoc]
        exact strip_append_ne he _
  intro hnil
  rw [hnil] at hstrip
  exact hstrip (by decide)

theorem errorText_error {res : ManualResult} (h : given res.error = true) :
    res.errorText = res.error.getD "" := by
  cases hres : res.error with
  | none =>
    rw [hres] at h
    cases h
  | some text =>
    rw [hres] at h
    have htext : text ≠ "" := of_decide_eq_true h
    simp [ManualResult.errorText, hres, htext]

theorem errorText_joined {res : ManualResult} (hnone : given res.error = false)
    (hsaid : res.said ≠ []) : res.errorText = joined res.said := by
  have hempty : res.error.getD "" = "" := by
    cases hres : res.error with
    | none => rfl
    | some text =>
      rw [hres] at hnone
      simpa [given] using hnone
  have hjoined : joined res.said ≠ "" :=
    joined_ne hsaid fun e he => of_decide_eq_true (List.mem_filter.mp he).2
  unfold joined at hjoined ⊢
  simp [ManualResult.errorText, hempty, hjoined]

theorem errorText_default {res : ManualResult} (hnone : given res.error = false)
    (hsaid : res.said = []) : res.errorText = "manual run failed" := by
  have hempty : res.error.getD "" = "" := by
    cases hres : res.error with
    | none => rfl
    | some text =>
      rw [hres] at hnone
      simpa [given] using hnone
  simp [ManualResult.errorText, hempty, hsaid]

/-- **One judgement.**  A job is done exactly when the manual run of the same result is, with the
same count, and otherwise both texts have the same category. -/
theorem judged_alike {label : String} (hlabel : label = "flex-trades" ∨ label = "flex-transactions")
    {res : ManualResult} {count : ℕ} (hcount : res.processed = count)
    (hplain : Plain res.ok res.error res.errors) :
    JudgedAs res (requireOk label res.ok res.error res.errors count) := by
  have hnothing : classifyFlexError (label ++ " failed") =
      classifyFlexError "manual run failed" := by
    rcases hlabel with rfl | rfl <;> decide
  unfold requireOk
  cases hok : res.ok with
  | false =>
    have hsaid : res.said = [] := by rw [ManualResult.said, hplain.errors_nil hok]; rfl
    simp only [Bool.not_false, if_true]
    refine ⟨by rw [hok]; rfl, ?_⟩
    cases hgiven : given res.error with
    | true => rw [errorText_error hgiven]; rfl
    | false => rw [errorText_default hgiven hsaid]; exact hnothing
  | true =>
    have hnone : given res.error = false := by rw [hplain.error_none hok]; rfl
    simp only [Bool.not_true, Bool.false_eq_true, if_false]
    rw [show (res.errors.filter fun e => strip e ≠ "") = res.said from rfl]
    by_cases hsaid : res.said = []
    · rw [if_neg (not_not.mpr hsaid)]
      exact ⟨by rw [hok, hsaid]; rfl, hcount⟩
    · rw [if_pos hsaid]
      refine ⟨by rw [hok]; simpa using hsaid, ?_⟩
      rw [errorText_joined hnone hsaid]
      exact classify_partial hlabel _

/-- The job of a manual run is marked, and the freshness of its kind recorded, as this outcome of
the queue's handler asks: done with the same count, or failed with the category of its error. -/
def Trail (kind : String) (res : ManualResult) : Except PyExc ℕ → Prop
  | .ok n => ∀ (now : Timestamp) (k : ℕ) (t : JobTable),
    auditFinish now k res t = markDone now k
      [("inserted", .int n), ("ok", .bool true), ("result", .obj res.summary)] t ∧
    manualRecord kind (some k) res = ⟨kind, true, n, none, none, some k⟩
  | .error e => ∀ (now : Timestamp) (k : ℕ) (t : JobTable), ∃ text,
    auditFinish now k res t = markFailed now k text (some (classifyFlexError e.str).value) t ∧
    (manualRecord kind (some k) res).ok = false ∧
    (manualRecord kind (some k) res).error = some text

theorem JudgedAs.trail {res : ManualResult} {out : Except PyExc ℕ} (h : JudgedAs res out)
    (kind : String) : Trail kind res out := by
  cases out with
  | ok n =>
    obtain ⟨hok, hn⟩ := h
    intro now k t
    simp only [auditFinish, manualRecord, hok, if_true, hn, and_self]
  | error e =>
    obtain ⟨hfailed, hcategory⟩ := h
    intro now k t
    refine ⟨res.errorText, ?_⟩
    simp only [auditFinish, manualRecord, hfailed, Bool.false_eq_true, if_false, hcategory,
      and_self]

section Trigger
variable {repr : Json → String} {d : Deployment} {body : Dict} {today : Date} {gs : GoldenSource}
  {w : Wire}

theorem triggerFlexFetch_trades (h : triggerKind repr body = "trades") :
    let run := fetchFlexTradesAndUpsertExecutions d.env (triggerPayload body) today gs w
    triggerFlexFetch repr d body today gs w =
      .ok ⟨"flex-trades", run.result.manual, run.wire, run.store⟩ := by
  simp only [triggerFlexFetch, h]
  rfl

theorem triggerFlexFetch_transactions (h : triggerKind repr body = "transactions") :
    let run := fetchCashTransactionsFromFlex d.env (triggerPayload body) today gs w
    triggerFlexFetch repr d body today gs w =
      .ok ⟨"flex-transactions", run.result.manual, run.wire, run.store⟩ := by
  simp only [triggerFlexFetch, h]
  rfl

theorem triggerFlexFetch_kind {m : ManualRun}
    (h : triggerFlexFetch repr d body today gs w = .ok m) :
    triggerKind repr body = "trades" ∨ triggerKind repr body = "transactions" := by
  simp only [triggerFlexFetch] at h
  cases hfind : (KIND_TO_JOB.find? fun e => e.1 = triggerKind repr body).map (·.2) with
  | none =>
    rw [hfind] at h
    cases h
  | some jobKind =>
    obtain ⟨e, hentry, _⟩ := Option.map_eq_some_iff.mp hfind
    have hkind : e.1 = triggerKind repr body := by simpa using List.find?_some hentry
    have hmem := List.mem_of_find?_eq_some hentry
    simp only [KIND_TO_JOB, List.mem_cons, List.not_mem_nil, or_false] at hmem
    rcases hmem with rfl | rfl
    · exact Or.inl hkind.symm
    · exact Or.inr hkind.symm

/-- **The same trail.**  A triggered run does what the queue's handler does with the same payload,
and leaves the trail that the handler's outcome asks for. -/
theorem trail_agrees {m : ManualRun} (h : triggerFlexFetch repr d body today gs w = .ok m) :
    ∃ handler, handlerOf m.jobKind = some handler ∧
      let queued := handler d (triggerPayload body) today gs w
      queued.2 = (m.wire, m.store) ∧ Trail m.jobKind m.result queued.1 := by
  rcases triggerFlexFetch_kind h with hkind | hkind
  · rw [triggerFlexFetch_trades hkind] at h
    obtain rfl := (Except.ok.inj h).symm
    refine ⟨handleFlexTrades, rfl, rfl, ?_⟩
    exact JudgedAs.trail (judged_alike (Or.inl rfl) rfl
      (trades_run_plain d.env (triggerPayload body) today gs w)) "flex-trades"
  · rw [triggerFlexFetch_transactions hkind] at h
    obtain rfl := (Except.ok.inj h).symm
    refine ⟨handleFlexTransactions, rfl, rfl, ?_⟩
    exact JudgedAs.trail (judged_alike (Or.inr rfl) rfl
      (cash_run_plain d.env (triggerPayload body) today gs w)) "flex-transactions"

end Trigger

/-- A body that names no kind asks for trades. -/
theorem trail_agrees_host : ∃ m : ManualRun,
    triggerFlexFetch (fun _ => "") hostOnly [] tradesToday hostQueries [] = .ok m ∧
      ∃ handler, handlerOf m.jobKind = some handler ∧
        let queued := handler hostOnly (triggerPayload []) tradesToday hostQueries []
        queued.2 = (m.wire, m.store) ∧ Trail m.jobKind m.result queued.1 := by
  have hkind : triggerKind (fun _ => "") [] = "trades" := by decide
  exact ⟨_, triggerFlexFetch_trades hkind, trail_agrees (triggerFlexFetch_trades hkind)⟩

/-! ## The reports of a run -/

/-- The XML library does not mind blanks around a document, and takes no blank text for one. -/
structure Trims (flex : FlexService) : Prop where
  parsed : ∀ text root, flex.fromstring text = .ok root →
    strip text ≠ "" ∧ flex.fromstring (strip text) = .ok root

theorem contains_of_strip {s p : String} (h : contains (strip s) p = true) :
    contains s p = true := by
  have hinfix : (strip s).toList <:+: s.toList := by
    unfold strip
    rw [String.toList_ofList]
    exact (List.rdropWhile_prefix isSpace _).isInfix.trans (List.dropWhile_suffix _).isInfix
  exact decide_eq_true ((of_decide_eq_true h).trans hinfix)

theorem parseTradesXml_strip {flex : FlexService} {zone : Zone} {text : String} {root : Element}
    {rows : List FlexTrade} (hroot : flex.fromstring text = .ok root)
    (hstrip : flex.fromstring (strip text) = .ok root)
    (h : parseTradesXml flex zone text = .ok rows) :
    parseTradesXml flex zone (strip text) = .ok rows := by
  unfold parseTradesXml at h ⊢
  rw [hroot] at h
  rw [hstrip]
  simp only at h ⊢
  split at h
  · cases h
  · rename_i found hfound
    split at h
    · cases h
    · rename_i hempty
      rw [if_neg]
      · exact h
      · intro hblank
        simp only [Bool.and_eq_true] at hblank hempty
        exact hempty ⟨hblank.1, contains_of_strip hblank.2⟩

/-- **As if fetched.**  Whatever a trades run that ends well has fetched, and with however many
queries: the reports it polled, one for each query that answered, leave the same store when a reader
uploads them in that order, and count the same rows. -/
theorem upload_as_fetched {d : Deployment} {payload : Dict} {today : Date} {gs : GoldenSource}
    {w : Wire} (hxml : Trims d.flex) (hwriter : Upserts d.writeAccountExecutionsToDb)
    (hok : (fetchFlexTradesAndUpsertExecutions d.env payload today gs w).result.ok = true) :
    let run := fetchFlexTradesAndUpsertExecutions d.env payload today gs w
    ∃ texts : List (String × List TradeRow),
      List.Forall₂ (fun t x => ReportOf d.env t x.2 x.1)
        (run.turns.filter fun t => t.outcome.ok?.isSome) texts ∧
      let ups := uploadAll d.env (texts.map Prod.fst) gs
      ups.2 = run.store ∧ (ups.1.map TradesResult.count).sum = run.result.count := by
  refine uploads_of_run hwriter ?_ hok
  rintro text rows ⟨root, hroot, _⟩ hparse
  obtain ⟨hne, hstrip⟩ := hxml.parsed text root hroot
  refine ⟨hne, ?_⟩
  simp only [Deployment.env] at hparse ⊢
  cases hrows : parseTradesXml d.flex d.zone text with
  | error e =>
    rw [hrows] at hparse
    cases hparse
  | ok found =>
    have hsame := parseTradesXml_strip hroot hstrip hrows
    simp only [Deployment.env] at hsame
    rw [hsame]
    rwa [hrows] at hparse

/-- A parser that knows these documents, none with blanks around it. -/
theorem scripted_trims (answer : HttpRequest → String) {docs : List (String × Element)}
    (h : ∀ e ∈ docs, strip e.1 = e.1 ∧ e.1 ≠ "") : Trims (scripted answer docs) where
  parsed := by
    intro text root hroot
    have hknown : ∃ e ∈ docs, e.1 = text := by
      simp only [scripted] at hroot
      split at hroot
      · rename_i e he
        exact ⟨e, List.mem_of_find?_eq_some he, by simpa using List.find?_some he⟩
      · cases hroot
    obtain ⟨e, he, rfl⟩ := hknown
    obtain ⟨hstrip, hne⟩ := h e he
    rw [hstrip]
    exact ⟨hne, hroot⟩

theorem writeAll_upserts : Upserts writeAll where
  split rows rows' gs gs' _ _ h := by
    refine ⟨(writeAll rows gs).2, rfl, ?_⟩
    cases h
    simp [writeAll]

/-- The reports of queries 101 and 102, one trade in each. -/
theorem upload_as_fetched_host :
    let run := fetchFlexTradesAndUpsertExecutions hostOnly.env queuedPayload tradesToday
      hostQueries []
    ∃ texts : List (String × List TradeRow),
      List.Forall₂ (fun t x => ReportOf hostOnly.env t x.2 x.1)
        (run.turns.filter fun t => t.outcome.ok?.isSome) texts ∧
      let ups := uploadAll hostOnly.env (texts.map Prod.fst) hostQueries
      ups.2 = run.store ∧ (ups.1.map TradesResult.count).sum = run.result.count :=
  upload_as_fetched (scripted_trims _ (by decide +kernel)) writeAll_upserts (by decide +kernel)

end FlexQuery
