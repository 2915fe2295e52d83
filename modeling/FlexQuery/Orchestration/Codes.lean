import FlexQuery.Client.Readiness
import FlexQuery.Orchestration.Isolation
import FlexQuery.Worker.Evidence

/-!
# IB's error code through the whole pipeline

* `chunkRefusals`, `queryRefusals` — the texts of the fetches of one turn that failed.
* `OnlyFailure` — a run in which one fetch failed and nothing else did.
* `Refused` — the answers that carry a code, and the text the client raises for them.
* `Survives`, `code_survives_iff` — when the loop reads the code's category off the exception.
* `warn_loses_code` — a SendRequest that is answered with a warning.
-/

set_option autoImplicit false

namespace FlexQuery

open Visit

/-! ## The fetches of a turn -/

/-- The text of a fetch that failed. -/
def refusalOf {α : Type} : Except PyExc α → List String
  | .error (.valueError e) => [e]
  | _ => []

/-- The text of a turn that failed: there were failures, and of a single one it is the text. -/
def SpeaksOf (refusals : List String) (text : String) : Prop :=
  refusals ≠ [] ∧ ∀ e, refusals = [e] → text = e

theorem SpeaksOf.single (e : String) : SpeaksOf [e] e :=
  ⟨List.cons_ne_nil _ _, fun _ h => (List.cons.inj h).1⟩

theorem SpeaksOf.several {e e₂ : String} {es : List String} (text : String) :
    SpeaksOf (e :: e₂ :: es) text :=
  ⟨List.cons_ne_nil _ _, fun _ h => by cases (List.cons.inj h).2⟩

/-- The fetches of `_fetch_chunk` that failed. -/
def chunkRefusals (env : Env) (widen : Bool) (req : CashRequest) (w : Wire) : List String :=
  match fetchReport env.flex env.parseCashTransactionsXml req.token req.queryId req.chunk.1
      req.chunk.2 none w with
  | (.error (.valueError e), w') =>
    if widen && given req.chunk.1 && given req.chunk.2 && statementUnavailable e then
      e :: refusalOf (fetchReport env.flex env.parseCashTransactionsXml req.token req.queryId none
        none none w').1
    else [e]
  | _ => []

theorem chunkRefusals_failed {env : Env} {widen : Bool} {req : CashRequest} {w w' : Wire}
    {text : String} (h : fetchChunk env widen req w = (.failed text, w')) :
    SpeaksOf (chunkRefusals env widen req w) text := by
  unfold fetchChunk at h
  unfold chunkRefusals
  cases hf : fetchReport env.flex env.parseCashTransactionsXml req.token req.queryId req.chunk.1
      req.chunk.2 none w with
  | mk res w₁ =>
    rw [hf] at h
    cases res with
    | ok rows => cases h
    | error exc =>
      cases exc with
      | other cls msg => cases h
      | valueError e =>
        simp only at h ⊢
        split at h
        · rename_i hwiden
          rw [if_pos hwiden]
          cases hd : fetchReport env.flex env.parseCashTransactionsXml req.token req.queryId none
              none none w₁ with
          | mk res₂ w₂ =>
            rw [hd] at h
            cases res₂ with
            | ok rows => cases h
            | error exc₂ =>
              cases exc₂ with
              | other cls msg => cases h
              | valueError e₂ => exact SpeaksOf.several text
        · rename_i hwiden
          rw [if_neg hwiden]
          cases h
          exact SpeaksOf.single text

/-- The fetches of the `period=5` step that failed. -/
def period5Refusals (env : Env) (token queryId : String) (w : Wire) : List String :=
  refusalOf (fetchTrades env token queryId none none (some 5) w).1

/-- The fetches that failed from the query default on. -/
def defaultRefusals (env : Env) (token queryId : String) (w : Wire) : List String :=
  match fetchTrades env token queryId none none none w with
  | (.error (.valueError e), w') => e :: period5Refusals env token queryId w'
  | (.ok rows, w') => if rows ≠ [] then [] else period5Refusals env token queryId w'
  | _ => []

/-- The fetches of `_fetch_trades_with_date_fallback` that failed. -/
def queryRefusals (env : Env) (fallback : Bool) (req : TradesRequest) (w : Wire) : List String :=
  match fetchTrades env req.entry.token req.entry.queryId req.fromDate req.toDate none w with
  | (.error (.valueError e), w') =>
    if given req.fromDate && given req.toDate && statementUnavailable e && fallback then
      e :: defaultRefusals env req.entry.token req.entry.queryId w'
    else [e]
  | (.ok rows, w') =>
    if rows ≠ [] ∨ fallback = false then []
    else defaultRefusals env req.entry.token req.entry.queryId w'
  | _ => []

theorem period5Refusals_failed {env : Env} {t q : String} {primary : Option String} {w w' : Wire}
    {text : String} (h : fetchPeriod5 env t q primary w = (.error (.valueError text), w')) :
    SpeaksOf (primary.toList ++ period5Refusals env t q w) text := by
  unfold fetchPeriod5 at h
  unfold period5Refusals
  cases hf : fetchTrades env t q none none (some 5) w with
  | mk res w₁ =>
    rw [hf] at h
    cases res with
    | ok rows =>
      simp only at h
      split at h
      · cases h
      · cases primary with
        | none => cases h
        | some p =>
          cases h
          exact SpeaksOf.single text
    | error exc =>
      cases exc with
      | other cls msg => cases h
      | valueError e =>
        cases primary with
        | none =>
          cases h
          exact SpeaksOf.single text
        | some p => exact SpeaksOf.several text

theorem defaultRefusals_failed {env : Env} {t q : String} {primary : Option String} {w w' : Wire}
    {text : String} (h : fetchQueryDefault env t q primary w = (.error (.valueError text), w')) :
    SpeaksOf (primary.toList ++ defaultRefusals env t q w) text := by
  unfold fetchQueryDefault at h
  unfold defaultRefusals
  cases hf : fetchTrades env t q none none none w with
  | mk res w₁ =>
    rw [hf] at h
    cases res with
    | ok rows =>
      simp only at h ⊢
      split at h
      · cases h
      · rename_i hrows
        rw [if_neg hrows]
        exact period5Refusals_failed h
    | error exc =>
      cases exc with
      | other cls msg => cases h
      | valueError e =>
        cases primary with
        | none => exact period5Refusals_failed h
        | some p => exact SpeaksOf.several text

theorem queryRefusals_failed {env : Env} {fallback : Bool} {req : TradesRequest} {w w' : Wire}
    {text : String} (h : fetchQuery env fallback req w = (.failed text, w')) :
    SpeaksOf (queryRefusals env fallback req w) text := by
  have hfetch : fetchTradesWithDateFallback env req.entry.token req.entry.queryId req.fromDate
      req.toDate fallback w = (.error (.valueError text), w') := by
    unfold fetchQuery at h
    split at h
    · cases h
    · rename_i hf
      cases h
      exact hf
    · cases h
  unfold fetchTradesWithDateFallback at hfetch
  unfold queryRefusals
  cases hf : fetchTrades env req.entry.token req.entry.queryId req.fromDate req.toDate none w with
  | mk res w₁ =>
    rw [hf] at hfetch
    cases res with
    | ok rows =>
      simp only at hfetch ⊢
      split at hfetch
      · cases hfetch
      · rename_i hmore
        rw [if_neg hmore]
        exact defaultRefusals_failed hfetch
    | error exc =>
      cases exc with
      | other cls msg => cases hfetch
      | valueError e =>
        simp only at hfetch ⊢
        split at hfetch
        · rename_i hallowed
          rw [if_pos hallowed]
          exact defaultRefusals_failed hfetch
        · rename_i hallowed
          rw [if_neg hallowed]
          cases hfetch
          exact SpeaksOf.single text

/-! ## The only failure -/

/-- One fetch of the run failed, with the text `e`; no other exception was raised, and what there
was to write was written. -/
structure OnlyFailure {κ α : Type} (turns : List (RunTurn κ α)) (refusals : κ → Wire → List String)
    (written : Prop) (e : String) : Prop where
  refused : turns.flatMap (fun t => refusals t.key t.before) = [e]
  caught : escapedOf turns = none
  written : written

section
variable {κ α : Type} {turns : List (RunTurn κ α)} {refusals : κ → Wire → List String} {e : String}

theorem onlyFailure_iff {written : Prop} : OnlyFailure turns refusals written e ↔
    turns.flatMap (fun t => refusals t.key t.before) = [e] ∧ escapedOf turns = none ∧ written :=
  ⟨fun h => ⟨h.refused, h.caught, h.written⟩, fun h => ⟨h.1, h.2.1, h.2.2⟩⟩

instance {written : Prop} [Decidable written] : Decidable (OnlyFailure turns refusals written e) :=
  decidable_of_iff _ onlyFailure_iff.symm

theorem failures_nil (hspeaks : ∀ t ∈ turns, ∀ text, t.outcome = .failed text →
    SpeaksOf (refusals t.key t.before) text)
    (h : turns.flatMap (fun t => refusals t.key t.before) = []) : failures turns = [] := by
  rw [List.eq_nil_iff_forall_not_mem]
  rintro ⟨k, text⟩ hmem
  obtain ⟨t, ht, _, ho⟩ := mem_failures.mp hmem
  exact (hspeaks t ht text ho).1 (List.flatMap_eq_nil_iff.mp h t ht)

/-- The one failing fetch is made good within its turn, or its text is the turn's. -/
theorem failures_single (hspeaks : ∀ t ∈ turns, ∀ text, t.outcome = .failed text →
    SpeaksOf (refusals t.key t.before) text)
    (h : turns.flatMap (fun t => refusals t.key t.before) = [e]) :
    failures turns = [] ∨ ∃ t ∈ turns, failures turns = [(t.key, e)] := by
  induction turns with
  | nil => cases h
  | cons t ts ih =>
    have hts : ∀ t' ∈ ts, ∀ text, t'.outcome = .failed text →
        SpeaksOf (refusals t'.key t'.before) text :=
      fun t' ht' => hspeaks t' (List.mem_cons_of_mem t ht')
    rw [List.flatMap_cons] at h
    rcases ho : t.outcome.failed? with _ | text
    · have hrest : failures (t :: ts) = failures ts := by
        simp only [failures, List.filterMap_cons, ho, Option.map_none]
      rw [hrest]
      rcases List.append_eq_singleton_iff.mp h with ⟨_, h⟩ | ⟨_, h⟩
      · rcases ih hts h with hnil | ⟨t', ht', hone⟩
        · exact Or.inl hnil
        · exact Or.inr ⟨t', List.mem_cons_of_mem t ht', hone⟩
      · exact Or.inl (failures_nil hts h)
    · have hfailed : t.outcome = .failed text := by
        cases hout : t.outcome with
        | ok a =>
          rw [hout] at ho
          cases ho
        | failed x =>
          rw [hout] at ho
          cases ho
          rfl
        | escaped exc =>
          rw [hout] at ho
          cases ho
      obtain ⟨hne, hone⟩ := hspeaks t List.mem_cons_self text hfailed
      rcases List.append_eq_singleton_iff.mp h with ⟨hnil, _⟩ | ⟨hsingle, hrest⟩
      · exact absurd hnil hne
      · refine Or.inr ⟨t, List.mem_cons_self, ?_⟩
        have hnone := failures_nil hts hrest
        rw [failures] at hnone ⊢
        simp only [List.filterMap_cons, ho, Option.map_some, hnone, hone e hsingle]

end

/-! ## What the job raises -/

theorem joined_single (e : String) : joined [e] = e := rfl

/-- A result that lists one failure raises its text. -/
theorem Isolates.raised {ρ β : Type} {rows : List ρ} {err : String}
    {write : List ρ → GoldenSource → Except PyExc β × GoldenSource} {success : β → Prop}
    {gs store : GoldenSource} {ok : Bool} {error : Option String} {errors : List String}
    {label : String} {count : ℕ} {exc : PyExc}
    (h : Isolates rows [err] none write success gs store ok error errors) (herr : strip err ≠ "")
    (hwrite : rows ≠ [] → ∃ b, (write rows gs).1 = .ok b ∧ success b)
    (hreq : requireOk label ok error errors count = .error exc) :
    exc.str = err ∨ exc.str = label ++ " partial: " ++ err := by
  by_cases hrows : rows = []
  · obtain ⟨rfl, rfl⟩ := (h.empty rfl hrows).2 (List.cons_ne_nil _ _)
    have hgiven : given (some err) = true := by
      simp only [given, ne_eq, decide_eq_true_eq]
      rintro rfl
      exact herr (by decide)
    rw [joined_single] at hreq
    simp only [requireOk, Bool.not_false, if_true, hgiven, Option.getD_some] at hreq
    cases hreq
    exact Or.inl rfl
  · obtain ⟨b, hb, hsuccess⟩ := hwrite hrows
    obtain ⟨rfl, rfl⟩ := (h.written rfl hrows).2 b hb hsuccess
    have hsaid : ([err].filter fun e => strip e ≠ "") = [err] := by
      simp [herr]
    simp only [requireOk, Bool.not_true, Bool.false_eq_true, if_false, hsaid, ne_eq,
      List.cons_ne_nil, not_false_eq_true, if_true, joined_single] at hreq
    cases hreq
    exact Or.inr rfl

theorem requireOk_fine (label : String) (error : Option String) (count : ℕ) :
    requireOk label true error [] count = .ok count := rfl

/-! ## A trades job -/

/-- An item of `errors`. -/
def queryError (nEntries : ℕ) (req : TradesRequest) (e : String) : String :=
  "Flex query " ++ toString (req.index + 1) ++ "/" ++ toString nEntries ++ " (" ++
    req.entry.role ++ " " ++ req.entry.queryId ++ "): " ++ e

theorem finishTrades_fine {env : Env} {entries : List TradesEntry} {req : Requested}
    {turns : List TradesTurn} {gs : GoldenSource} (hesc : escapedOf turns = none)
    (hnone : failures turns = [])
    (hwrite : tradeRows turns ≠ [] → (env.writeAccountExecutionsToDb (tradeRows turns) gs).1 =
      .ok true) :
    (finishTrades env entries req turns gs).1.ok = true ∧
      (finishTrades env entries req turns gs).1.errors = [] := by
  have herrors : tradesErrors entries.length turns = [] := by
    rw [tradesErrors, hnone]
    rfl
  unfold finishTrades
  rw [hesc]
  simp only [herrors]
  by_cases hrows : tradeRows turns = []
  · rw [if_pos hrows]
    exact ⟨rfl, rfl⟩
  · rw [if_neg hrows]
    have hok := hwrite hrows
    cases hw : env.writeAccountExecutionsToDb (tradeRows turns) gs with
    | mk res gs' =>
      rw [hw] at hok
      cases hok
      exact ⟨rfl, rfl⟩

/-- What a loop with one failing fetch raises, if anything. -/
theorem finishTrades_raises {env : Env} {fallback : Bool} {entries : List TradesEntry}
    {req : Requested} {turns : List TradesTurn} {gs : GoldenSource} {e : String} {exc : PyExc}
    (hspeaks : ∀ t ∈ turns, fetchQuery env fallback t.key t.before = (t.outcome, t.after))
    (honly : OnlyFailure turns (queryRefusals env fallback) (tradeRows turns ≠ [] →
      (env.writeAccountExecutionsToDb (tradeRows turns) gs).1 = .ok true) e)
    (hreq : let r := (finishTrades env entries req turns gs).1
      requireOk "flex-trades" r.ok r.error r.errors r.count = .error exc) :
    ∃ t ∈ turns, t.outcome = .failed e ∧
      let err := queryError entries.length t.key e
      exc.str = err ∨ exc.str = "flex-trades" ++ " partial: " ++ err := by
  simp only at hreq
  have hisolates := finishTrades_isolates env entries req turns gs
  simp only [honly.caught] at hisolates
  have hturns : ∀ t ∈ turns, ∀ text, t.outcome = .failed text →
      SpeaksOf (queryRefusals env fallback t.key t.before) text := by
    intro t ht text ho
    have hbody := hspeaks t ht
    rw [ho] at hbody
    exact queryRefusals_failed hbody
  rcases failures_single hturns honly.refused with hnil | ⟨t, ht, hone⟩
  · obtain ⟨hok, herrors⟩ := @finishTrades_fine env entries req turns gs honly.caught hnil
      honly.written
    rw [hok, herrors, requireOk_fine] at hreq
    cases hreq
  · have hmem : (t.key, e) ∈ failures turns := by
      rw [hone]
      exact List.mem_singleton_self _
    have herrors : tradesErrors entries.length turns = [queryError entries.length t.key e] := by
      rw [tradesErrors, hone]
      rfl
    obtain ⟨t', ht', hkey, ho⟩ := mem_failures.mp hmem
    rw [herrors] at hisolates
    refine ⟨t', ht', ho, ?_⟩
    rw [hkey]
    have herr : strip (queryError entries.length t.key e) ≠ "" := by
      unfold queryError
      iterate 9 apply strip_append_ne
      decide
    exact hisolates.raised herr (fun hrows => ⟨true, honly.written hrows, rfl⟩) hreq

/-! ## A transactions job -/

/-- An item of `errors`. -/
def chunkError (nChunks : ℕ) (req : CashRequest) (e : String) : String :=
  if nChunks = 1 then e
  else req.chunk.1.getD "None" ++ ".." ++ req.chunk.2.getD "None" ++ ": " ++ e

theorem finishCash_fine {env : Env} {n k : ℕ} {req : Requested} {turns : List CashTurn}
    {gs : GoldenSource} (hesc : escapedOf turns = none) (hnone : failures turns = [])
    (hwrite : cashRows turns ≠ [] → ∃ b, (env.upsertAccountTransactions (cashRows turns) gs).1 =
      .ok b ∧ b.1 ≠ 0) :
    (finishCash env n req k turns gs).1.ok = true ∧
      (finishCash env n req k turns gs).1.errors = [] := by
  have herrors : cashErrors k turns = [] := by
    rw [cashErrors, hnone]
    rfl
  unfold finishCash
  rw [hesc]
  simp only [herrors]
  by_cases hrows : cashRows turns = []
  · rw [if_pos hrows]
    exact ⟨rfl, rfl⟩
  · rw [if_neg hrows]
    obtain ⟨⟨written, skipped⟩, hok, hwritten⟩ := hwrite hrows
    cases hw : env.upsertAccountTransactions (cashRows turns) gs with
    | mk res gs' =>
      rw [hw] at hok
      cases hok
      simp only at hwritten
      simp only [if_neg hwritten, and_self]

theorem finishCash_raises {env : Env} {widen : Bool} {n k : ℕ} {req : Requested}
    {turns : List CashTurn} {gs : GoldenSource} {e : String} {exc : PyExc} (hspoken : strip e ≠ "")
    (hspeaks : ∀ t ∈ turns, fetchChunk env widen t.key t.before = (t.outcome, t.after))
    (honly : OnlyFailure turns (chunkRefusals env widen) (cashRows turns ≠ [] →
      ∃ b, (env.upsertAccountTransactions (cashRows turns) gs).1 = .ok b ∧ b.1 ≠ 0) e)
    (hreq : let r := (finishCash env n req k turns gs).1
      requireOk "flex-transactions" r.ok r.error r.errors r.count = .error exc) :
    ∃ t ∈ turns, t.outcome = .failed e ∧
      let err := chunkError k t.key e
      exc.str = err ∨ exc.str = "flex-transactions" ++ " partial: " ++ err := by
  simp only at hreq
  have hisolates := finishCash_isolates env n k req turns gs
  simp only [honly.caught] at hisolates
  have hturns : ∀ t ∈ turns, ∀ text, t.outcome = .failed text →
      SpeaksOf (chunkRefusals env widen t.key t.before) text := by
    intro t ht text ho
    have hbody := hspeaks t ht
    rw [ho] at hbody
    exact chunkRefusals_failed hbody
  rcases failures_single hturns honly.refused with hnil | ⟨t, ht, hone⟩
  · obtain ⟨hok, herrors⟩ := @finishCash_fine env n k req turns gs honly.caught hnil
      honly.written
    rw [hok, herrors, requireOk_fine] at hreq
    cases hreq
  · have hmem : (t.key, e) ∈ failures turns := by
      rw [hone]
      exact List.mem_singleton_self _
    have hne : e ≠ "" := by
      rintro rfl
      exact hspoken (by decide)
    have herrors : cashErrors k turns = [chunkError k t.key e] := by
      rw [cashErrors, hone]
      simp [hne, chunkError]
    obtain ⟨t', ht', hkey, ho⟩ := mem_failures.mp hmem
    rw [herrors] at hisolates
    refine ⟨t', ht', ho, ?_⟩
    rw [hkey]
    refine hisolates.raised ?_ honly.written hreq
    unfold chunkError
    split
    · exact hspoken
    · intro hblank
      apply hspoken
      rw [strip_eq_empty] at hblank ⊢
      intro c hc
      exact hblank c (by rw [String.toList_append]; exact List.mem_append_right _ hc)

/-! ## What the layers add -/

theorem classify_partial {label : String} (h : label = "flex-trades" ∨ label = "flex-transactions")
    (err : String) : classifyFlexError (label ++ " partial: " ++ err) = classifyFlexError err := by
  have htext : label ++ " partial: " ++ err = (label ++ " partial") ++ ": " ++ err := by
    rw [show " partial: " = " partial" ++ ": " from by decide]
    simp only [String.append_assoc]
  have hlabel : classifyFlexError (label ++ " partial") = .unknown := by
    rcases h with rfl | rfl <;> decide
  rw [htext, classify_sep (by decide), hlabel]
  exact max_eq_right bot_le

/-- Digits and a few other characters make no pattern. -/
theorem unmarked_counted (i n : ℕ) :
    Unmarked ("Flex query " ++ toString i ++ "/" ++ toString n ++ " ") := by
  have hchars : ∀ c ∈ ("Flex query " ++ toString i ++ "/" ++ toString n ++ " ").toList,
      c ∈ "Flex query /".toList ∨ c.isDigit = true := by
    intro c hc
    simp only [String.toList_append, List.mem_append] at hc
    have hdigits : ∀ m : ℕ, c ∈ (toString m).toList → c.isDigit = true := by
      intro m hm
      rw [Nat.toString_eq_ofList_toDigits, String.toList_ofList] at hm
      exact Nat.isDigit_of_mem_toDigits (by decide) (by decide) hm
    rcases hc with (((h | h) | h) | h) | h
    · exact Or.inl ((by decide : "Flex query ".toList ⊆ "Flex query /".toList) h)
    · exact Or.inr (hdigits i h)
    · exact Or.inl ((by decide : "/".toList ⊆ "Flex query /".toList) h)
    · exact Or.inr (hdigits n h)
    · exact Or.inl ((by decide : " ".toList ⊆ "Flex query /".toList) h)
  have hforeign : ∀ k ∈ MARKERS, 'd' ∈ k.toList ∨ 't' ∈ k.toList ∨ 'n' ∈ k.toList ∨
      'U' ∈ k.toList ∨ 'H' ∈ k.toList := by decide
  apply unmarked_of_chars
  · intro h
    exact absurd (hchars _ h) (by decide)
  · intro k hk
    rcases hforeign k hk with h | h | h | h | h <;>
      exact ⟨_, h, fun h => absurd (hchars _ h) (by decide)⟩

/-- The query is named in the error, so its label is classified with it. -/
theorem classify_queryError (n : ℕ) (req : TradesRequest) (e : String) :
    classifyFlexError (queryError n req e) =
      max (classifyFlexError (req.entry.role ++ " " ++ req.entry.queryId))
        (classifyFlexError e) := by
  have htext : queryError n req e =
      (("Flex query " ++ toString (req.index + 1) ++ "/" ++ toString n ++ " ") ++ "(" ++
        (req.entry.role ++ " " ++ req.entry.queryId)) ++ "): " ++ e := by
    unfold queryError
    rw [show " (" = " " ++ "(" from by decide]
    simp only [String.append_assoc]
  rw [htext, classify_sep (by decide), classify_sep (by decide), (unmarked_counted _ n).classify]
  exact congrArg (max · _) (max_eq_right bot_le)

theorem mem_strftimeYmd (d : Date) : ∀ c ∈ (strftimeYmd d).toList, c.isDigit = true := by
  have hdigit : ∀ m < 10, (Nat.digitChar m).isDigit = true := by decide
  obtain ⟨⟨_, _, hmonth, _, hlast⟩, hyear⟩ := d.civil_valid
  have hday := hlast.trans
    (daysInMonth_le (Calendar.isLeap d.civil.year) d.civil.month (by omega))
  intro c hc
  simp only [strftimeYmd, String.toList_ofList, fourDigits, twoDigits, List.cons_append,
    List.nil_append, List.mem_cons, List.not_mem_nil, or_false] at hc
  rcases hc with rfl | rfl | rfl | rfl | rfl | rfl | rfl | rfl <;>
    exact hdigit _ (by omega)

theorem unmarked_days (a b : Date) : Unmarked (strftimeYmd a ++ ".." ++ strftimeYmd b) := by
  have hchars : ∀ c ∈ (strftimeYmd a ++ ".." ++ strftimeYmd b).toList,
      c.isDigit = true ∨ c = '.' := by
    intro c hc
    simp only [String.toList_append, List.mem_append] at hc
    rcases hc with (h | h) | h
    · exact Or.inl (mem_strftimeYmd a c h)
    · exact Or.inr (by simpa using h)
    · exact Or.inl (mem_strftimeYmd b c h)
  have hforeign : ∀ k ∈ MARKERS, 'e' ∈ k.toList ∨ 'o' ∈ k.toList := by decide
  apply unmarked_of_chars
  · intro h
    exact absurd (hchars _ h) (by decide)
  · intro k hk
    rcases hforeign k hk with h | h
    · exact ⟨_, h, fun h => absurd (hchars _ h) (by decide)⟩
    · exact ⟨_, h, fun h => absurd (hchars _ h) (by decide)⟩

theorem requestChunks_days {fromDate toDate : Option String} {chunks : List Chunk}
    (h : requestChunks fromDate toDate = .ok chunks) :
    chunks.length = 1 ∨
      ∀ c ∈ chunks, ∃ a b, c = (some (strftimeYmd a), some (strftimeYmd b)) := by
  unfold requestChunks at h
  split at h
  · split at h
    · cases h
    · cases h
      refine Or.inr ?_
      intro c hc
      obtain ⟨days, _, rfl⟩ := List.mem_map.mp hc
      exact ⟨_, _, rfl⟩
  · cases h
    exact Or.inl rfl

theorem classify_chunkError {fromDate toDate : Option String} {chunks : List Chunk}
    (h : requestChunks fromDate toDate = .ok chunks) {req : CashRequest}
    (hmem : req.chunk ∈ chunks) (e : String) :
    classifyFlexError (chunkError chunks.length req e) = classifyFlexError e := by
  unfold chunkError
  split
  · rfl
  · rename_i hmany
    rcases requestChunks_days h with hone | hdays
    · exact absurd hone hmany
    · obtain ⟨a, b, hchunk⟩ := hdays _ hmem
      rw [hchunk]
      simp only [Option.getD_some]
      rw [classify_sep (by decide), (unmarked_days a b).classify]
      exact max_eq_right bot_le

/-! ## Answers with a code -/

/-- Where an answer with a code was given. -/
inductive Refused where
  /-- To a SendRequest, in place of a reference code. -/
  | sendRequest
  /-- To the last poll of a GetStatement that was given up. -/
  | exhausted
  deriving DecidableEq, Repr

/-- What the client raises for the answer. -/
def Refused.text (flex : FlexService) (body : String) : Refused → Option String
  | sendRequest =>
    match readReference flex (.body body) with
    | .error (.valueError e) => some e
    | _ => none
  | exhausted => (unreadyReason flex (.body body)).map fun why => exhaustedMsg (some why)

/-- The answer carries the code `n`, and its message no pattern. -/
structure Coded (root : Element) (n : ℕ) (via : Refused) : Prop where
  code : codeValue (root.childText "ErrorCode" "") = some n
  message : Unmarked (root.childText "ErrorMessage" "")
  unreferenced : via = .sendRequest → strip (root.childText "ReferenceCode" "") = ""
  unready : via = .exhausted → localName root.tag = "FlexStatementResponse"

/-- The status `_statement_not_ready` reports. -/
def statementStatus (root : Element) : String :=
  (orNone (root.childText "Status" "")).getD "no Status"

/-- When the category of the code is what the exception is classified as, if it names the query by
`label`: nothing beside the code may say more than the code, and a SendRequest that is not answered
`Fail` does not say the code at all. -/
def Survives (root : Element) (n : ℕ) (label : String) : Refused → Prop
  | .sendRequest =>
    if lower (strip (root.childText "Status" "")) = "fail" then
      classifyFlexError label ≤ categoryOf n
    else classifyFlexError label = categoryOf n
  | .exhausted => classifyFlexError label ≤ categoryOf n ∧ ErrorCategory.transient ≤ categoryOf n ∧
      classifyFlexError (statementStatus root) ≤ categoryOf n

theorem childText_default (root : Element) (tag default : String) :
    root.childText tag default = default ∨ root.childText tag default = root.childText tag "" := by
  unfold Element.childText
  split
  · exact Or.inl rfl
  · split
    · exact Or.inl rfl
    · split
      · exact Or.inl rfl
      · exact Or.inr rfl

theorem Coded.unmarked_default {root : Element} {n : ℕ} {via : Refused} (h : Coded root n via)
    {default : String} (hdefault : Unmarked default) :
    Unmarked (root.childText "ErrorMessage" default) := by
  rcases childText_default root "ErrorMessage" default with hmsg | hmsg <;> rw [hmsg]
  · exact hdefault
  · exact h.message

theorem classify_failed {code msg : String} {n : ℕ} (hcode : codeValue code = some n)
    (hmsg : Unmarked msg) :
    classifyFlexError ("Flex request failed: [" ++ code ++ "] " ++ msg) = categoryOf n := by
  have htext : "Flex request failed: [" ++ code ++ "] " ++ msg =
      "Flex request failed" ++ ": " ++ ("[" ++ code ++ "] " ++ msg) := by
    rw [show "Flex request failed: [" = "Flex request failed" ++ ": " ++ "[" from by decide]
    simp only [String.append_assoc]
  rw [htext, classify_sep (by decide), classify_code hcode hmsg,
    show classifyFlexError "Flex request failed" = ⊥ from by decide, max_bot_left]

theorem classify_exhausted {status code msg : String} {n : ℕ} (hcode : codeValue code = some n)
    (hmsg : Unmarked msg) :
    classifyFlexError (exhaustedMsg (some (status ++ " [" ++ code ++ "] " ++ msg))) =
      max .transient (max (classifyFlexError status) (categoryOf n)) := by
  have htext : exhaustedMsg (some (status ++ " [" ++ code ++ "] " ++ msg)) =
      "Flex GetStatement did not return report after 24 attempts. Last" ++ ": " ++
        (status ++ " [" ++ (code ++ "] " ++ msg)) := by
    unfold exhaustedMsg
    rw [show "Flex GetStatement did not return report after 24 attempts. Last: " =
      "Flex GetStatement did not return report after 24 attempts. Last" ++ ": " from by
        decide +kernel]
    simp only [Option.getD_some, String.append_assoc]
  have hquoted : "[" ++ (code ++ "] " ++ msg) = "[" ++ code ++ "] " ++ msg := by
    simp only [String.append_assoc]
  have hprefix : classifyFlexError
      "Flex GetStatement did not return report after 24 attempts. Last" = .transient := by
    decide +kernel
  rw [htext, classify_sep (by decide), hprefix, classify_before, hquoted,
    classify_code hcode hmsg]

/-- What the text of the client says. -/
theorem Refused.classify_text {flex : FlexService} {body e : String} {root : Element} {n : ℕ}
    {via : Refused} (hroot : flex.fromstring body = .ok root) (hcoded : Coded root n via)
    (htext : via.text flex body = some e) :
    strip e ≠ "" ∧ ∀ label, max (classifyFlexError label) (classifyFlexError e) = categoryOf n ↔
      Survives root n label via := by
  have hunknown : Unmarked "Unknown error" := by decide
  have hnotReady : Unmarked "Report not ready" := by decide
  cases via with
  | sendRequest =>
    simp only [Refused.text, readReference, hroot, hcoded.unreferenced rfl, if_true] at htext
    unfold Survives
    split at htext
    · rename_i e' he
      cases htext
      split at he
      · rename_i hfail
        cases he
        refine ⟨strip_append_ne (strip_append_ne (strip_append_ne (by decide) _) _) _, ?_⟩
        intro label
        rw [if_pos hfail, classify_failed hcoded.code (hcoded.unmarked_default hunknown),
          max_eq_right_iff]
      · rename_i hother
        cases he
        refine ⟨by decide, ?_⟩
        intro label
        rw [if_neg hother, show classifyFlexError "Flex SendRequest returned no ReferenceCode" = ⊥
          from by decide, max_bot_right]
    · cases htext
  | exhausted =>
    have hgiven : root.childText "ErrorCode" "" ≠ "" := by
      intro hnil
      have hcode := hcoded.code
      rw [hnil] at hcode
      cases hcode
    have hmsg : Unmarked ((orNone (root.childText "ErrorMessage" "")).getD "Report not ready") := by
      unfold orNone
      split
      · exact hnotReady
      · exact hcoded.message
    simp only [Refused.text, unreadyReason, statementNotReady, hroot, hcoded.unready rfl, if_true,
      if_pos hgiven, Option.map_some, Option.some.injEq] at htext
    rw [← htext]
    refine ⟨strip_append_ne (by decide) _, ?_⟩
    intro label
    unfold Survives
    rw [classify_exhausted hcoded.code hmsg, ← statementStatus]
    rw [← max_assoc, ← max_assoc, max_eq_right_iff, max_le_iff, max_le_iff, and_assoc]

/-! ## The loop's reading -/

/-- The freshness database answers. -/
def FreshnessDb.Up (fresh : FreshnessDb) : Prop :=
  fresh.connect = .ok () ∧ ∀ kind n new, fresh.recordFreshness kind n new = .ok ()

/-- With the freshness database up, a dispatch raises what its handler raises. -/
theorem dispatch_raises {d : Deployment} {fresh : FreshnessDb} {kind : String} {payload : Dict}
    {today : Date} {gs : GoldenSource} {w : Wire} {exc : PyExc} (hup : fresh.Up)
    {handler : Deployment → Dict → Date → GoldenSource → Wire → Handled}
    (hhandler : handlerOf (strip kind) = some handler)
    (h : (dispatch d fresh kind payload today gs w).1 = .error exc) :
    (handler d payload today gs w).1 = .error exc := by
  unfold dispatch at h
  rw [hhandler] at h
  simp only [hup.1, hup.2] at h
  split at h
  · rename_i e w' gs' hrun
    rw [hrun]
    cases h
    rfl
  · cases h

/-- **The code survives exactly when nothing speaks over it.**  In a run whose only failure is an
answer with a code, the loop reads the code's category off the exception of `dispatch` exactly when
`Survives` holds of the answer and of the name the run gives its query. -/
theorem code_survives_iff (d : Deployment) (fresh : FreshnessDb) (payload : Dict) (today : Date)
    (gs : GoldenSource) (w : Wire) {body e : String} {root : Element} {n : ℕ} {via : Refused}
    (hup : fresh.Up) (hroot : d.flex.fromstring body = .ok root) (hcoded : Coded root n via)
    (htext : via.text d.flex body = some e) :
    let trades := fetchFlexTradesAndUpsertExecutions d.env payload today gs w
    let cash := fetchCashTransactionsFromFlex d.env payload today gs w
    (OnlyFailure trades.turns (queryRefusals d.env (allowFallback payload))
        (tradeRows trades.turns ≠ [] →
          (d.env.writeAccountExecutionsToDb (tradeRows trades.turns) gs).1 = .ok true) e →
      ∀ kind exc, strip kind = "flex-trades" →
        (dispatch d fresh kind payload today gs w).1 = .error exc →
        ∃ t ∈ trades.turns, t.outcome = .failed e ∧
          (classifyFlexError exc.str = categoryOf n ↔
            Survives root n (t.key.entry.role ++ " " ++ t.key.entry.queryId) via)) ∧
    ∀ req chunks, cashWindow payload gs today = .ok req →
      requestChunks req.fromDate req.toDate = .ok chunks →
      OnlyFailure cash.turns (chunkRefusals d.env (allowFallback payload && chunks.length = 1))
        (cashRows cash.turns ≠ [] → ∃ b,
          (d.env.upsertAccountTransactions (cashRows cash.turns) gs).1 = .ok b ∧ b.1 ≠ 0) e →
      ∀ kind exc, strip kind = "flex-transactions" →
        (dispatch d fresh kind payload today gs w).1 = .error exc →
        (classifyFlexError exc.str = categoryOf n ↔ Survives root n "" via) := by
  intro trades cash
  obtain ⟨hspoken, hreads⟩ := Refused.classify_text hroot hcoded htext
  constructor
  · intro honly kind exc hkind hraised
    have hhandler : handlerOf (strip kind) = some handleFlexTrades := by
      rw [hkind]
      rfl
    have hreq := dispatch_raises hup hhandler hraised
    simp only [handleFlexTrades] at hreq
    rcases trades_run_cases d.env payload today gs w with ⟨why, hrun⟩ | ⟨req, _, hrun⟩
    · simp only [trades, hrun] at honly
      cases honly.refused
    · rw [show trades = _ from hrun] at honly ⊢
      rw [hrun] at hreq
      obtain ⟨t, ht, ho, herr⟩ := finishTrades_raises (fun t ht => (visit_turns t ht).2) honly hreq
      refine ⟨t, ht, ho, ?_⟩
      rw [← hreads]
      rcases herr with herr | herr
      · rw [herr, classify_queryError]
      · rw [herr, classify_partial (Or.inl rfl), classify_queryError]
  · intro req chunks hwin hchunks honly kind exc hkind hraised
    have hhandler : handlerOf (strip kind) = some handleFlexTransactions := by
      rw [hkind]
      rfl
    have hreq := dispatch_raises hup hhandler hraised
    simp only [handleFlexTransactions] at hreq
    rcases cash_run_cases d.env payload today gs w with ⟨why, hrun⟩ |
      ⟨req', chunks', hwin', hchunks', hrun⟩
    · simp only [cash, hrun] at honly
      cases honly.refused
    · rw [hwin] at hwin'
      cases hwin'
      rw [hchunks] at hchunks'
      cases hchunks'
      rw [show cash = _ from hrun] at honly
      rw [hrun] at hreq
      obtain ⟨t, ht, ho, herr⟩ := finishCash_raises hspoken (fun t ht => (visit_turns t ht).2) honly
        hreq
      have hchunk := (mem_cashRequests.mp (visit_turns t ht).1).2
      rw [← hreads, show classifyFlexError "" = ⊥ from by decide, max_bot_left]
      rcases herr with herr | herr
      · rw [herr, classify_chunkError hchunks hchunk]
      · rw [herr, classify_partial (Or.inr rfl), classify_chunkError hchunks hchunk]

/-! ## One query refused -/

def tooManyMsg : String := "Too many requests have been made from this token."

/-- A SendRequest that is answered with a warning in place of a reference code. -/
def warnedDoc (code msg : String) : String × Element :=
  ("<FlexStatementResponse><Status>Warn</Status><ErrorCode>" ++ code ++
    "</ErrorCode><ErrorMessage>" ++ msg ++ "</ErrorMessage></FlexStatementResponse>",
    .mk "FlexStatementResponse" [] none
      [.mk "Status" [] "Warn" [], .mk "ErrorCode" [] code [], .mk "ErrorMessage" [] msg []])

/-- IB answers query 101 with a fill, and query 202 with the document. -/
def refusesSecond (doc : String × Element) : Deployment :=
  { hostOnly with
    tokens := ⟨"host-token", "secondary-token"⟩
    flex := scripted
      (fun req =>
        match req with
        | .sendRequest _ "202" _ _ => doc.1
        | .sendRequest .. => acceptedDoc.1
        | .getStatement .. => tradesReport.1)
      [acceptedDoc, tradesReport, doc] }

theorem refusesSecond_reads {doc : String × Element} (haccepted : acceptedDoc.1 ≠ doc.1)
    (hreport : tradesReport.1 ≠ doc.1) :
    (refusesSecond doc).flex.fromstring doc.1 = .ok doc.2 := by
  simp [refusesSecond, scripted, haccepted, hreport]

theorem freshnessUp_up : freshnessUp.Up := ⟨rfl, fun _ _ _ => rfl⟩

/-- A refusal with code 1018 throttles. -/
theorem code_survives_throttled :
    ∃ exc, (dispatch (refusesSecond (refusedDoc "1018" tooManyMsg)) freshnessUp "flex-trades"
      queuedPayload tradesToday dailyImport []).1 = .error exc ∧
      classifyFlexError exc.str = .throttled := by
  have hrun :
      let d := refusesSecond (refusedDoc "1018" tooManyMsg)
      let run := fetchFlexTradesAndUpsertExecutions d.env queuedPayload tradesToday dailyImport []
      OnlyFailure run.turns (queryRefusals d.env (allowFallback queuedPayload))
          (tradeRows run.turns ≠ [] →
            (d.env.writeAccountExecutionsToDb (tradeRows run.turns) dailyImport).1 = .ok true)
          ("Flex request failed: [1018] " ++ tooManyMsg) ∧
        (dispatch d freshnessUp "flex-trades" queuedPayload tradesToday dailyImport []).1 =
          .error (.other "RuntimeError" ("flex-trades partial: Flex query 2/2 (secondary 202): " ++
            "Flex request failed: [1018] " ++ tooManyMsg)) := by
    decide +kernel
  obtain ⟨honly, hraised⟩ := hrun
  have htext : Refused.text (refusesSecond (refusedDoc "1018" tooManyMsg)).flex
      (refusedDoc "1018" tooManyMsg).1 .sendRequest =
        some ("Flex request failed: [1018] " ++ tooManyMsg) := by
    decide +kernel
  have hcoded : Coded (refusedDoc "1018" tooManyMsg).2 1018 .sendRequest :=
    ⟨by decide, by decide +kernel, fun _ => by decide, by rintro ⟨⟩⟩
  obtain ⟨htrades, _⟩ := code_survives_iff (refusesSecond (refusedDoc "1018" tooManyMsg))
    freshnessUp queuedPayload tradesToday dailyImport [] freshnessUp_up
    (refusesSecond_reads (by decide +kernel) (by decide +kernel)) hcoded htext
  obtain ⟨t, _, _, hiff⟩ := htrades honly "flex-trades" _ (by decide) hraised
  refine ⟨_, hraised, hiff.mpr ?_⟩
  have hfail : lower (strip ((refusedDoc "1018" tooManyMsg).2.childText "Status" "")) = "fail" := by
    decide
  rw [Survives, if_pos hfail]
  exact ErrorCategory.le_throttled _

/-- A warning with code 1018 is the only failure of the run, and is not read as a throttle. -/
theorem warn_loses_code :
    let d := refusesSecond (warnedDoc "1018" tooManyMsg)
    let run := fetchFlexTradesAndUpsertExecutions d.env queuedPayload tradesToday dailyImport []
    Coded (warnedDoc "1018" tooManyMsg).2 1018 .sendRequest ∧
      OnlyFailure run.turns (queryRefusals d.env false)
        ((d.env.writeAccountExecutionsToDb (tradeRows run.turns) dailyImport).1 = .ok true)
        "Flex SendRequest returned no ReferenceCode" ∧
      ∃ exc, (dispatch d freshnessUp "flex-trades" queuedPayload tradesToday dailyImport []).1 =
        .error exc ∧ classifyFlexError exc.str = .unknown ∧ categoryOf 1018 = .throttled := by
  have hcoded : Coded (warnedDoc "1018" tooManyMsg).2 1018 .sendRequest :=
    ⟨by decide, by decide +kernel, fun _ => by decide, by rintro ⟨⟩⟩
  let d := refusesSecond (warnedDoc "1018" tooManyMsg)
  let run := fetchFlexTradesAndUpsertExecutions d.env queuedPayload tradesToday dailyImport []
  have hrun : OnlyFailure run.turns (queryRefusals d.env false)
      ((d.env.writeAccountExecutionsToDb (tradeRows run.turns) dailyImport).1 = .ok true)
      "Flex SendRequest returned no ReferenceCode" ∧
      (dispatch d freshnessUp "flex-trades" queuedPayload tradesToday dailyImport []).1 =
        .error (.other "RuntimeError" ("flex-trades partial: Flex query 2/2 (secondary 202): " ++
          "Flex SendRequest returned no ReferenceCode")) := by
    decide +kernel
  obtain ⟨honly, hraised⟩ := hrun
  exact ⟨hcoded, honly, _, hraised, by decide +kernel, by decide⟩

end FlexQuery
