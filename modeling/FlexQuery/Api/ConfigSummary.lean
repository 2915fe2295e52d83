import FlexQuery.Orchestration.ConfigWrite
import FlexQuery.Python.DateTime
import FlexQuery.Python.Number

/-!
# The configuration endpoints

`api/config_summary.py`: the summary, and the write over `write_flex_config`.

* `maskTokenLast4`, `configSummary` — what the summary shows.
* `optionalDays`, `normalizeFlexAccounts` — how the fields of a body are read.
* `writeFlexConfigEndpoint` — the answer, and the database it leaves.
* `InEffect` — what a body names is what the two readers show.
* `writeFlexConfig_true` — a write that returns `True` is read back as it was asked for.
* `named_in_effect_iff` — when a body that is answered ok is in effect.
-/

set_option autoImplicit false

namespace FlexQuery

open Session

/-- An `HTTPException`, or another exception. -/
inductive Unanswered where
  | http (status : ℕ) (detail : String)
  | raised (e : PyExc)
  deriving DecidableEq, Repr

/-! ## The summary -/

/-- `s[-4:]`. -/
def lastFour (s : String) : String := String.ofList (s.toList.drop (s.toList.length - 4))

/-- `mask_token_last4`. -/
def maskTokenLast4 (token : String) : Option String := (orNone (strip token)).map lastFour

/-- `env_host`, `env_sec`: their tokens and sources as `resolve_flex_tokens` returns them. -/
def resolveFlexTokens (tokens : FlexTokens) : String × String × String × String :=
  let source := fun token => if token ≠ "" then "secret" else "none"
  (strip tokens.host, strip tokens.secondary, source (strip tokens.host),
    source (strip tokens.secondary))

/-- `flex_tokens_issued_at`, with the variable's value and the Unix time. -/
def flexTokensIssuedAt (issuedAt : String) (now : ℤ) : Option String × Option ℤ :=
  let raw := strip issuedAt
  if raw = "" then (none, none)
  else
    match strptime [.year, .lit '-', .month, .lit '-', .day] "%Y-%m-%d" (slice raw 10) with
    | .error _ => (raw, none)
    | .ok issued => (isoformat issued.date.civil, some (max 0 ((now - issued.unix) / 86400)))

/-- The answer of the summary. -/
structure ConfigSummary where
  hostTokenSet : Bool
  hostTokenLast4 : Option String
  secondaryTokenSet : Bool
  secondaryTokenLast4 : Option String
  hostSource : String
  secondarySource : String
  issuedAt : Option String
  ageDays : Option ℤ
  source : String
  rangeDays : ℤ × ℤ
  queryRows : List SummaryRow
  deriving DecidableEq, Repr

/-- `config_summary`, by what its two reads answer. -/
def configSummary (tokens : FlexTokens) (issuedAt : String) (now : ℤ)
    (days : Except PyExc (ℤ × ℤ)) (rows : Except PyExc (List QueryRow)) :
    Except Unanswered ConfigSummary :=
  let (hostTok, secTok, hostSrc, secSrc) := resolveFlexTokens tokens
  match days with
  | .error e => .error (.http 503 ("flex settings unreadable: " ++ e.str))
  | .ok rangeDays =>
    let issued := flexTokensIssuedAt issuedAt now
    .ok {
      hostTokenSet := (maskTokenLast4 hostTok).isSome
      hostTokenLast4 := maskTokenLast4 hostTok
      secondaryTokenSet := (maskTokenLast4 secTok).isSome
      secondaryTokenLast4 := maskTokenLast4 secTok
      hostSource := hostSrc
      secondarySource := secSrc
      issuedAt := issued.1
      ageDays := issued.2
      source := if hostSrc = "secret" ∨ secSrc = "secret" then "secret" else "none"
      rangeDays := rangeDays
      queryRows := (rows.toOption.getD []).map summaryRow }

/-! ## `int()` and `str()` of a value -/

/-- A finite float as a fraction. -/
def PyFloat.ratio (x : PyFloat) : Option (ℤ × ℕ) :=
  match x.unpack with
  | .zero _ => some (0, 1)
  | .finite .positive m e _ => some ((m * 2 ^ e.toNat : ℕ), 2 ^ (-e).toNat)
  | .finite .negative m e _ => some (-(m * 2 ^ e.toNat : ℕ), 2 ^ (-e).toNat)
  | _ => none

/-- `int(v)`; a float is cut off towards zero. -/
def pyIntOf : Json → Except PyExc ℤ
  | .bool b => .ok (if b then 1 else 0)
  | .int n => .ok n
  | .float bits =>
    match PyFloat.ratio (.ofBits bits) with
    | some r => .ok (r.1.tdiv r.2)
    | none =>
      if (Float.Model.ofBits bits).isNaN then
        .error (.valueError "cannot convert float NaN to integer")
      else .error (.other "OverflowError" "cannot convert float infinity to integer")
  | .str s => pyInt s
  | _ => .error (.other "TypeError"
      "int() argument must be a string, a bytes-like object or a real number")

/-- `str(v)`; `repr` is that of lists and dictionaries. -/
def pyStr (repr : Json → String) : Json → String
  | .null => "None"
  | .bool true => "True"
  | .bool false => "False"
  | .int n => toString n
  | .float bits => strFloat (.ofBits bits)
  | .str s => s
  | v => repr v

/-! ## The fields of a body -/

/-- `_optional_days`. -/
def optionalDays (v : Option Json) : Except PyExc (Option ℤ) :=
  match v with
  | none | some .null | some (.str "") => .ok none
  | some v =>
    match pyIntOf v with
    | .ok n => .ok (some (max 1 n))
    | .error (.valueError _) => .ok none
    | .error (.other cls msg) =>
      if cls = "TypeError" then .ok none else .error (.other cls msg)

/-- `str(a.get(k) or default).strip()`. -/
def accountField (repr : Json → String) (a : Dict) (k default : String) : String :=
  strip (((a.get k).filter Json.truthy).elim default (pyStr repr))

/-- One item of `accounts`; none when it is skipped. -/
def normalizeAccount (repr : Json → String) : Json → Option Account
  | .obj a =>
    let qh := accountField repr a "query_host_id" ""
    if qh = "" then none
    else some {
      queryHostId := qh
      querySecondaryId := orNone (accountField repr a "query_secondary_id" "")
      queryLabel := orNone (accountField repr a "query_label" "")
      purpose := (orNone (accountField repr a "purpose" "cash_transactions")).getD
        "cash_transactions" }
  | _ => none

/-- `normalize_flex_accounts`; a text or a dictionary has no dictionary among its items. -/
def normalizeFlexAccounts (repr : Json → String) (raw : Json) : Except PyExc (List Account) :=
  if raw.truthy then
    match raw with
    | .arr items => .ok (items.filterMap (normalizeAccount repr))
    | .str _ | .obj _ => .ok []
    | .bool _ => .error (.other "TypeError" "'bool' object is not iterable")
    | .float _ => .error (.other "TypeError" "'float' object is not iterable")
    | _ => .error (.other "TypeError" "'int' object is not iterable")
  else .ok []

def TOKEN_FIELDS : List String := ["host_token", "secondary_token"]

def RANGE_FIELDS : List String := ["flex_default_range_days", "flex_init_range_days"]

def WRITE_FIELDS : List String := "accounts" :: RANGE_FIELDS

def TOKENS_NOT_STORED : String :=
  "Flex tokens are not stored by this endpoint. " ++
    "Set them in the K8s Secret bifrost-flex-tokens (make sync-flex-tokens)."

/-! ## The endpoint -/

/-- The dictionary of an answer, beside its `"ok": True`. -/
structure WriteAnswer where
  accounts : Option (List Account)
  defaultDays : Option ℤ
  initDays : Option ℤ
  deriving DecidableEq, Repr

/-- `accounts`: none when the body has no such field. -/
def readAccounts (repr : Json → String) (payload : Dict) :
    Except Unanswered (Option (List Account)) :=
  match payload.get "accounts" with
  | none => .ok none
  | some raw =>
    match normalizeFlexAccounts repr raw with
    | .error e => .error (.raised e)
    | .ok [] => .error (.http 400 "accounts must include at least one query_host_id")
    | .ok accounts => .ok (some accounts)

/-- What a body asks for, unless it is refused. -/
def readRequest (repr : Json → String) (payload : Dict) : Except Unanswered WriteRequest :=
  if TOKEN_FIELDS.any fun k => (payload.get k).isSome then
    .error (.http 409 TOKENS_NOT_STORED)
  else if !WRITE_FIELDS.any fun k => (payload.get k).isSome then
    .error (.http 400 "empty flex config write")
  else
    match readAccounts repr payload with
    | .error why => .error why
    | .ok accounts =>
      match optionalDays (payload.get "flex_default_range_days"),
        optionalDays (payload.get "flex_init_range_days") with
      | .error e, _ => .error (.raised e)
      | .ok _, .error e => .error (.raised e)
      | .ok defaultDays, .ok initDays => .ok ⟨accounts, defaultDays, initDays⟩

/-- `core_config(load_config())`. -/
def loadCore (env : Environ) (file : Option Yaml) : Except PyExc YamlDict :=
  (loadConfig env file).bind (coreConfig env)

section
variable {κ : Type} (server : ConfigServer κ)

/-- `write_flex_config_endpoint`: the answer, and the database and the process it leaves. -/
def writeFlexConfigEndpoint (repr : Json → String) (env : Environ) (file : Option Yaml)
    (ids : ℕ → ℕ) (body : Option Dict) (w : ConfigWorld κ) :
    Except Unanswered WriteAnswer × ConfigDb κ × Process :=
  match readRequest repr (body.getD []) with
  | .error why => (.error why, w.db, w.process)
  | .ok req =>
    match loadCore env file with
    | .error e => (.error (.raised e), w.db, w.process)
    | .ok config =>
      match writeFlexConfig server config ids req w with
      | (true, db, process) => (.ok ⟨req.accounts, req.defaultDays, req.initDays⟩, db, process)
      | (false, db, process) => (.error (.http 500 "failed to write flex config"), db, process)

end

/-! ## What is claimed of it -/

/-- The value of a field that names something: neither null nor blank. -/
def named (payload : Dict) (k : String) : Option Json :=
  (payload.get k).filter fun v =>
    match v with
    | .null => false
    | .str s => strip s ≠ ""
    | _ => true

/-- The number a value is; a text is one when `int()` reads it. -/
def number : Json → Option ℚ
  | .bool b => some (if b then 1 else 0)
  | .int n => some n
  | .float bits => (PyFloat.ratio (.ofBits bits)).map fun r => (r.1 : ℚ) / r.2
  | .str s => (pyInt s).toOption.map fun n => (n : ℚ)
  | _ => none

/-- An echoed account, as a row of `config_summary`. -/
def Account.echoed (a : Account) : SummaryRow where
  purpose := a.purpose.getD ""
  queryLabel := a.queryLabel
  queryHostId := a.queryHostId.getD ""
  querySecondaryId := a.querySecondaryId

/-- The value is a number, and at least one day of it is in effect. -/
def DaysInEffect (v : Json) (days : ℤ) : Prop := ∃ q, number v = some q ∧ (days : ℚ) = max 1 q

/-- What the body names is in effect: the rows of `config_summary` are the accounts of the answer,
and each range setting is the number named for it. -/
structure InEffect (payload : Dict) (answer : WriteAnswer) (after : ConfigTables) : Prop where
  accounts : ∀ v, named payload "accounts" = some v →
    ∃ echoed, answer.accounts = some echoed ∧ summaryRows after = echoed.map Account.echoed
  defaultDays : ∀ v, named payload "flex_default_range_days" = some v →
    ∀ gs, DaysInEffect v (getFlexRangeDays (after.over gs)).1
  initDays : ∀ v, named payload "flex_init_range_days" = some v →
    ∀ gs, DaysInEffect v (getFlexRangeDays (after.over gs)).2

/-- A number that `max(1, int(v))` keeps: below one, or whole. -/
def KeptDays (v : Json) : Prop := ∃ q, number v = some q ∧ (q < 1 ∨ ∃ n : ℤ, q = n)

/-! ## A number of days -/

/-- What is cut off shows, unless the number is below one. -/
theorem max_tdiv_iff (num : ℤ) {den : ℕ} (hden : 0 < den) :
    ((max 1 (num.tdiv den) : ℤ) : ℚ) = max 1 ((num : ℚ) / den) ↔
      (num : ℚ) / den < 1 ∨ ∃ n : ℤ, (num : ℚ) / den = n := by
  have hpos : (0 : ℚ) < den := by exact_mod_cast hden
  have hden' : (0 : ℤ) < den := by exact_mod_cast hden
  rcases lt_or_ge num den with hsmall | hlarge
  · have hlt : (num : ℚ) / den < 1 := by
      rw [div_lt_one hpos]
      exact_mod_cast hsmall
    have htrunc : num.tdiv den ≤ 1 := by
      rcases le_or_gt 0 num with hnum | hnum
      · rw [Int.tdiv_eq_ediv_of_nonneg hnum, Int.ediv_eq_zero_of_lt hnum hsmall]
        omega
      · have hneg : 0 ≤ (-num).tdiv den := Int.tdiv_nonneg (by omega) hden'.le
        rw [Int.neg_tdiv] at hneg
        omega
    refine iff_of_true ?_ (Or.inl hlt)
    rw [max_eq_left htrunc, max_eq_left hlt.le]
    norm_num
  · have hnum : 0 ≤ num := by omega
    have hge : (1 : ℚ) ≤ (num : ℚ) / den := by
      rw [le_div_iff₀ hpos, one_mul]
      exact_mod_cast hlarge
    have htrunc : 1 ≤ num.tdiv den := by
      rw [Int.tdiv_eq_ediv_of_nonneg hnum]
      exact Int.le_ediv_of_mul_le hden' (by omega)
    rw [max_eq_right htrunc, max_eq_right hge]
    constructor
    · intro h
      exact Or.inr ⟨_, h.symm⟩
    · rintro (hlt | ⟨n, hn⟩)
      · exact absurd hlt (not_lt.mpr hge)
      · have hmul : num = n * den := by
          rw [div_eq_iff hpos.ne'] at hn
          exact_mod_cast hn
        rw [hn, hmul, Int.mul_tdiv_cancel _ hden'.ne']

theorem PyFloat.ratio_pos {x : PyFloat} {r : ℤ × ℕ} (h : x.ratio = some r) : 0 < r.2 := by
  unfold PyFloat.ratio at h
  split at h <;> cases h <;> simp

/-- A value that is a number is one to `int()`; a whole one, and one below the least number of
days, is kept. -/
theorem pyIntOf_number {v : Json} {q : ℚ} (h : number v = some q) :
    ∃ n, pyIntOf v = .ok n ∧
      (((max 1 n : ℤ) : ℚ) = max 1 q ↔ q < 1 ∨ ∃ m : ℤ, q = m) := by
  have hwhole : ∀ n : ℤ, ((max 1 n : ℤ) : ℚ) = max 1 (n : ℚ) ↔ (n : ℚ) < 1 ∨ ∃ m : ℤ, (n : ℚ) = m :=
    fun n => iff_of_true (by push_cast; rfl) (Or.inr ⟨n, rfl⟩)
  cases v with
  | null => cases h
  | arr items => cases h
  | obj fields => cases h
  | bool b =>
    cases h
    refine ⟨if b then 1 else 0, rfl, ?_⟩
    have hb := hwhole (if b then 1 else 0)
    rwa [show ((if b then (1 : ℤ) else 0 : ℤ) : ℚ) = if b then 1 else 0 by cases b <;> rfl] at hb
  | int n =>
    cases h
    exact ⟨n, rfl, hwhole n⟩
  | float bits =>
    obtain ⟨r, hr, rfl⟩ := Option.map_eq_some_iff.mp h
    refine ⟨r.1.tdiv r.2, ?_, max_tdiv_iff r.1 (PyFloat.ratio_pos hr)⟩
    simp only [pyIntOf, hr]
  | str s =>
    obtain ⟨n, hn, rfl⟩ := Option.map_eq_some_iff.mp h
    cases hread : pyInt s with
    | error e =>
      rw [hread] at hn
      cases hn
    | ok m =>
      rw [hread] at hn
      cases hn
      exact ⟨m, hread, hwhole m⟩

theorem optionalDays_of_read {v : Json} {n : ℤ} (hblank : v ≠ .str "") (h : pyIntOf v = .ok n) :
    optionalDays (some v) = .ok (some (max 1 n)) := by
  unfold optionalDays
  split
  · rename_i hnone
    cases hnone
  · rename_i hnull
    cases hnull
    cases h
  · rename_i hempty
    cases hempty
    exact absurd rfl hblank
  · rename_i u _ _ hsome
    cases hsome
    rw [h]

/-- A range setting that is named, once the write has read it. -/
theorem daysInEffect_iff {payload : Dict} {k : String} {v : Json} {asked : Option ℤ} {before : ℤ}
    (hnamed : named payload k = some v) (hasked : optionalDays (payload.get k) = .ok asked) :
    DaysInEffect v (halfAfter asked before) ↔ KeptDays v := by
  obtain ⟨hget, hvalue⟩ := Option.filter_eq_some_iff.mp hnamed
  have hblank : v ≠ .str "" := by
    rintro rfl
    cases hvalue
  rw [hget] at hasked
  unfold DaysInEffect KeptDays
  refine exists_congr fun q => and_congr_right fun hnumber => ?_
  obtain ⟨n, hread, hkept⟩ := pyIntOf_number hnumber
  rw [optionalDays_of_read hblank hread] at hasked
  cases hasked
  rw [halfAfter, max_eq_right (le_max_left 1 n)]
  exact hkept

/-! ## The accounts -/

theorem orNone_trimmed (s : String) : trimmed (orNone (strip s)) = orNone (strip s) := by
  unfold trimmed orNone
  split
  · rfl
  · rename_i h
    simp [strip_strip, h]

/-- A purpose that is left out is that of cash transactions; either one is trimmed. -/
theorem defaulted_purpose (s : String) :
    (orNone (strip s)).getD "cash_transactions" ≠ "" ∧
      strip ((orNone (strip s)).getD "cash_transactions") =
        (orNone (strip s)).getD "cash_transactions" := by
  unfold orNone
  split
  · decide
  · rename_i h
    exact ⟨h, strip_strip s⟩

theorem accountPurpose_trimmed {a : Account} {p : String} (h : a.purpose = some p) (hne : p ≠ "")
    (htrimmed : strip p = p) : accountPurpose a = p := by
  simp [accountPurpose, h, orNone, hne, htrimmed]

/-- An account is stored as it is echoed, and has a host id. -/
theorem normalizeAccount_some {repr : Json → String} {v : Json} {a : Account}
    (h : normalizeAccount repr v = some a) :
    a.summary = a.echoed ∧ strip (a.queryHostId.getD "") ≠ "" := by
  unfold normalizeAccount at h
  split at h
  · rename_i fields
    simp only at h
    split at h
    · cases h
    · rename_i hhost
      cases h
      unfold accountField at hhost ⊢
      obtain ⟨hne, htrimmed⟩ := defaulted_purpose
        (((Dict.get fields "purpose").filter Json.truthy).elim "cash_transactions" (pyStr repr))
      constructor
      · rw [Account.summary, accountPurpose_trimmed rfl hne htrimmed]
        simp only [orNone_trimmed, Option.getD_some, strip_strip, Account.echoed]
      · rw [Option.getD_some, strip_strip]
        exact hhost
  · cases h

theorem normalizeFlexAccounts_ok {repr : Json → String} {raw : Json} {accounts : List Account}
    (h : normalizeFlexAccounts repr raw = .ok accounts) :
    ∀ a ∈ accounts, a.summary = a.echoed ∧ strip (a.queryHostId.getD "") ≠ "" := by
  unfold normalizeFlexAccounts at h
  split at h
  · cases raw with
    | arr items =>
      cases h
      intro a ha
      obtain ⟨v, _, hv⟩ := List.mem_filterMap.mp ha
      exact normalizeAccount_some hv
    | str s =>
      cases h
      simp
    | obj fields =>
      cases h
      simp
    | null => cases h
    | bool b => cases h
    | int n => cases h
    | float bits => cases h
  · cases h
    simp

/-- The accounts of a request are those that are kept, and are read back as they are echoed. -/
theorem readAccounts_ok {repr : Json → String} {payload : Dict} {accounts : List Account}
    (h : readAccounts repr payload = .ok (some accounts)) :
    (validAccounts accounts).map Account.summary = accounts.map Account.echoed := by
  unfold readAccounts at h
  split at h
  · cases h
  · rename_i raw _
    cases hraw : normalizeFlexAccounts repr raw with
    | error e =>
      rw [hraw] at h
      cases h
    | ok normalized =>
      have hall := normalizeFlexAccounts_ok hraw
      rw [hraw] at h
      cases normalized with
      | nil => cases h
      | cons a rest =>
        cases h
        have hvalid : validAccounts (a :: rest) = a :: rest := by
          rw [validAccounts, List.filter_eq_self]
          intro x hx
          exact decide_eq_true (hall x hx).2
        rw [hvalid]
        exact List.map_congr_left fun x hx => (hall x hx).1

/-! ## A request that is answered -/

/-- What is read of a body that is not refused. -/
structure Read (repr : Json → String) (payload : Dict) (req : WriteRequest) : Prop where
  accounts : readAccounts repr payload = .ok req.accounts
  defaultDays : optionalDays (payload.get "flex_default_range_days") = .ok req.defaultDays
  initDays : optionalDays (payload.get "flex_init_range_days") = .ok req.initDays

theorem readRequest_ok {repr : Json → String} {payload : Dict} {req : WriteRequest}
    (h : readRequest repr payload = .ok req) : Read repr payload req := by
  unfold readRequest at h
  split at h
  · cases h
  · split at h
    · cases h
    · cases haccounts : readAccounts repr payload with
      | error why =>
        rw [haccounts] at h
        cases h
      | ok accounts =>
        rw [haccounts] at h
        cases hdefault : optionalDays (payload.get "flex_default_range_days") with
        | error e =>
          rw [hdefault] at h
          cases h
        | ok defaultDays =>
          cases hinit : optionalDays (payload.get "flex_init_range_days") with
          | error e =>
            rw [hdefault, hinit] at h
            cases h
          | ok initDays =>
            rw [hdefault, hinit] at h
            cases h
            exact ⟨haccounts, hdefault, hinit⟩

section
variable {κ : Type} {server : ConfigServer κ} {ids : ℕ → ℕ} {w : ConfigWorld κ}

theorem target_nothing {req : WriteRequest} (h : (!req.rangeRequested && req.accounts.isNone) = true)
    (t : ConfigTables) : req.target ids t = t := by
  obtain ⟨hrange, haccounts⟩ := (Bool.and_eq_true _ _).mp h
  rw [Option.isNone_iff_eq_none] at haccounts
  simp only [Bool.not_eq_true'] at hrange
  simp [WriteRequest.target, queryStatements, haccounts, hrange]

/-- A write that returns `True` is read back as it was asked for. -/
theorem writeFlexConfig_true {config : YamlDict} {req : WriteRequest}
    (h : (writeFlexConfig server config ids req w).1 = true) :
    ReadsBack req w.db.tables (writeFlexConfig server config ids req w).2.1.tables := by
  have hreads := target_readsBack ids req w.db.tables
  unfold writeFlexConfig at h ⊢
  split at h
  · cases h
  · rename_i hready
    rw [if_neg hready]
    split at h
    · cases h
    · rename_i hvalid
      rw [if_neg hvalid]
      split at h
      · rename_i hnothing
        rw [if_pos hnothing]
        rwa [target_nothing hnothing] at hreads
      · rename_i hasked
        rw [if_neg hasked]
        have hreq : req.rangeRequested = true ∨ req.accounts.isSome = true := by
          cases hrange : req.rangeRequested with
          | true => exact Or.inl rfl
          | false =>
            rw [hrange, Bool.not_false, Bool.true_and] at hasked
            exact Or.inr (Option.isSome_iff_ne_none.mpr fun hnone => hasked (by rw [hnone]; rfl))
        cases hopen : w.fates.headD .arrives with
        | lost text carriedOut =>
          rw [hopen] at h
          cases h
        | arrives =>
          rw [hopen] at h
          have hprepare := triple_prepare server ids hreq (t := w.db.tables)
          have hstart : Shows ConfigDb.tables w.db.tables w.db.tables w.link := Shows.idle rfl rfl
          simp only [run_bind] at h ⊢
          rcases hrun : Client.run (prepare server ids req) w.link with ⟨f | _, l⟩
          · rw [hrun] at h
            cases h
          · obtain ⟨⟨_, hview⟩, work, hwork⟩ := hprepare.ok hstart hrun
            have htables : work.tables = req.target ids w.db.tables :=
              hview work (by rw [Link.view, hwork])
            rw [hrun] at h
            simp only [run_commit hwork] at h ⊢
            cases hfate : l.fate with
            | lost text carriedOut =>
              rw [hfate] at h
              cases h
            | arrives => exact htables ▸ hreads

/-- What an answer that is ok leaves: a request that was read, and a write that returned `True`. -/
theorem endpoint_ok {repr : Json → String} {env : Environ} {file : Option Yaml}
    {body : Option Dict} {answer : WriteAnswer}
    (h : (writeFlexConfigEndpoint server repr env file ids body w).1 = .ok answer) :
    ∃ req : WriteRequest, Read repr (body.getD []) req ∧
      answer = ⟨req.accounts, req.defaultDays, req.initDays⟩ ∧
      ReadsBack req w.db.tables
        (writeFlexConfigEndpoint server repr env file ids body w).2.1.tables := by
  unfold writeFlexConfigEndpoint at h ⊢
  cases hread : readRequest repr (body.getD []) with
  | error why =>
    rw [hread] at h
    cases h
  | ok req =>
    rw [hread] at h
    simp only at h ⊢
    cases hcore : loadCore env file with
    | error e =>
      rw [hcore] at h
      cases h
    | ok config =>
      rw [hcore] at h
      simp only at h ⊢
      have htrue := @writeFlexConfig_true κ server ids w config req
      rcases hwrite : writeFlexConfig server config ids req w with ⟨written, db, process⟩
      rw [hwrite] at h htrue
      cases written with
      | false => cases h
      | true =>
        cases h
        exact ⟨req, readRequest_ok hread, rfl, htrue rfl⟩

/-- **In effect.**  A body that is answered ok is in effect if and only if each range setting it
names is a number that is whole, or below one. -/
theorem named_in_effect_iff (server : ConfigServer κ) (ids : ℕ → ℕ) (w : ConfigWorld κ)
    (repr : Json → String) (env : Environ) (file : Option Yaml) (body : Option Dict)
    {answer : WriteAnswer}
    (h : (writeFlexConfigEndpoint server repr env file ids body w).1 = .ok answer) :
    InEffect (body.getD []) answer
        (writeFlexConfigEndpoint server repr env file ids body w).2.1.tables ↔
      ∀ k ∈ RANGE_FIELDS, ∀ v, named (body.getD []) k = some v → KeptDays v := by
  obtain ⟨req, hread, rfl, hback⟩ := endpoint_ok h
  constructor
  · rintro ⟨_, hdefault, hinit⟩ k hk v hv
    simp only [RANGE_FIELDS, List.mem_cons, List.not_mem_nil, or_false] at hk
    rcases hk with rfl | rfl
    · have hdays := hdefault v hv NO_ROWS
      rw [hback.defaultDays] at hdays
      exact (daysInEffect_iff hv hread.defaultDays).mp hdays
    · have hdays := hinit v hv NO_ROWS
      rw [hback.initDays] at hdays
      exact (daysInEffect_iff hv hread.initDays).mp hdays
  · intro hkept
    constructor
    · intro v hv
      obtain ⟨hget, _⟩ := Option.filter_eq_some_iff.mp hv
      have haccounts := hread.accounts
      cases hasked : req.accounts with
      | none =>
        rw [hasked] at haccounts
        unfold readAccounts at haccounts
        rw [hget] at haccounts
        simp only at haccounts
        split at haccounts <;> cases haccounts
      | some accounts =>
        rw [hasked] at haccounts
        have hrows := hback.summary
        rw [hasked] at hrows
        exact ⟨accounts, rfl, hrows.trans (readAccounts_ok haccounts)⟩
    · intro v hv gs
      rw [hback.defaultDays]
      exact (daysInEffect_iff hv hread.defaultDays).mpr (hkept _ (by simp [RANGE_FIELDS]) v hv)
    · intro v hv gs
      rw [hback.initDays]
      exact (daysInEffect_iff hv hread.initDays).mpr (hkept _ (by simp [RANGE_FIELDS]) v hv)

end

/-! ## Two bodies -/

/-- One account, fourteen days as a text, and ninety as a float. -/
def fullBody : Dict :=
  [("accounts", .arr [.obj [("query_host_id", .int 222), ("query_label", .str " ")], .str "333"]),
    ("flex_default_range_days", .str " 14 "), ("flex_init_range_days", .float 0x4056800000000000)]

theorem fullBody_in_effect :
    InEffect fullBody ⟨some [⟨some "222", none, none, some "cash_transactions"⟩], some 14, some 90⟩
      (writeFlexConfigEndpoint willingServer (fun _ => "") (fun _ => none) none id fullBody
        firstConfig).2.1.tables := by
  have hok : (writeFlexConfigEndpoint willingServer (fun _ => "") (fun _ => none) none id
      fullBody firstConfig).1 =
        .ok ⟨some [⟨some "222", none, none, some "cash_transactions"⟩], some 14, some 90⟩ := by
    decide +kernel
  have hdefault : pyInt " 14 " = .ok 14 := by decide +kernel
  have hinit : PyFloat.ratio (.ofBits 0x4056800000000000) = some (6333186975989760, 2 ^ 46) := by
    decide +kernel
  refine (named_in_effect_iff willingServer id firstConfig (fun _ => "") (fun _ => none) none
    fullBody hok).mpr ?_
  intro k hk v hv
  simp only [RANGE_FIELDS, List.mem_cons, List.not_mem_nil, or_false] at hk
  rcases hk with rfl | rfl
  · have hvalue : v = .str " 14 " := (Option.some.inj hv).symm
    subst hvalue
    exact ⟨14, by simp [number, hdefault, Except.toOption], Or.inr ⟨14, rfl⟩⟩
  · have hvalue : v = .float 0x4056800000000000 := (Option.some.inj hv).symm
    subst hvalue
    exact ⟨90, by rw [number, hinit]; norm_num, Or.inr ⟨90, rfl⟩⟩

/-- A text that is no number is answered ok, and nothing is written. -/
theorem unreadable_days_dropped :
    let body : Dict := [("flex_default_range_days", .str "14 days")]
    let answered := writeFlexConfigEndpoint willingServer (fun _ => "") (fun _ => none) none id body
      firstConfig
    answered.1 = .ok ⟨none, none, none⟩ ∧ answered.2.1.tables = firstConfig.db.tables ∧
      ¬ InEffect body ⟨none, none, none⟩ answered.2.1.tables := by
  have hread : pyInt "14 days" =
      .error (.valueError "invalid literal for int() with base 10: '14 days'") := by
    decide +kernel
  refine ⟨by decide +kernel, by decide +kernel, ?_⟩
  rintro ⟨_, hdefault, _⟩
  obtain ⟨q, hq, _⟩ := hdefault (.str "14 days") rfl NO_ROWS
  rw [number, hread] at hq
  cases hq

end FlexQuery
