import FlexQuery.Python.Date

/-!
# The Flex Web Service client

`client/flex_client.py`: SendRequest, then GetStatement polled until the report is generated.
Every exchange is logged on the `Wire`, which is passed along explicitly; IB is any function of
the exchanges so far and the request.

* `requestReport` — `fd`/`td` are checked before anything is sent (`checkSpan`).
* `statementNotReady`, `getStatement` — at most 24 polls; an unready answer is polled again.
* `fetchReport` — the two in a row, and the parser.
* `fetchReport_exchange` — what a fetch adds to the wire: one SendRequest, and at most 24 polls
  for the reference it was answered with.
-/

set_option autoImplicit false

namespace FlexQuery

def MAX_GET_STATEMENT_POLLS : ℕ := 24
/-- IB Flex: a date range cannot exceed 366 days. -/
def MAX_FLEX_DAYS : ℤ := 366

/-! ## XML -/

/-- An `ElementTree` element. -/
inductive Element where
  | mk (tag : String) (attrib : List (String × String)) (text : Option String)
      (children : List Element)

namespace Element

def tag : Element → String
  | mk t _ _ _ => t

def text : Element → Option String
  | mk _ _ t _ => t

def children : Element → List Element
  | mk _ _ _ cs => cs

mutual
/-- `elem.iter()`. -/
def iter : Element → List Element
  | mk t a x cs => mk t a x cs :: iterAll cs
/-- `iter` of each element, in order. -/
def iterAll : List Element → List Element
  | [] => []
  | c :: cs => c.iter ++ iterAll cs
end

/-- `_text`: the text of the first child with that tag. -/
def childText (elem : Element) (tag default : String) : String :=
  match elem.children.find? fun c => c.tag = tag with
  | none => default
  | some child =>
    match child.text with
    | none => default
    | some t => if t = "" then default else strip t

end Element

/-- `_local_name`. -/
def localName (tag : String) : String :=
  if '}' ∈ tag.toList then String.ofList ((tag.toList.dropWhile (· ≠ '}')).drop 1) else tag

/-! ## The wire -/

inductive HttpRequest where
  /-- `p` and `fd`/`td` are query parameters that may be absent. -/
  | sendRequest (t q : String) (p : Option String) (dates : Option (String × String))
  | getStatement (t q : String)
  deriving DecidableEq, Repr

def HttpRequest.token : HttpRequest → String
  | sendRequest t _ _ _ => t
  | getStatement t _ => t

inductive HttpAnswer where
  /-- `HTTPError` or `URLError`, by its text. -/
  | httpError (text : String)
  /-- Any other exception of `urlopen` or `read`: a timeout, a reset connection. -/
  | raised (cls msg : String)
  | body (text : String)
  deriving DecidableEq, Repr

/-- The exchanges made so far, oldest first. -/
abbrev Wire := List (HttpRequest × HttpAnswer)

/-- What the client depends on: IB and the XML library. -/
structure FlexService where
  answer : Wire → HttpRequest → HttpAnswer
  fromstring : String → Except String Element

/-- One exchange. -/
def FlexService.send (flex : FlexService) (w : Wire) (req : HttpRequest) : HttpAnswer × Wire :=
  (flex.answer w req, w ++ [(req, flex.answer w req)])

/-! ## SendRequest -/

def spanMsg : String :=
  "Date range cannot exceed 366 days (IB Flex limit). Use from_date and to_date within 366 days, " ++
    "or omit both to use the query default period (e.g. Last 365 Calendar Days)."

/-- The check on `fd` and `td`, before a request is made. -/
def checkSpan (fromDate toDate : String) : Except PyExc Unit :=
  match strptimeYmd (slice (strip fromDate) 8), strptimeYmd (slice (strip toDate) 8) with
  | .ok fd, .ok td =>
    if td.daysSince fd > MAX_FLEX_DAYS then .error (.valueError spanMsg) else .ok ()
  | .error e, _ => .error (reword e)
  | .ok _, .error e => .error (reword e)
where
  /-- The `except ValueError` of the check. -/
  reword : PyExc → PyExc
    | .valueError msg =>
      if contains msg "cannot exceed" then .valueError msg
      else .valueError ("from_date and to_date must be yyyyMMdd format: " ++ msg)
    | e => e

/-- What `request_report` makes of the answer to its SendRequest. -/
def readReference (flex : FlexService) : HttpAnswer → Except PyExc String
  | .httpError text => .error (.valueError ("Flex SendRequest failed: " ++ text))
  | .raised cls msg => .error (.other cls msg)
  | .body body =>
    match flex.fromstring body with
    | .error e => .error (.other "ParseError" e)
    | .ok root =>
      if lower (strip (root.childText "Status" "")) = "fail" then
        .error (.valueError ("Flex request failed: [" ++ root.childText "ErrorCode" "" ++ "] " ++
          root.childText "ErrorMessage" "Unknown error"))
      else
        let ref := strip (root.childText "ReferenceCode" "")
        if ref = "" then .error (.valueError "Flex SendRequest returned no ReferenceCode")
        else .ok ref

/-- The request `request_report` sends, or the error it raises before sending one. -/
def reportRequest (token queryId : String) (fromDate toDate : Option String)
    (period : Option ℤ) : Except PyExc HttpRequest :=
  match period, fromDate, toDate with
  | some p, _, _ => .ok (.sendRequest token queryId (some (toString p)) none)
  | none, fromDate, toDate =>
    if given fromDate && given toDate then
      match checkSpan (fromDate.getD "") (toDate.getD "") with
      | .error e => .error e
      | .ok () =>
        .ok (.sendRequest token queryId none
          (some (slice (strip (fromDate.getD "")) 8, slice (strip (toDate.getD "")) 8)))
    else if given fromDate || given toDate then
      .error (.valueError
        "When overriding dates, both from_date and to_date are required (yyyyMMdd).")
    else .ok (.sendRequest token queryId none none)

/-- `request_report`. -/
def requestReport (flex : FlexService) (token queryId : String) (fromDate toDate : Option String)
    (period : Option ℤ) (w : Wire) : Except PyExc String × Wire :=
  match reportRequest token queryId fromDate toDate period with
  | .error e => (.error e, w)
  | .ok req => (readReference flex (flex.send w req).1, (flex.send w req).2)

/-! ## GetStatement -/

/-- `_statement_not_ready`: none for a generated report, otherwise why it is not one. -/
def statementNotReady (flex : FlexService) (body : String) : Option String :=
  match flex.fromstring body with
  | .error e => some ("response is not XML (" ++ e ++ ")")
  | .ok root =>
    let tag := localName root.tag
    if tag = "FlexStatementResponse" then
      let status := (orNone (root.childText "Status" "")).getD "no Status"
      let code := root.childText "ErrorCode" ""
      let msg := (orNone (root.childText "ErrorMessage" "")).getD "Report not ready"
      some (if code ≠ "" then status ++ " [" ++ code ++ "] " ++ msg else status ++ ": " ++ msg)
    else if tag ≠ "FlexQueryResponse" then some ("unexpected <" ++ tag ++ "> response")
    else if root.iter.all fun node => localName node.tag ≠ "FlexStatement" then
      some "FlexQueryResponse without a FlexStatement"
    else none

/-- The polls that are left, and what the last one said. -/
def pollStatement (flex : FlexService) (req : HttpRequest) :
    ℕ → Option String → Wire → Except PyExc String × Wire
  | 0, lastErr, w =>
    (.error (.valueError ("Flex GetStatement did not return report after 24 attempts. Last: " ++
      lastErr.getD "None")), w)
  | n + 1, _, w =>
    match flex.send w req with
    | (.httpError text, w') => pollStatement flex req n (some text) w'
    | (.raised cls msg, w') => (.error (.other cls msg), w')
    | (.body body, w') =>
      match statementNotReady flex body with
      | none => (.ok body, w')
      | some why => pollStatement flex req n (some why) w'

/-- `get_statement`. -/
def getStatement (flex : FlexService) (token referenceCode : String) (w : Wire) :
    Except PyExc String × Wire :=
  pollStatement flex (.getStatement token referenceCode) MAX_GET_STATEMENT_POLLS none w

/-- `fetch_trades` and `fetch_cash_transactions`, with the parser of either. -/
def fetchReport {ρ : Type} (flex : FlexService) (parse : String → Except PyExc (List ρ))
    (token queryId : String) (fromDate toDate : Option String) (period : Option ℤ) (w : Wire) :
    Except PyExc (List ρ) × Wire :=
  match requestReport flex token queryId fromDate toDate period w with
  | (.error e, w') => (.error e, w')
  | (.ok ref, w') =>
    match getStatement flex token ref w' with
    | (.error e, w'') => (.error e, w'')
    | (.ok body, w'') => (parse body, w'')

/-! ## What goes over the wire -/

/-- The request is a GetStatement. -/
def HttpRequest.isPoll : HttpRequest → Bool
  | sendRequest .. => false
  | getStatement .. => true

/-- `fd` and `td` of the request. -/
def HttpRequest.dates : HttpRequest → Option (String × String)
  | sendRequest _ _ _ dates => dates
  | getStatement .. => none

/-- Polling adds GetStatement requests with the same token, no more than are left. -/
theorem pollStatement_wire (flex : FlexService) (t q : String) (n : ℕ) (last : Option String)
    (w : Wire) : ∃ polls, (pollStatement flex (.getStatement t q) n last w).2 = w ++ polls ∧
      polls.length ≤ n ∧ ∀ x ∈ polls, x.1 = .getStatement t q := by
  induction n generalizing last w with
  | zero => exact ⟨[], by simp [pollStatement], le_refl 0, nofun⟩
  | succ n ih =>
    have hmore : ∀ (last' : Option String), ∃ polls,
        (pollStatement flex (.getStatement t q) n last'
          (flex.send w (.getStatement t q)).2).2 = w ++ polls ∧
        polls.length ≤ n + 1 ∧ ∀ x ∈ polls, x.1 = .getStatement t q := by
      intro last'
      obtain ⟨polls, hpolls, hlen, hall⟩ := ih last' (flex.send w (.getStatement t q)).2
      refine ⟨(.getStatement t q, flex.answer w (.getStatement t q)) :: polls, ?_, ?_, ?_⟩
      · rw [hpolls]
        simp [FlexService.send]
      · exact Nat.succ_le_succ hlen
      · intro x hx
        rcases List.mem_cons.mp hx with rfl | hx
        · rfl
        · exact hall x hx
    have hstop : ∃ polls, (flex.send w (.getStatement t q)).2 = w ++ polls ∧
        polls.length ≤ n + 1 ∧ ∀ x ∈ polls, x.1 = .getStatement t q :=
      ⟨[(.getStatement t q, flex.answer w (.getStatement t q))], rfl, by simp, by simp⟩
    simp only [pollStatement]
    cases hans : flex.send w (.getStatement t q) with
    | mk ans w' =>
      rw [hans] at hmore hstop
      cases ans with
      | httpError text => exact hmore (some text)
      | raised cls msg => exact hstop
      | body body =>
        simp only
        cases statementNotReady flex body with
        | none => exact hstop
        | some why => exact hmore (some why)

/-- What a fetch adds to the wire once its request is made: the SendRequest, and the polls for the
reference it was answered with. -/
def Exchange (flex : FlexService) (req : HttpRequest) (part : Wire) : Prop :=
  ∃ ans polls, part = (req, ans) :: polls ∧ polls.length ≤ MAX_GET_STATEMENT_POLLS ∧
    (∀ x ∈ polls, x.1.isPoll = true ∧ x.1.token = req.token) ∧
    ∀ e, readReference flex ans = .error e → polls = []

/-- One fetch: its exchange, and its result when no reference came. -/
theorem fetchReport_exchange {ρ : Type} (flex : FlexService)
    (parse : String → Except PyExc (List ρ)) {t q : String} {fromDate toDate : Option String}
    {period : Option ℤ} {p : Option String} {dates : Option (String × String)}
    (h : reportRequest t q fromDate toDate period = .ok (.sendRequest t q p dates)) (w : Wire) :
    ∃ part, (fetchReport flex parse t q fromDate toDate period w).2 = w ++ part ∧
      Exchange flex (.sendRequest t q p dates) part ∧
      ∀ ans rest e, part = (.sendRequest t q p dates, ans) :: rest →
        readReference flex ans = .error e →
          (fetchReport flex parse t q fromDate toDate period w).1 = .error e := by
  unfold fetchReport requestReport
  rw [h]
  simp only [FlexService.send]
  cases href : readReference flex (flex.answer w (.sendRequest t q p dates)) with
  | error e =>
    refine ⟨[(.sendRequest t q p dates, flex.answer w (.sendRequest t q p dates))], rfl,
      ⟨_, [], rfl, Nat.zero_le _, nofun, fun _ _ => rfl⟩, ?_⟩
    intro ans rest e' hpart he'
    obtain ⟨hans, _⟩ := List.cons.inj hpart
    rw [← (Prod.mk.inj hans).2, href] at he'
    show Except.error e = Except.error e'
    rw [Except.error.inj he']
  | ok ref =>
    obtain ⟨polls, hpolls, hlen, hall⟩ := pollStatement_wire flex t ref MAX_GET_STATEMENT_POLLS
      none (w ++ [(.sendRequest t q p dates, flex.answer w (.sendRequest t q p dates))])
    refine ⟨(.sendRequest t q p dates, flex.answer w (.sendRequest t q p dates)) :: polls, ?_,
      ⟨_, polls, rfl, hlen, ?_, ?_⟩, ?_⟩
    · simp only
      cases hst : getStatement flex t ref
          (w ++ [(.sendRequest t q p dates, flex.answer w (.sendRequest t q p dates))]) with
      | mk res w' =>
        rw [← getStatement, hst] at hpolls
        cases res with
        | error e => simpa using hpolls
        | ok body => simpa using hpolls
    · intro x hx
      rw [hall x hx]
      exact ⟨rfl, rfl⟩
    · intro e he
      rw [href] at he
      cases he
    · intro ans rest e hpart he
      obtain ⟨hans, _⟩ := List.cons.inj hpart
      rw [← (Prod.mk.inj hans).2, href] at he
      cases he

/-- A fetch that is refused locally sends nothing. -/
theorem fetchReport_refused {ρ : Type} (flex : FlexService)
    (parse : String → Except PyExc (List ρ)) {t q : String} {fromDate toDate : Option String}
    {period : Option ℤ} {e : PyExc} (h : reportRequest t q fromDate toDate period = .error e)
    (w : Wire) : fetchReport flex parse t q fromDate toDate period w = (.error e, w) := by
  unfold fetchReport requestReport
  rw [h]

/-- The request of a fetch without dates. -/
theorem reportRequest_undated (t q : String) (period : Option ℤ) :
    reportRequest t q none none period = .ok (.sendRequest t q (period.map toString) none) := by
  cases period <;> rfl

/-! ## The span check -/

/-- A formatted pair of days passes exactly when it spans no more than the limit. -/
theorem checkSpan_strftimeYmd (a b : Date) :
    checkSpan (strftimeYmd a) (strftimeYmd b) = .ok () ↔ b.ord - a.ord ≤ MAX_FLEX_DAYS := by
  unfold checkSpan
  simp only [strip_strftimeYmd, slice_strftimeYmd, strptimeYmd_strftimeYmd]
  by_cases h : b.daysSince a > MAX_FLEX_DAYS
  · rw [if_pos h]
    exact iff_of_false nofun (not_le.mpr h)
  · rw [if_neg h]
    exact iff_of_true rfl (not_lt.mp h)

/-- A formatted pair of days within the limit is sent as it is. -/
theorem reportRequest_strftimeYmd {t q : String} {a b : Date}
    (h : b.ord - a.ord ≤ MAX_FLEX_DAYS) :
    reportRequest t q (some (strftimeYmd a)) (some (strftimeYmd b)) none =
      .ok (.sendRequest t q none (some (strftimeYmd a, strftimeYmd b))) := by
  unfold reportRequest
  simp only [given_strftimeYmd, Bool.and_self, if_true, Option.getD_some,
    (checkSpan_strftimeYmd a b).mpr h, strip_strftimeYmd, slice_strftimeYmd]

end FlexQuery
