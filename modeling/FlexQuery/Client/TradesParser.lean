import FlexQuery.Client.Report
import FlexQuery.Python.Number

/-!
# `parse_trades_xml`

* `FlexTrade` — a returned row, every key of the dictionary a field.
* `tradeRow` — one `Trade` element; none when it has neither a time nor an account.
* `parseTradesXml` — all of them, in document order, and the refusal of a cash report.
* `parseTradesXml_rows` — what a returned list holds.
-/

set_option autoImplicit false

namespace FlexQuery

/-- An execution as `parse_trades_xml` returns it; `time` in Unix seconds. -/
structure FlexTrade where
  accountId : String
  time : Option ℤ
  symbol : Option String
  secType : Option String
  side : Option String
  quantity : Option PyFloat
  price : Option PyFloat
  source : String
  execId : Option String
  expiry : Option String
  strike : Option PyFloat
  optionRight : Option String
  exchange : Option String
  orderId : Option ℤ
  cumQty : Option PyFloat
  contractKey : Option String
  currency : Option String
  assetCategory : Option String
  subCategory : Option String
  description : Option String
  conid : Option ℤ
  securityId : Option String
  securityIdType : Option String
  cusip : Option String
  isin : Option String
  figi : Option String
  listingExchange : Option String
  underlyingConid : Option ℤ
  underlyingSymbol : Option String
  underlyingSecurityId : Option String
  underlyingListingExchange : Option String
  issuer : Option String
  issuerCountryCode : Option String
  tradeId : Option String
  relatedTradeId : Option String
  reportDate : Option Date
  tradeDate : Option Date
  settleDateTarget : Option Date
  transactionType : Option String
  multiplier : Option PyFloat
  principalAdjustFactor : Option String
  proceeds : Option PyFloat
  taxes : Option PyFloat
  netCash : Option PyFloat
  closePrice : Option PyFloat
  openCloseIndicator : Option String
  notes : Option String
  cost : Option PyFloat
  fifoPnlRealized : Option PyFloat
  mtmPnl : Option PyFloat
  tradeMoney : Option PyFloat
  fxRateToBase : Option PyFloat
  acctAlias : Option String
  model : Option String
  commission : Option PyFloat
  currencyCommission : Option String
  realizedPnl : Option PyFloat
  rawExtra : List (String × String)

/-- `known_keys`. -/
def KNOWN_KEYS : List String :=
  ["accountId", "acctAlias", "model", "currency", "fxRateToBase", "assetCategory", "subCategory",
    "symbol", "description", "conid", "securityID", "securityIDType", "cusip", "isin", "figi",
    "listingExchange", "underlyingConid", "underlyingSymbol", "underlyingSecurityID",
    "underlyingListingExchange", "issuer", "issuerCountryCode", "tradeID", "multiplier",
    "relatedTradeID", "strike", "reportDate", "expiry", "dateTime", "putCall", "tradeDate",
    "principalAdjustFactor", "settleDateTarget", "transactionType", "exchange", "quantity",
    "tradePrice", "tradeMoney", "proceeds", "taxes", "ibCommission", "ibCommissionCurrency",
    "netCash", "closePrice", "openCloseIndicator", "notes", "cost", "fifoPnlRealized", "mtmPnl"]

def isTrade (elem : Element) : Bool := localName elem.tag = "Trade"

/-! ## One element -/

/-- `attrs`: the attributes, their values trimmed. -/
def tradeAttrs (elem : Element) : List (String × String) :=
  elem.attrib.map fun e => (e.1, strip e.2)

/-- `attrs.get(k, default)`. -/
def attrOr (attrs : List (String × String)) (k default : String) : String :=
  ((attrs.find? fun e => e.1 = k).map (·.2)).getD default

/-- `attrs.get(k, "")`. -/
abbrev attr (attrs : List (String × String)) (k : String) : String := attrOr attrs k ""

theorem strip_attr (elem : Element) (k : String) :
    strip (attr (tradeAttrs elem) k) = attr (tradeAttrs elem) k := by
  have hempty : strip "" = "" := by decide
  unfold attr attrOr
  cases hfind : (tradeAttrs elem).find? fun e => e.1 = k with
  | none => exact hempty
  | some e =>
    obtain ⟨x, _, rfl⟩ := List.mem_map.mp (List.mem_of_find?_eq_some hfind)
    exact strip_strip x.2

/-- `attrs.get("accountId") or report_account_id`. -/
def tradeAccount (reportAccount : String) (elem : Element) : String :=
  (orNone (attr (tradeAttrs elem) "accountId")).getD reportAccount

/-- The time of an execution: `dateTime`, or else `tradeDate`. -/
def tradeTime (zone : Zone) (attrs : List (String × String)) : Except PyExc (Option ℤ) :=
  match parseFlexDatetime zone (attr attrs "dateTime") with
  | .error e => .error e
  | .ok (some t, _) => .ok (some t)
  | .ok (none, _) => (parseFlexDatetime zone (attr attrs "tradeDate")).map (·.1)

/-- `int(s) if s.isdigit() else None`. -/
def digitsInt (s : String) : Except PyExc (Option ℤ) :=
  if isDigit s then (pyInt s).map some else .ok none

/-- `_f`: none when the text is empty or no number. -/
def floatField (s : String) : Option PyFloat := if s = "" then none else commaFloat s

/-- `symbol|sec_type|expiry|strike|right`. -/
def contractKey (symbol secType expiry : String) (strike : Option PyFloat) (right : String) :
    Option String :=
  if symbol ≠ "" ∧ secType ≠ "" then
    "|".intercalate [symbol, secType, expiry, (strike.map strFloat).getD "", right]
  else none

/-- The row of a `Trade` element whose numbers have been read. -/
def tradeOf (account : String) (time : Option ℤ) (orderId conid underlyingConid : Option ℤ)
    (attrs : List (String × String)) : FlexTrade :=
  let text := fun k => orNone (attr attrs k)
  let number := fun k => floatField (attr attrs k)
  let date := fun k => parseYyyymmddToDate (attr attrs k)
  let strike := if attr attrs "strike" = "" then none else (pyFloat (attr attrs "strike")).toOption
  { accountId := account
    time := time
    symbol := text "symbol"
    secType := text "assetCategory"
    side := orNone (upper (attr attrs "buySell"))
    quantity := floatField (attrOr attrs "quantity" "0")
    price := floatField (attrOr attrs "tradePrice" "0")
    source := "flex_trades"
    execId := text "ibExecID"
    expiry := text "expiry"
    strike := strike
    optionRight := text "putCall"
    exchange := (text "exchange").or (text "listingExchange")
    orderId := orderId
    cumQty := none
    contractKey := contractKey (attr attrs "symbol") (attr attrs "assetCategory")
      (attr attrs "expiry") strike (attr attrs "putCall")
    -- The currency of the commission stands in for a missing one.
    currency := (text "currency").or (text "ibCommissionCurrency")
    assetCategory := text "assetCategory"
    subCategory := text "subCategory"
    description := text "description"
    conid := conid
    securityId := text "securityID"
    securityIdType := text "securityIDType"
    cusip := text "cusip"
    isin := text "isin"
    figi := text "figi"
    listingExchange := text "listingExchange"
    underlyingConid := underlyingConid
    underlyingSymbol := text "underlyingSymbol"
    underlyingSecurityId := text "underlyingSecurityID"
    underlyingListingExchange := text "underlyingListingExchange"
    issuer := text "issuer"
    issuerCountryCode := text "issuerCountryCode"
    tradeId := text "tradeID"
    relatedTradeId := text "relatedTradeID"
    reportDate := date "reportDate"
    tradeDate := date "tradeDate"
    settleDateTarget := date "settleDateTarget"
    transactionType := text "transactionType"
    multiplier := number "multiplier"
    principalAdjustFactor := text "principalAdjustFactor"
    proceeds := number "proceeds"
    taxes := number "taxes"
    netCash := number "netCash"
    closePrice := number "closePrice"
    openCloseIndicator := text "openCloseIndicator"
    notes := text "notes"
    cost := number "cost"
    fifoPnlRealized := number "fifoPnlRealized"
    mtmPnl := number "mtmPnl"
    tradeMoney := number "tradeMoney"
    fxRateToBase := number "fxRateToBase"
    acctAlias := text "acctAlias"
    model := text "model"
    commission := number "ibCommission"
    currencyCommission := text "ibCommissionCurrency"
    realizedPnl := number "fifoPnlRealized"
    rawExtra := attrs.filter fun e => e.1 ∉ KNOWN_KEYS }

/-- One `Trade` element; none when it is passed over. -/
def tradeRow (zone : Zone) (reportAccount : String) (elem : Element) :
    Except PyExc (Option FlexTrade) :=
  let attrs := tradeAttrs elem
  let account := tradeAccount reportAccount elem
  match tradeTime zone attrs with
  | .error e => .error e
  | .ok time =>
    if time = none ∧ account = "" then .ok none
    else
      let orderId := (orNone (attr attrs "ibOrderID")).getD (attr attrs "orderID")
      match digitsInt orderId, digitsInt (attr attrs "conid"),
        digitsInt (attr attrs "underlyingConid") with
      | .error e, _, _ => .error e
      | .ok _, .error e, _ => .error e
      | .ok _, .ok _, .error e => .error e
      | .ok orderId, .ok conid, .ok underlyingConid =>
        .ok (some (tradeOf account time orderId conid underlyingConid attrs))

/-! ## The report -/

def cashReportMsg : String :=
  "Flex report contains Cash Transactions, not Trades. " ++
    "Use a Flex Query that includes Activity → Trades (not Cash Transactions). " ++
    "In Settings → IB Connection → Flex, ensure the row with purpose=trades uses a Query ID " ++
    "that returns Trades."

/-- `parse_trades_xml`. -/
def parseTradesXml (flex : FlexService) (zone : Zone) (body : String) :
    Except PyExc (List FlexTrade) :=
  match flex.fromstring body with
  | .error _ => .ok []
  | .ok root =>
    match (root.iter.filter isTrade).mapM (tradeRow zone (reportAccountId root)) with
    | .error e => .error e
    | .ok rows =>
      if rows.reduceOption.isEmpty && contains body "CashTransaction" then
        .error (.valueError cashReportMsg)
      else .ok rows.reduceOption

/-- The rows that are left, trade by trade. -/
theorem reduceOption_of_mapM {α β : Type} {f : α → Except PyExc (Option β)} {xs : List α}
    {ys : List (Option β)} (h : xs.mapM f = .ok ys) :
    ys.reduceOption = xs.filterMap fun x => (f x).toOption.join := by
  induction xs generalizing ys with
  | nil =>
    cases h
    rfl
  | cons x xs ih =>
    rw [List.mapM_cons] at h
    cases hx : f x with
    | error e =>
      rw [hx] at h
      cases h
    | ok o =>
      cases hxs : xs.mapM f with
      | error e =>
        rw [hx, hxs] at h
        cases h
      | ok os =>
        rw [hx, hxs] at h
        cases h
        cases o with
        | none => simp [ih hxs, hx, List.reduceOption_cons_of_none, Except.toOption]
        | some z => simp [ih hxs, hx, List.reduceOption_cons_of_some, Except.toOption]

/-- Each row comes from an element, and each element that is not passed over leaves one. -/
theorem mem_reduceOption_of_mapM {α β : Type} {f : α → Except PyExc (Option β)} {xs : List α}
    {ys : List (Option β)} (h : xs.mapM f = .ok ys) {y : β} :
    y ∈ ys.reduceOption ↔ ∃ x ∈ xs, f x = .ok (some y) := by
  rw [reduceOption_of_mapM h, List.mem_filterMap]
  refine exists_congr fun x => and_congr_right fun _ => ?_
  cases f x with
  | error e => simp [Except.toOption]
  | ok o => simp [Except.toOption]

theorem mapM_ok {α β : Type} {f : α → Except PyExc β} {xs : List α} {ys : List β}
    (h : xs.mapM f = .ok ys) : ∀ x ∈ xs, ∃ y, f x = .ok y := by
  induction xs generalizing ys with
  | nil => nofun
  | cons x xs ih =>
    rw [List.mapM_cons] at h
    cases hx : f x with
    | error e =>
      rw [hx] at h
      cases h
    | ok y =>
      cases hxs : xs.mapM f with
      | error e =>
        rw [hx, hxs] at h
        cases h
      | ok ys' =>
        intro z hz
        rcases List.mem_cons.mp hz with rfl | hz
        · exact ⟨y, hx⟩
        · exact ih hxs z hz

theorem tradeRow_some {zone : Zone} {acct : String} {elem : Element} {row : FlexTrade}
    (h : tradeRow zone acct elem = .ok (some row)) :
    ∃ time orderId conid underlyingConid, tradeTime zone (tradeAttrs elem) = .ok time ∧
      row = tradeOf (tradeAccount acct elem) time orderId conid underlyingConid
        (tradeAttrs elem) := by
  unfold tradeRow at h
  simp only at h
  cases htime : tradeTime zone (tradeAttrs elem) with
  | error e =>
    rw [htime] at h
    cases h
  | ok time =>
    rw [htime] at h
    simp only at h
    split at h
    · cases h
    · split at h
      · cases h
      · cases h
      · cases h
      · rename_i orderId conid underlyingConid _ _ _
        exact ⟨time, orderId, conid, underlyingConid, rfl, (Option.some.inj (Except.ok.inj h)).symm⟩

/-- What a returned list holds: the rows of the report's `Trade` elements. -/
theorem parseTradesXml_rows {flex : FlexService} {zone : Zone} {body : String} {root : Element}
    {rows : List FlexTrade} (hroot : flex.fromstring body = .ok root)
    (h : parseTradesXml flex zone body = .ok rows) {row : FlexTrade} :
    row ∈ rows ↔ ∃ elem ∈ root.iter, isTrade elem = true ∧
      tradeRow zone (reportAccountId root) elem = .ok (some row) := by
  unfold parseTradesXml at h
  rw [hroot] at h
  simp only at h
  split at h
  · cases h
  · rename_i os hos
    split at h
    · cases h
    · cases h
      rw [mem_reduceOption_of_mapM hos]
      simp only [List.mem_filter, and_assoc]

end FlexQuery
