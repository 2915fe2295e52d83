import FlexQuery.Client.Report
import FlexQuery.Python.Number

/-!
# `parse_cash_transactions_xml`

* `FlexCash` — a returned row.
* `cashField` — a field is the text of a child element, or else an attribute.
* `cashTs` — the stamp of a row; every format is tried on its own slice of the text.
* `normalizeType` — the canonical type of a row.
* `parseCashTransactionsXml` — the rows of a report; it raises nothing.
-/

set_option autoImplicit false

namespace FlexQuery

/-- The canonical types of `_normalize_type`. -/
inductive CashType where
  | deposit
  | withdrawal
  | transfer
  | dividend
  | other
  deriving DecidableEq, Repr

/-- A cash transaction as `parse_cash_transactions_xml` returns it.  `ts` is the UTC reading of the
Unix time; a key the dictionary does not have is none. -/
structure FlexCash where
  accountId : String
  ts : DateTime
  amount : PyFloat
  type : CashType
  currency : Option String
  description : Option String
  flexTransactionId : Option String
  flexType : Option String
  flexCode : Option String
  assetCategory : Option String
  assetSubcategory : Option String
  symbol : Option String
  conid : Option ℤ
  securityId : Option String
  securityIdType : Option String
  listingExchange : Option String
  reportDate : Option String
  availableForTradingDate : Option String
  fxRateToBase : Option PyFloat
  rawExtra : List (String × String)

def isCashTransaction (elem : Element) : Bool := localName elem.tag = "CashTransaction"

/-- The first child element that has a text, or else the first attribute that is not empty. -/
def cashField (elem : Element) (children attrs : List String) : String :=
  firstGiven (children.map (fun k => some (elem.childText k "")) ++ attrs.map elem.get)

/-- `_normalize_type`. -/
def normalizeType (flexType code : String) (amount : PyFloat) : CashType :=
  let t := lower (strip flexType)
  let c := upper (strip code)
  if contains t "deposits/withdrawals" || contains t "deposits and withdrawals" then
    if amount.nonneg then .deposit else .withdrawal
  else if contains t "deposit" || contains c "dep" || c = "DEP" then .deposit
  else if contains t "withdraw" || contains t "withdrawal" || contains c "wth" || c = "WTH" then
    .withdrawal
  else if contains t "transfer" || contains c "tra" || contains t "internal" then .transfer
  else if contains t "dividend" || contains c "div" || contains c "dvd" then .dividend
  else .other

/-! ## The stamp -/

/-- The formats, and how much of the text each is tried on. -/
def CASH_TS_FORMATS : List ((List Directive × String) × ℕ) :=
  [ (([.year, .month, .day, .lit ';', .hour, .minute, .second], "%Y%m%d;%H%M%S"), 8),
    (([.year, .month, .day], "%Y%m%d"), 8),
    (([.year, .lit '-', .month, .lit '-', .day, .lit 'T', .hour, .lit ':', .minute, .lit ':',
      .second], "%Y-%m-%dT%H:%M:%S"), 19),
    (([.year, .lit '-', .month, .lit '-', .day, .blank, .hour, .lit ':', .minute, .lit ':',
      .second], "%Y-%m-%d %H:%M:%S"), 19),
    (([.year, .lit '-', .month, .lit '-', .day], "%Y-%m-%d"), 10) ]

/-- `ts_parsed`: the first format that reads its slice, or else eight digits somewhere. -/
def cashTs (s : String) : Option DateTime :=
  (CASH_TS_FORMATS.findSome? fun f => (strptime f.1.1 f.1.2 (slice s f.2)).toOption).or
    ((searchEightDigits s).bind fun digits =>
      (strptimeYmd digits).toOption.map DateTime.midnight)

/-! ## One element -/

/-- The account a row names itself, as it is written. -/
def cashOwnAccount (elem : Element) : String :=
  cashField elem ["accountId", "AccountId"] ["accountId", "accountID"]

/-- `account_id`, before it is trimmed. -/
def cashAccount (reportAccount : String) (elem : Element) : String :=
  (orNone (cashOwnAccount elem)).getD reportAccount

def cashAmount (elem : Element) : PyFloat :=
  (commaFloat ((orNone (cashField elem ["amount", "Amount"] ["amount"])).getD "0")).getD
    (.ofScientific 0 0)

/-- `date_time_str.strip()`. -/
def cashDateTime (elem : Element) : String :=
  strip (cashField elem ["dateTime", "DateTime", "settleDate"] ["dateTime", "settleDate"])

/-- The row of a `CashTransaction` element. -/
def cashOf (account : String) (ts : DateTime) (amount : PyFloat) (elem : Element) : FlexCash :=
  let flexType := cashField elem ["type", "Type"] ["type"]
  let code := cashField elem ["code", "Code"] ["code"]
  { accountId := strip account
    ts := ts
    amount := amount
    type := normalizeType flexType code amount
    currency := orNone (cashField elem ["currency", "Currency"] ["currency"])
    description := orNone (cashField elem ["description", "Description"] ["description"])
    flexTransactionId := orNone (strip (cashField elem ["transactionID", "TransactionID"]
      ["transactionID", "TransactionID"]))
    flexType := orNone flexType
    flexCode := orNone code
    assetCategory := orNone (cashField elem ["assetCategory", "AssetCategory"] ["assetCategory"])
    assetSubcategory := orNone (cashField elem ["subCategory", "SubCategory"] ["subCategory"])
    symbol := orNone (cashField elem ["symbol", "Symbol"] ["symbol"])
    conid := (pyInt (cashField elem ["conid", "Conid"] ["conid"])).toOption
    securityId := orNone (cashField elem ["securityID", "SecurityID"] ["securityID"])
    securityIdType := orNone (cashField elem ["securityIDType", "SecurityIDType"]
      ["securityIDType"])
    listingExchange := orNone (cashField elem ["listingExchange", "ListingExchange"]
      ["listingExchange"])
    reportDate := orNone (cashField elem ["reportDate", "ReportDate"] ["reportDate"])
    availableForTradingDate := orNone (cashField elem
      ["availableForTradingDate", "AvailableForTradingDate"] ["availableForTradingDate"])
    fxRateToBase := (pyFloat (cashField elem ["fxRateToBase", "FxRateToBase"]
      ["fxRateToBase"])).toOption
    rawExtra := elem.attrib }

/-- One `CashTransaction` element; none when it is passed over. -/
def cashRow (reportAccount : String) (elem : Element) : Option FlexCash :=
  let account := cashAccount reportAccount elem
  let amount := cashAmount elem
  if account = "" && amount.isZero then none
  else (cashTs (cashDateTime elem)).map fun ts => cashOf account ts amount elem

/-! ## The report -/

/-- `parse_cash_transactions_xml`. -/
def parseCashTransactionsXml (flex : FlexService) (body : String) : List FlexCash :=
  match flex.fromstring body with
  | .error _ => []
  | .ok root => (root.iter.filter isCashTransaction).filterMap (cashRow (reportAccountId root))

theorem cashRow_some {acct : String} {elem : Element} {row : FlexCash}
    (h : cashRow acct elem = some row) :
    ∃ ts, cashTs (cashDateTime elem) = some ts ∧
      row = cashOf (cashAccount acct elem) ts (cashAmount elem) elem := by
  unfold cashRow at h
  simp only at h
  split at h
  · cases h
  · obtain ⟨ts, hts, hrow⟩ := Option.map_eq_some_iff.mp h
    exact ⟨ts, hts, hrow.symm⟩

/-- What the returned list holds: the rows of the report's `CashTransaction` elements. -/
theorem mem_parseCashTransactionsXml {flex : FlexService} {body : String} {root : Element}
    (hroot : flex.fromstring body = .ok root) {row : FlexCash} :
    row ∈ parseCashTransactionsXml flex body ↔ ∃ elem ∈ root.iter,
      isCashTransaction elem = true ∧ cashRow (reportAccountId root) elem = some row := by
  unfold parseCashTransactionsXml
  rw [hroot]
  simp only [List.mem_filterMap, List.mem_filter, and_assoc]

end FlexQuery
