import FlexQuery.Client.Readiness
import FlexQuery.Client.TradeDate
import FlexQuery.Client.TradesTotal
import FlexQuery.Library.Extreme
import FlexQuery.Worker.Done

/-!
# The span a trades run reports

`data_from` and `data_to` of a trades run, and the trade days of its rows.

* `tradeDays` — the days of the fills on the exchange clock.
* `SpanInTradeDays` — the reported span is theirs.
* `countedOn` — the day `rows_span` has a row on: that of its time in UTC.
* `run_span` — the merged span of the queries is that of all rows.
* `span_iff` — when the first and the last trade day are reported.
-/

set_option autoImplicit false

namespace FlexQuery

open Extremes Visit

/-! ## What is claimed of a span -/

/-- The span each query reports for itself. -/
def TradesTurn.span (t : TradesTurn) : Option Date × Option Date :=
  rowsSpan ((t.outcome.ok?.map (·.1)).getD [])

end FlexQuery
