import FlexQuery.Library.Transition
import FlexQuery.Library.RowTable
import FlexQuery.Library.Interval
import FlexQuery.Library.Visit
import FlexQuery.Library.Board
import FlexQuery.Python.Date
import FlexQuery.Python.Number
import FlexQuery.Python.DateTime
import FlexQuery.Worker.Retry
import FlexQuery.Worker.Claim
import FlexQuery.Scheduler.Enqueue
import FlexQuery.Api.RunNow
import FlexQuery.Queue.System
import FlexQuery.Queue.Budget
import FlexQuery.Queue.Fencing
import FlexQuery.Queue.Cooldown
import FlexQuery.Ops.Diagnose
import FlexQuery.Queue.RunNow
import FlexQuery.Queue.Identity
import FlexQuery.Queue.Freshness
import FlexQuery.Client.FlexClient
import FlexQuery.Client.Accounts
import FlexQuery.Orchestration.Window
import FlexQuery.Orchestration.ConfigRw
import FlexQuery.Orchestration.Run
import FlexQuery.Orchestration.Transactions
import FlexQuery.Orchestration.CashGap
import FlexQuery.Orchestration.Trades
import FlexQuery.Orchestration.TradesGap
import FlexQuery.Orchestration.Requests
import FlexQuery.Orchestration.Sendable
import FlexQuery.Orchestration.Throttle
import FlexQuery.Client.Readiness
import FlexQuery.Orchestration.Isolation
import FlexQuery.Orchestration.Codes
import FlexQuery.Worker.Catchup
import FlexQuery.Library.Session
import FlexQuery.Worker.Connection
import FlexQuery.Worker.Reconnect
import FlexQuery.Worker.Fires
import FlexQuery.Worker.Migrations
import FlexQuery.Ops.Missed
import FlexQuery.Config
import FlexQuery.Orchestration.CashConserved
import FlexQuery.Orchestration.ConfigWrite
import FlexQuery.Orchestration.ConfigRace
import FlexQuery.Orchestration.ConfigReplace
import FlexQuery.Library.WallClock
import FlexQuery.Library.Crontab
import FlexQuery.Python.ZoneInfo
import FlexQuery.Python.Strftime
import FlexQuery.Scheduler.NextFires
import FlexQuery.Scheduler.Standard
import FlexQuery.Scheduler.LocalDay
import FlexQuery.Client.DateTimes
import FlexQuery.Client.TradeDate
import FlexQuery.Client.TradesTotal
import FlexQuery.Client.EmptyWindow
import FlexQuery.Client.RawExtra
import FlexQuery.Client.CashType
import FlexQuery.Client.Namespaces
import FlexQuery.Client.CashStamp
import FlexQuery.Client.CashStyles
import FlexQuery.Ops.SelfCheck
import FlexQuery.Library.Tally
import FlexQuery.Api.HttpMetrics
import FlexQuery.Library.Extreme
import FlexQuery.Orchestration.Span
import FlexQuery.Api.ConfigSummary
import FlexQuery.Orchestration.TokenBlind
import FlexQuery.Library.Rounding
import FlexQuery.Library.PrefixCode
import FlexQuery.Python.FloatRepr
import FlexQuery.Python.Dumps
import FlexQuery.Queue.Dedup
import FlexQuery.Library.Exposition
import FlexQuery.Library.Grouping
import FlexQuery.Library.Families
import FlexQuery.Api.MetricsLine
import FlexQuery.Api.Metrics
import FlexQuery.Library.Spacing
import FlexQuery.Worker.Settings
import FlexQuery.Queue.Spacing
import FlexQuery.Library.Potential
import FlexQuery.Queue.Drain
import FlexQuery.Library.Streak
import FlexQuery.Worker.RunForever
import FlexQuery.Library.Retention
import FlexQuery.Scheduler.Trim
import FlexQuery.Library.Monitor
import FlexQuery.Api.Middleware
import FlexQuery.Queue.Arrivals
import FlexQuery.Queue.Fairness
import FlexQuery.Api.Dashboard
import FlexQuery.Library.LeftJoin
import FlexQuery.Ops.Coverage
import FlexQuery.Orchestration.Asked
import FlexQuery.Orchestration.Upload
import FlexQuery.Api.ManualOps
import FlexQuery.Library.LastWrite
import FlexQuery.Api.Overview
import FlexQuery.Library.Refinement
import FlexQuery.Queue.Fleet
import FlexQuery.Queue.FleetRefines
import FlexQuery.Queue.SafetyNet
