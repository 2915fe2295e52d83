import FlexQuery.Python.Base

/-!
# Retry policy

`worker/retry.py`: an error text becomes a category, and a category a plan.

* `flexErrorCodes` — every `[NNNN]` quoted in a text.
* `classifyFlexError` — throttle dominates, then configuration, then "not ready".
* `summarizeCategories` — the worst category of several texts.
* `planRetry` — retry later, cool the whole queue down, or give up.

`planRetry_pending` is the one thing the queue relies on: only a job with attempts left is
sent back to `pending`.
-/

set_option autoImplicit false

namespace FlexQuery

inductive ErrorCategory where
  | notReady
  | throttled
  | config
  | transient
  | unknown
  deriving DecidableEq, Repr

namespace ErrorCategory

/-- The text the category is stored as. -/
def value : ErrorCategory → String
  | notReady => "not_ready"
  | throttled => "throttled"
  | config => "config"
  | transient => "transient"
  | unknown => "unknown"

theorem value_injective : Function.Injective value := by
  intro a b h
  cases a <;> cases b <;> first | rfl | (exfalso; revert h; decide)

end ErrorCategory

def NOT_READY_CODES : List ℕ := [1003, 1004, 1005, 1006, 1007, 1008, 1009, 1019, 1021]
def THROTTLED_CODES : List ℕ := [1018]
def CONFIG_CODES : List ℕ := [1010, 1011, 1012, 1013, 1014, 1015, 1016, 1017, 1020]

def CONFIG_MARKERS : List String :=
  ["No Flex credentials", "Token has expired", "Token is invalid", "Query is invalid",
    "unknown job kind"]

def TRANSIENT_MARKERS : List String :=
  ["timed out", "Connection refused", "Connection reset", "connection to server",
    "could not connect", "Name or service not known", "Temporary failure in name resolution",
    "URLError", "HTTP Error 5", "OperationalError", "InterfaceError", "did not return report"]

/-- `\[(\d{4})\]` at the head of the text. -/
def codeAt : List Char → Option ℕ
  | '[' :: a :: b :: c :: d :: ']' :: _ =>
    match digitValue a, digitValue b, digitValue c, digitValue d with
    | some a, some b, some c, some d => some (1000 * a + 100 * b + 10 * c + d)
    | _, _, _, _ => none
  | _ => none

/-- `flex_error_codes`: two matches never overlap, so every position counts. -/
def flexErrorCodes (message : String) : List ℕ := message.toList.tails.filterMap codeAt

/-- `classify_flex_error`. -/
def classifyFlexError (msg : String) : ErrorCategory :=
  let codes := flexErrorCodes msg
  if codes.any (· ∈ THROTTLED_CODES) then .throttled
  else if codes.any (· ∈ CONFIG_CODES) || CONFIG_MARKERS.any (contains msg) then .config
  else if codes.any (· ∈ NOT_READY_CODES) then .notReady
  else if TRANSIENT_MARKERS.any (contains msg) then .transient
  else .unknown

/-- `order` of `summarize_categories`: the worst one first. -/
def SUMMARY_ORDER : List ErrorCategory := [.throttled, .config, .notReady, .transient, .unknown]

/-- `summarize_categories`. -/
def summarizeCategories (messages : List String) : ErrorCategory :=
  let seen := messages.map classifyFlexError
  (SUMMARY_ORDER.find? fun cat => cat ∈ seen).getD .unknown

theorem classifyFlexError_throttled {msg : String} :
    classifyFlexError msg = .throttled ↔ 1018 ∈ flexErrorCodes msg := by
  have hany : (flexErrorCodes msg).any (· ∈ THROTTLED_CODES) = true ↔
      1018 ∈ flexErrorCodes msg := by
    simp [THROTTLED_CODES, List.any_eq_true]
  rw [← hany]
  unfold classifyFlexError
  simp only
  split
  · rename_i h; simp [h]
  · rename_i h
    simp only [h]
    split
    · simp
    · split
      · simp
      · split <;> simp

/-- Delays in seconds. -/
structure RetryPolicy where
  notReadyDelaySec : ℤ := 1800
  throttledDelaySec : ℤ := 1800
  transientDelaySec : ℤ := 120
  unknownDelaySec : ℤ := 300
  deriving DecidableEq, Repr

/-- What becomes of the job: back to `pending`, or final. -/
inductive PlanStatus where
  | pending
  | failed
  deriving DecidableEq, Repr

structure RetryPlan where
  status : PlanStatus
  category : ErrorCategory
  /-- Seconds before this job may be claimed again. -/
  delaySec : ℤ := 0
  /-- Seconds every other pending job must also wait. -/
  cooldownAllSec : ℤ := 0
  deriving DecidableEq, Repr

/-- `plan_retry`. -/
def planRetry (category : ErrorCategory) (attempts maxAttempts : ℕ) (p : RetryPolicy) :
    RetryPlan :=
  if category = .config then { status := .failed, category := category }
  else if attempts ≥ maxAttempts then { status := .failed, category := category }
  else match category with
    | .notReady =>
      { status := .pending, category := category, delaySec := p.notReadyDelaySec }
    | .throttled =>
      { status := .pending, category := category, delaySec := p.throttledDelaySec,
        cooldownAllSec := p.throttledDelaySec }
    | .transient =>
      { status := .pending, category := category, delaySec := p.transientDelaySec }
    | _ => { status := .pending, category := category, delaySec := p.unknownDelaySec }

theorem planRetry_category (c : ErrorCategory) (n m : ℕ) (p : RetryPolicy) :
    (planRetry c n m p).category = c := by
  unfold planRetry
  split
  · rfl
  · split
    · rfl
    · cases c <;> rfl

/-- A plan to retry leaves an attempt to make. -/
theorem planRetry_pending {c : ErrorCategory} {n m : ℕ} {p : RetryPolicy}
    (h : (planRetry c n m p).status = .pending) : n < m := by
  unfold planRetry at h
  split at h
  · cases h
  · split at h
    · cases h
    · rename_i hlt
      exact Nat.lt_of_not_le hlt

theorem planRetry_throttled {n m : ℕ} (h : n < m) (p : RetryPolicy) :
    planRetry .throttled n m p =
      { status := .pending, category := .throttled, delaySec := p.throttledDelaySec,
        cooldownAllSec := p.throttledDelaySec } := by
  unfold planRetry
  rw [if_neg (by decide), if_neg (Nat.not_le.mpr h)]

/-- Only a throttled attempt cools the rest of the queue down. -/
theorem planRetry_cooldown {c : ErrorCategory} {n m : ℕ} {p : RetryPolicy}
    (h : (planRetry c n m p).cooldownAllSec ≠ 0) :
    c = .throttled ∧ n < m ∧ (planRetry c n m p).delaySec = p.throttledDelaySec ∧
      (planRetry c n m p).cooldownAllSec = p.throttledDelaySec := by
  unfold planRetry at h ⊢
  split at h
  · exact absurd rfl h
  · split at h
    · exact absurd rfl h
    · rename_i hc hlt
      cases c with
      | throttled => exact ⟨rfl, Nat.lt_of_not_le hlt, by simp [hlt], by simp [hlt]⟩
      | config => exact absurd rfl hc
      | notReady => exact absurd rfl h
      | transient => exact absurd rfl h
      | unknown => exact absurd rfl h

end FlexQuery
