import Juncture.Core.Duration
import Juncture.Lib.Retry
import Juncture.Llm.Messages

/-!
# `RetryingModel`

A model that asks another one again when it is over its rate or does not answer in time.  It waits as long
as the provider says, or twice as long as the last time; the power of two is computed in 32 bits, before
the bound on the wait is applied.

* `RetryingModel.invoke` : the calls.
* `RetryingModel.backsOff_iff` : the backoff is exact, bounded and monotone as long as there are at most
  32 retries.
* `RetryingModel.exact_invoke` : then the model is asked as often as it should be.
-/

namespace Juncture

/-- `LlmError`, as far as a retry looks at it. -/
inductive CallError where
  | rateLimited (retryAfter : Option Duration)
  | timeout (after : Duration)
  /-- Any other error, by its text. -/
  | permanent (text : String)

/-- `pow` of two `u32`, which panics on an overflow if it is checked, and wraps otherwise. -/
def powU32 (checked : Bool) (base exponent : ℕ) : Option ℕ :=
  if base ^ exponent < 2 ^ 32 then some (base ^ exponent)
  else if checked then none
  else some (base ^ exponent % 2 ^ 32)

/-- `u32::try_from(n).unwrap_or(u32::MAX)`. -/
def clampU32 (n : ℕ) : ℕ := if n < 2 ^ 32 then n else 2 ^ 32 - 1

/-- `RetryingModel`, without the model inside. -/
structure RetryingModel where
  /-- Attempts after the first one. -/
  maxRetries : ℕ := 3
  /-- The first wait. -/
  initialBackoff : Duration := .fromMillis 500
  /-- The longest wait. -/
  maxBackoff : Duration := .fromSecs 30
  /-- The provider may say how long to wait. -/
  respectRetryAfter : Bool := true

namespace RetryingModel

variable (m : RetryingModel) (checked : Bool)

/-- `is_retryable`. -/
def isRetryable : CallError → Bool
  | .rateLimited _ | .timeout _ => true
  | .permanent _ => false

/-- The factor of the backoff. -/
def multiplier (attempt : ℕ) : Option ℕ := powU32 checked 2 (clampU32 attempt)

/-- `backoff_duration`; there is none if it panics. -/
def backoffDuration (attempt : ℕ) : Option Duration :=
  (multiplier checked attempt).map fun n => min (m.initialBackoff.saturatingMul n) m.maxBackoff

/-- `extract_retry_delay`. -/
def extractRetryDelay : CallError → Option Duration
  | .rateLimited retryAfter => if m.respectRetryAfter then retryAfter else none
  | _ => none

/-- The wait after an attempt. -/
def delay (attempt : ℕ) (error : CallError) : Option Duration :=
  match m.extractRetryDelay error with
  | some delay => some delay
  | none => m.backoffDuration checked attempt

/-- The loop of `invoke`, with so many attempts left.  The model inside answers attempt `n` with
`outcomes n`. -/
def invokeFrom (outcomes : ℕ → Except CallError Message) :
    ℕ → ℕ → Option CallError → Retry.Run CallError Message Duration
  | 0, _, lastError => ⟨0, [], some (.error
      (lastError.getD (.permanent "llm error: Max retries exceeded with unknown error")))⟩
  | left + 1, attempt, _ =>
    match outcomes attempt with
    | .ok response => ⟨1, [], some (.ok response)⟩
    | .error error =>
      if isRetryable error && decide (attempt < m.maxRetries) then
        match m.delay checked attempt error with
        | none => ⟨1, [], none⟩
        | some delay => (invokeFrom outcomes left (attempt + 1) (some error)).after [delay]
      else ⟨1, [], some (.error error)⟩

/-- `invoke`: the calls, the waits and what is returned, unless it panics. -/
def invoke (outcomes : ℕ → Except CallError Message) : Retry.Run CallError Message Duration :=
  m.invokeFrom checked outcomes (m.maxRetries + 1) 0 none

/-- What is asked of the backoff after the attempts that may be retried. -/
structure BacksOff : Prop where
  /-- The power does not overflow. -/
  exact : ∀ attempt < m.maxRetries, multiplier checked attempt = some (2 ^ clampU32 attempt)
  /-- There is a backoff, within the bound. -/
  bounded : ∀ attempt < m.maxRetries, ∃ d, m.backoffDuration checked attempt = some d ∧ d ≤ m.maxBackoff
  /-- It does not shrink. -/
  monotone : ∀ attempt later d d', attempt ≤ later → later < m.maxRetries →
    m.backoffDuration checked attempt = some d → m.backoffDuration checked later = some d' → d ≤ d'

/-! ### The backoff -/

variable {m checked} {attempt : ℕ}

theorem multiplier_of_lt (h : attempt < 32) : multiplier checked attempt = some (2 ^ attempt) := by
  have hclamp : clampU32 attempt = attempt := if_pos (h.trans (by decide))
  rw [multiplier, hclamp, powU32, if_pos (Nat.pow_lt_pow_right (by decide) h)]

/-- From the 33rd attempt on, the power overflows. -/
theorem multiplier_of_le (h : 32 ≤ attempt) :
    multiplier checked attempt = if checked then none else some 0 := by
  have hclamp : 32 ≤ clampU32 attempt := by
    unfold clampU32
    split <;> omega
  have hpow : 2 ^ 32 ∣ 2 ^ clampU32 attempt := Nat.pow_dvd_pow 2 hclamp
  rw [multiplier, powU32, if_neg (Nat.not_lt.2 (Nat.le_of_dvd (Nat.two_pow_pos _) hpow)),
    Nat.mod_eq_zero_of_dvd hpow]

theorem backoffDuration_of_lt (h : attempt < 32) : m.backoffDuration checked attempt =
    some (min (m.initialBackoff.saturatingMul (2 ^ attempt)) m.maxBackoff) := by
  rw [backoffDuration, multiplier_of_lt h, Option.map_some]

/-- Where an overflow is checked, there is no backoff. -/
theorem backoffDuration_checked (h : 32 ≤ attempt) : m.backoffDuration true attempt = none := by
  rw [backoffDuration, multiplier_of_le h]
  rfl

/-- Where it is not, there is no wait. -/
theorem backoffDuration_unchecked (h : 32 ≤ attempt) :
    (m.backoffDuration false attempt).map Duration.nanos = some 0 := by
  rw [backoffDuration, multiplier_of_le h]
  have hzero : (min (m.initialBackoff.saturatingMul 0) m.maxBackoff).nanos ≤ 0 :=
    (Duration.le_iff.1 (min_le_left _ _)).trans (Duration.saturatingMul_zero _).le
  simp [Nat.le_zero.1 hzero]

theorem not_exact (h : 32 ≤ attempt) : multiplier checked attempt ≠ some (2 ^ clampU32 attempt) := by
  rw [multiplier_of_le h]
  have hpos : 0 < 2 ^ clampU32 attempt := Nat.two_pow_pos _
  cases checked with
  | true => simp
  | false =>
    intro hzero
    have : 0 = 2 ^ clampU32 attempt := Option.some.inj hzero
    omega

/-- **The backoff.**  It does not overflow, keeps within its bound and does not shrink, for all the attempts
that may be retried, if and only if these are at most 32. -/
theorem backsOff_iff (m : RetryingModel) (checked : Bool) : m.BacksOff checked ↔ m.maxRetries ≤ 32 := by
  constructor
  · intro h
    by_contra hretries
    exact not_exact le_rfl (h.exact 32 (by omega))
  · intro h
    refine ⟨fun attempt hattempt => ?_, fun attempt hattempt => ?_,
      fun attempt later d d' hle hlater hd hd' => ?_⟩
    · have hlt : attempt < 32 := by omega
      have hclamp : clampU32 attempt = attempt := if_pos (hlt.trans (by decide))
      rw [multiplier_of_lt hlt, hclamp]
    · exact ⟨_, backoffDuration_of_lt (by omega), min_le_right _ _⟩
    · rw [backoffDuration_of_lt (by omega), Option.some.injEq] at hd hd'
      rw [← hd, ← hd']
      exact min_le_min_right _ (m.initialBackoff.saturatingMul_mono
        (Nat.pow_le_pow_right Nat.two_pos hle))

/-- The 33rd wait of 34 attempts: with overflow checks it panics, and otherwise it is no wait at all. -/
theorem manyRetries_not_backsOff : ¬ BacksOff { maxRetries := 33 } true ∧
    ¬ BacksOff { maxRetries := 33 } false ∧
    backoffDuration { maxRetries := 33 } true 32 = none ∧
    (backoffDuration { maxRetries := 33 } false 32).map Duration.nanos = some 0 :=
  ⟨fun h => not_exact le_rfl (h.exact 32 (by decide)), fun h => not_exact le_rfl (h.exact 32 (by decide)),
    backoffDuration_checked le_rfl, backoffDuration_unchecked le_rfl⟩

/-! ### The calls -/

variable (m checked) in
/-- The model as a plan. -/
def plan : Retry.Plan CallError Unit Duration where
  again := isRetryable
  pause attempt _ error :=
    match m.delay checked attempt error with
    | none => ([], none)
    | some delay => ([delay], some ())

theorem plan_again (error : CallError) : (m.plan checked).again error = isRetryable error := rfl

theorem pause_none {error : CallError} (h : m.delay checked attempt error = none) :
    (m.plan checked).pause attempt () error = ([], none) := by
  simp only [plan, h]

theorem pause_some {error : CallError} {delay : Duration}
    (h : m.delay checked attempt error = some delay) :
    (m.plan checked).pause attempt () error = ([delay], some ()) := by
  simp only [plan, h]

/-- The loop follows the plan: what is left when all attempts are made is never looked at. -/
theorem invokeFrom_eq (outcomes : ℕ → Except CallError Message) (more : ℕ) (lastError : Option CallError)
    (h : attempt + more = m.maxRetries) : m.invokeFrom checked outcomes (more + 1) attempt lastError =
      Retry.run (m.plan checked) outcomes more attempt () := by
  induction more generalizing attempt lastError with
  | zero =>
    have hlast : ¬ attempt < m.maxRetries := by omega
    simp only [invokeFrom, Retry.run, hlast, decide_false, Bool.and_false, Bool.false_eq_true, if_false]
    cases outcomes attempt <;> rfl
  | succ more ih =>
    have hmore : attempt < m.maxRetries := by omega
    obtain hfinal | ⟨error, he, hagain⟩ := Retry.final_or (m.plan checked) (outcomes attempt)
    · rw [Retry.run_of_final hfinal, invokeFrom]
      cases houtcome : outcomes attempt with
      | ok response => rfl
      | error error =>
        have hpermanent : isRetryable error = false := hfinal error houtcome
        simp only [hpermanent, Bool.false_and, Bool.false_eq_true, if_false]
    · rw [plan_again] at hagain
      rw [invokeFrom]
      simp only [he, hagain, hmore, decide_true, Bool.and_true, if_true]
      cases hdelay : m.delay checked attempt error with
      | none => rw [Retry.run_of_broken he hagain (pause_none hdelay)]
      | some delay =>
        rw [Retry.run_of_pause he hagain (pause_some hdelay), ← ih (some error) (by omega)]

theorem sound_plan {outcomes : ℕ → Except CallError Message} (more : ℕ) (h : attempt + more ≤ 32) :
    Retry.Sound (m.plan checked) outcomes more attempt () := by
  induction more generalizing attempt with
  | zero => trivial
  | succ more ih =>
    rintro error - -
    have hdelay : ∃ delay, m.delay checked attempt error = some delay := by
      unfold delay
      split
      · exact ⟨_, rfl⟩
      · exact ⟨_, backoffDuration_of_lt (by omega)⟩
    obtain ⟨delay, hdelay⟩ := hdelay
    exact ⟨[delay], (), pause_some hdelay, ih (by omega)⟩

/-- With at most 32 retries, the model is asked until it answers, until it fails for good or until no
attempt is left, and what it has said last is returned. -/
theorem exact_invoke (h : m.maxRetries ≤ 32) (outcomes : ℕ → Except CallError Message) :
    Retry.Exact (m.plan checked) outcomes m.maxRetries 0 (m.invoke checked outcomes) := by
  rw [invoke, invokeFrom_eq outcomes m.maxRetries none (Nat.zero_add _), Retry.exact_run_iff]
  exact sound_plan m.maxRetries (by omega)

end RetryingModel

end Juncture
