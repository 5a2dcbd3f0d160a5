import Juncture.Core.Checkpoint

/-!
# Budgets and circuit breakers

Two run-time guards of the loop.  The budget tracker is read by `tick`; nodes report usage to it
while they run.  A circuit breaker keeps a node that failed too often from running for a while.
Both read the clock, which the model passes in as `now`, in milliseconds.
-/

namespace Juncture

/-! ### Budget -/

/-- `BudgetTracker`. -/
structure BudgetTracker where
  /-- Tokens reported so far. -/
  tokensUsed : ℕ := 0
  /-- Cost reported so far, in micro-USD. -/
  costUsdMicros : ℕ := 0
  /-- When the run started. -/
  startTime : ℕ := 0
  /-- Supersteps completed. -/
  stepsCompleted : ℕ := 0
  /-- The limits. -/
  config : BudgetConfig := {}
deriving DecidableEq

/-- `BudgetExceededReason`. -/
inductive BudgetExceededReason where
  | tokens (used limit : ℕ)
  | cost (used limit : ℚ)
  | duration (used limit : ℕ)
  | steps (used limit : ℕ)
deriving DecidableEq

/-- The `Display` text of the reason.  Costs and durations print as plain numbers here, where the
source rounds costs to six digits and prints durations with their unit. -/
def BudgetExceededReason.display : BudgetExceededReason → String
  | .tokens used limit => s!"Token budget exceeded: {used} > {limit}"
  | .cost used limit => s!"Cost budget exceeded: ${used} > ${limit}"
  | .duration used limit => s!"Duration budget exceeded: {used} > {limit}"
  | .steps used limit => s!"Step budget exceeded: {used} > {limit}"

namespace BudgetTracker

/-- `check`: the first limit that is exceeded, in the order tokens, cost, duration, steps. -/
def check (t : BudgetTracker) (now : ℕ) : Option BudgetExceededReason :=
  let tokens := t.config.maxTokens.bind fun m =>
    if m < t.tokensUsed then some (.tokens t.tokensUsed m) else none
  let cost := t.config.maxCostUsd.bind fun m =>
    if m < (t.costUsdMicros : ℚ) / 1000000 then some (.cost ((t.costUsdMicros : ℚ) / 1000000) m)
    else none
  let duration := t.config.maxDuration.bind fun m =>
    if m < now - t.startTime then some (.duration (now - t.startTime) m) else none
  let steps := t.config.maxSteps.bind fun m =>
    if m < t.stepsCompleted then some (.steps t.stepsCompleted m) else none
  tokens.or (cost.or (duration.or steps))

/-- `report_step`. -/
def reportStep (t : BudgetTracker) : BudgetTracker :=
  { t with stepsCompleted := t.stepsCompleted + 1 }

end BudgetTracker

/-! ### Circuit breaker -/

/-- `CircuitBreakerConfig`. -/
structure CircuitBreakerConfig where
  /-- Consecutive failures that open the circuit. -/
  failureThreshold : ℕ
  /-- How long it stays open. -/
  cooldownDuration : ℕ
  /-- Probes allowed while it is half open. -/
  halfOpenMaxAttempts : ℕ := 1
deriving DecidableEq

/-- `CircuitState`. -/
inductive CircuitState where
  | closed
  | open
  | halfOpen
deriving DecidableEq

/-- `CircuitBreakerState`. -/
structure CircuitBreakerState where
  /-- The circuit. -/
  state : CircuitState := .closed
  /-- Failures in a row. -/
  consecutiveFailures : ℕ := 0
  /-- When the circuit opened. -/
  openedAt : Option ℕ := none
  /-- Probes since it half opened. -/
  halfOpenAttempts : ℕ := 0
deriving DecidableEq

namespace CircuitBreakerState

/-- `should_allow`: may the node run?  The breaker half opens when the cooldown is over. -/
def shouldAllow (b : CircuitBreakerState) (config : CircuitBreakerConfig) (now : ℕ) :
    CircuitBreakerState × Bool :=
  match b.state with
  | .closed => (b, true)
  | .open =>
    match b.openedAt with
    | some opened =>
      if config.cooldownDuration ≤ now - opened then
        ({ b with state := .halfOpen, halfOpenAttempts := 1 }, true)
      else (b, false)
    | none => ({ b with state := .closed }, true)
  | .halfOpen => (b, decide (b.halfOpenAttempts < config.halfOpenMaxAttempts))

/-- `mark_half_open_attempt`. -/
def markHalfOpenAttempt (b : CircuitBreakerState) : CircuitBreakerState :=
  if b.state = .halfOpen then { b with halfOpenAttempts := b.halfOpenAttempts + 1 } else b

/-- `record_success`. -/
def recordSuccess (b : CircuitBreakerState) : CircuitBreakerState :=
  if b.state = .open then b
  else { state := .closed, consecutiveFailures := 0, openedAt := none, halfOpenAttempts := 0 }

/-- `record_failure`. -/
def recordFailure (b : CircuitBreakerState) (config : CircuitBreakerConfig) (now : ℕ) :
    CircuitBreakerState :=
  let b := { b with consecutiveFailures := b.consecutiveFailures + 1 }
  match b.state with
  | .closed =>
    if config.failureThreshold ≤ b.consecutiveFailures then
      { b with state := .open, openedAt := some now }
    else b
  | .halfOpen => { b with state := .open, openedAt := some now, halfOpenAttempts := 0 }
  | .open => b

end CircuitBreakerState

end Juncture
