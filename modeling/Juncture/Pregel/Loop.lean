import Juncture.Pregel.Guards
import Juncture.Pregel.Recovery
import Juncture.Pregel.Runner
import Juncture.Pregel.Writes

/-!
# The loop

`PregelLoop` is the state of one run.  A driver calls, in turn,

* `tick`, which decides whether the run goes on,
* `executeSuperstep`, which runs the pending tasks, and
* `afterTick` (in its own module), which merges what they wrote and schedules the next tasks.

The methods take `&mut self` and may fail half way, so each returns the loop it leaves behind next
to its result.  Stream events, metrics, callbacks and spans are left out.
-/

namespace Juncture

variable {S σ : Type} [State S]

/-- `PregelLoop<S>`, with what it reaches outside itself: the store behind the checkpointer, the
clock and the source of identifiers. -/
structure PregelLoop (S σ : Type) [State S] where
  /-- Current state. -/
  state : S
  /-- Nodes of the graph. -/
  nodes : Dict (Node S)
  /-- Registration index of each node. -/
  nodeRegistration : Dict ℕ
  /-- Trigger table. -/
  triggerTable : TriggerTable S
  /-- Field versions. -/
  fieldVersions : FieldVersionTracker
  /-- Versions seen by each node. -/
  versionsSeen : VersionsSeen
  /-- Configuration of the run. -/
  runnableConfig : RunnableConfig
  /-- The cancellation token has been cancelled. -/
  cancelled : Bool := false
  /-- Checkpoint saver. -/
  checkpointer : Option (CheckpointSaver σ) := none
  /-- Step counter. -/
  step : ℕ := 0
  /-- Status. -/
  status : LoopStatus := .running
  /-- Tasks of the next superstep. -/
  pendingTasks : List (PendingTask S)
  /-- Fields changed by the previous superstep. -/
  previousSuperstepChangedFields : FieldsChanged := .none
  /-- Budget tracker. -/
  budgetTracker : Option BudgetTracker := none
  /-- `RunControl`: a drain has been requested. -/
  drainRequested : Bool := false
  /-- Identifier of the run. -/
  runId : Uuid
  /-- The interrupt channel of the last superstep. -/
  interruptRx : Option (List InterruptSignal) := none
  /-- Interrupts to be persisted. -/
  pendingInterrupts : List InterruptSignal := []
  /-- Interrupts that have been answered. -/
  scratchpad : Scratchpad := {}
  /-- Field versions at the last static interrupt. -/
  interruptVersionsSeen : List ℕ := []
  /-- Error handler of each node. -/
  errorHandlerMap : Dict String := ∅
  /-- Reverse map of the trigger table. -/
  triggerToNodes : TriggerToNodes
  /-- Retry policies. -/
  retryPolicies : Dict RetryPolicy := ∅
  /-- Timeout policies. -/
  timeoutPolicies : Dict TimeoutPolicy := ∅
  /-- Circuit breaker of each node. -/
  circuitBreakerConfigs : Dict CircuitBreakerConfig := ∅
  /-- Their states. -/
  circuitBreakerStates : Dict CircuitBreakerState := ∅
  /-- Fallback of each node. -/
  fallbackMap : Dict String := ∅
  /-- Counters since the last snapshot. -/
  deltaCounters : Dict DeltaCounters := ∅
  /-- `finish_all_channels` has run. -/
  channelsFinished : Bool := false
  /-- The store behind the checkpointer. -/
  store : σ
  /-- Checkpoint writes handed to a background task (`Durability::Async`). -/
  backgroundPuts : List (RunnableConfig × Checkpoint × CheckpointMetadata) := []
  /-- A record of the checkpoints that the saver has accepted or a background task was given. -/
  written : List (Checkpoint × CheckpointMetadata) := []
  /-- Next fresh identifier. -/
  nextUuid : Uuid
  /-- The clock, in milliseconds. -/
  now : ℕ := 0
  /-- How far the clock moves on before each of the readings of the next breaker phase. -/
  lags : List ℕ := []

/-- What happens around and during one superstep that the loop does not decide itself. -/
structure Round (S : Type) [State S] where
  /-- Time that passes before the tick. -/
  pause : ℕ := 0
  /-- The run is cancelled before the tick. -/
  cancel : Bool := false
  /-- A drain is requested before the tick. -/
  drain : Bool := false
  /-- The background writes that complete before the tick, by position. -/
  writes : List ℕ := []
  /-- Time that passes before each pending task is checked against its breaker. -/
  checkLags : List ℕ := []
  /-- The interleaving of the tasks. -/
  schedule : List Choice := []
  /-- Time that passes while the tasks run. -/
  elapsed : ℕ := 0
  /-- Time that passes before each output is recorded by its breaker. -/
  recordLags : List ℕ := []
  /-- Tokens the nodes report. -/
  tokens : ℕ := 0
  /-- Cost the nodes report, in micro-USD. -/
  costUsdMicros : ℕ := 0
  /-- Reports of subgraphs handed to `after_tick`; the runner itself collects none. -/
  bubbleUps : List (BubbleUp S) := []

/-- Run `f` after an operation that may have failed: an error is passed on (`?`). -/
def andThen {L α β : Type} (r : L × Except JunctureError α)
    (f : L → α → L × Except JunctureError β) : L × Except JunctureError β :=
  match r with
  | (l, .ok a) => f l a
  | (l, .error e) => (l, .error e)

theorem andThen_eq_ok_iff {L α β : Type} {r : L × Except JunctureError α}
    {f : L → α → L × Except JunctureError β} {l' : L} {b : β} :
    andThen r f = (l', .ok b) ↔ ∃ l a, r = (l, .ok a) ∧ f l a = (l', .ok b) := by
  obtain ⟨l, _ | a⟩ := r
  · simp [andThen]
  · simp [andThen]

namespace PregelLoop

/-! ### Construction -/

/-- `compute_initial_tasks`: the nodes with an edge from `START`. -/
def computeInitialTasks (base : Uuid) (table : TriggerTable S) : List (PendingTask S) :=
  pullTasks base ((table.incoming.entries.filter fun kv => kv.2.contains (.edge START)).map
    Sigma.fst)

/-- `with_error_handlers`.  Registration order is the order of the node map. -/
def withErrorHandlers (state : S) (nodes : Dict (Node S)) (triggerTable : TriggerTable S)
    (config : RunnableConfig) (numFields : ℕ) (errorHandlerMap : Dict String) (store : σ)
    (nextUuid : Uuid) : PregelLoop S σ where
  state
  nodes
  nodeRegistration := Dict.ofList nodes.keys.zipIdx
  triggerTable
  fieldVersions := .new numFields
  versionsSeen := .new nodes.keys numFields
  runnableConfig := config
  pendingTasks := computeInitialTasks (nextUuid + 1) triggerTable
  runId := nextUuid
  errorHandlerMap
  triggerToNodes := .fromTriggerTable triggerTable
  store
  nextUuid := nextUuid + 1 + (computeInitialTasks (nextUuid + 1) triggerTable).length

/-- `set_circuit_breaker_policies`. -/
def setCircuitBreakerPolicies (l : PregelLoop S σ) (configs : Dict CircuitBreakerConfig) :
    PregelLoop S σ :=
  { l with
    circuitBreakerConfigs := configs
    circuitBreakerStates := Dict.ofList (configs.keys.map fun n => (n, {})) }

/-- What the runner is given. -/
def runnerEnv (l : PregelLoop S σ) : RunnerEnv S σ where
  nodes := l.nodes
  config := l.runnableConfig
  checkpointer := l.checkpointer
  errorHandlerMap := l.errorHandlerMap
  retryPolicies := l.retryPolicies
  timeoutPolicies := l.timeoutPolicies
  fallbackMap := l.fallbackMap

/-- What scheduling is given. -/
def scheduleEnv (l : PregelLoop S σ) : ScheduleEnv S where
  nodes := l.nodes
  table := l.triggerTable
  triggerToNodes := l.triggerToNodes
  fallbackMap := l.fallbackMap
  errorHandlerMap := l.errorHandlerMap

/-! ### Tick -/

/-- `finish_all_channels`, which takes effect once. -/
def finishAllChannels (l : PregelLoop S σ) : PregelLoop S σ :=
  if l.channelsFinished then l
  else
    { l with
      state := (State.replaceAfterFinishFieldIndices S).foldl State.finishField l.state
      channelsFinished := true }

/-- Why the budget is exceeded, if it is. -/
def budgetExceeded (l : PregelLoop S σ) : Option BudgetExceededReason :=
  l.budgetTracker.bind fun t => t.check l.now

/-- The static interrupt before or after the pending tasks, given the two sets of nodes. -/
def staticInterrupt [InterruptHash] (l : PregelLoop S σ) (before after : List String) :
    Option (List InterruptSignal) :=
  shouldInterrupt (l.pendingTasks.map PendingTask.nodeName) before after l.fieldVersions.versions
    l.interruptVersionsSeen

/-- The signals of `interrupt_before`, if the run has to stop there. -/
def interruptBefore [InterruptHash] (l : PregelLoop S σ) : Option (List InterruptSignal) :=
  l.runnableConfig.interruptBefore.bind fun nodes => l.staticInterrupt nodes []

/-- The signals of `interrupt_after`.  It is asked about the tasks that come next. -/
def interruptAfter [InterruptHash] (l : PregelLoop S σ) : Option (List InterruptSignal) :=
  l.runnableConfig.interruptAfter.bind fun nodes => l.staticInterrupt [] nodes

/-- The loop remembers the signals it stops with. -/
def raise (l : PregelLoop S σ) (signals : List InterruptSignal) (status : LoopStatus) :
    PregelLoop S σ :=
  { l with pendingInterrupts := signals, status }

/-- The loop remembers the versions of a static interrupt. -/
def seeVersions (l : PregelLoop S σ) : PregelLoop S σ :=
  { l with interruptVersionsSeen := l.fieldVersions.versions }

/-- `tick`: does the run go on?  With no task pending it is done, drain or no drain.  The status of
the loop is not looked at. -/
def tick [InterruptHash] (l : PregelLoop S σ) : PregelLoop S σ × Except JunctureError Bool :=
  if l.runnableConfig.recursionLimit ≤ l.step then
    ({ l with status := .outOfSteps }.finishAllChannels,
      .error (.recursionLimit l.step l.runnableConfig.recursionLimit))
  else if l.cancelled then ({ l with status := .cancelled }.finishAllChannels, .ok false)
  else match l.budgetExceeded with
    | some reason =>
      ({ l with status := .budgetExceeded }.finishAllChannels,
        .error (.execution s!"Budget exceeded: {reason.display}"))
    | none =>
      if l.pendingTasks.isEmpty then ({ l.finishAllChannels with status := .done }, .ok false)
      else match l.interruptBefore with
        | some signals =>
          ((l.seeVersions.raise signals (.interruptBefore signals)).finishAllChannels, .ok false)
        | none => (l, .ok true)

/-! ### Execution -/

/-- `resolve_state_json`: the states of `Send` tasks are deserialized in place, up to the first one
that does not deserialize. -/
def resolveStateJson :
    List (PendingTask S) → List (PendingTask S) × Except JunctureError Unit
  | [] => ([], .ok ())
  | task :: tasks =>
    match task.stateOverride, task.stateJson with
    | none, some json =>
      match (State.fromValue json : Except String S) with
      | .ok s =>
        ({ task with stateOverride := some s } :: (resolveStateJson tasks).1,
          (resolveStateJson tasks).2)
      | .error e => (task :: tasks, .error (.execution
          s!"failed to deserialize state_json for task '{task.nodeName}': {e}"))
    | _, _ => (task :: (resolveStateJson tasks).1, (resolveStateJson tasks).2)

/-- The output of a task whose circuit breaker is open. -/
def blockedOutput (task : PendingTask S) (failures : ℕ) : TaskOutput S where
  taskId := task.id
  nodeName := task.nodeName
  command := .default
  trigger := .pull
  error := some (.execution
    s!"Circuit breaker open for node '{task.nodeName}': {failures} consecutive failures")
  circuitBlocked := true

/-- The clock at reading `i` of a breaker phase, which reads it once for each task: the clock may
move on in between. -/
def reading (l : PregelLoop S σ) (i : ℕ) : ℕ := l.now + (l.lags.take (i + 1)).sum

/-- One pending task in `check_circuit_breakers`. -/
def checkBreaker (configs : Dict CircuitBreakerConfig) (now : ℕ)
    (acc : Dict CircuitBreakerState × List (TaskOutput S)) (task : PendingTask S) :
    Dict CircuitBreakerState × List (TaskOutput S) :=
  match configs.lookup task.nodeName, acc.1.lookup task.nodeName with
  | some config, some breaker =>
    let (breaker, allowed) := breaker.shouldAllow config now
    (acc.1.insert task.nodeName breaker,
      if allowed then acc.2 else acc.2 ++ [blockedOutput task breaker.consecutiveFailures])
  | _, _ => acc

/-- `check_circuit_breakers`: blocked tasks are taken out of the superstep. -/
def checkCircuitBreakers (l : PregelLoop S σ) : PregelLoop S σ × List (TaskOutput S) :=
  if l.circuitBreakerConfigs.entries.isEmpty then (l, [])
  else
    let (states, blocked) := l.pendingTasks.zipIdx.foldl
      (fun acc p => checkBreaker l.circuitBreakerConfigs (l.reading p.2) acc p.1)
      (l.circuitBreakerStates, [])
    ({ l with
        circuitBreakerStates := states
        pendingTasks := l.pendingTasks.filter fun t => !(blocked.map TaskOutput.taskId).contains t.id },
      blocked)

/-- One output in `record_circuit_breaker_results`. -/
def recordBreaker (configs : Dict CircuitBreakerConfig) (now : ℕ)
    (states : Dict CircuitBreakerState) (o : TaskOutput S) : Dict CircuitBreakerState :=
  match configs.lookup o.nodeName, states.lookup o.nodeName with
  | some config, some breaker =>
    let breaker := breaker.markHalfOpenAttempt
    states.insert o.nodeName
      (if o.error.isSome then breaker.recordFailure config now else breaker.recordSuccess)
  | _, _ => states

/-- `record_circuit_breaker_results`. -/
def recordCircuitBreakerResults (l : PregelLoop S σ) (outputs : List (TaskOutput S)) :
    PregelLoop S σ :=
  { l with
    circuitBreakerStates := outputs.zipIdx.foldl
      (fun states p => recordBreaker l.circuitBreakerConfigs (l.reading p.2) states p.1)
      l.circuitBreakerStates
    now := l.now + l.lags.sum
    lags := [] }

/-- The pending interrupts were answered by the superstep that just ran. -/
def markInterruptsProcessed (l : PregelLoop S σ) : PregelLoop S σ :=
  { l with
    scratchpad := (l.pendingInterrupts.filterMap InterruptSignal.id).foldl
      Scratchpad.markInterruptProcessed l.scratchpad }

/-- What the nodes report while they run, and the time it takes. -/
def report (l : PregelLoop S σ) (round : Round S) : PregelLoop S σ :=
  { l with
    now := l.now + l.lags.sum + round.elapsed
    lags := round.recordLags
    budgetTracker := l.budgetTracker.map fun t =>
      { t with
        tokensUsed := t.tokensUsed + round.tokens
        costUsdMicros := t.costUsdMicros + round.costUsdMicros } }

/-- What `execute_superstep` does before it calls the runner; the outputs of the blocked tasks. -/
def prepare (l : PregelLoop S σ) : PregelLoop S σ × Except JunctureError (List (TaskOutput S)) :=
  match resolveStateJson l.pendingTasks with
  | (tasks, .error e) => ({ l with pendingTasks := tasks }, .error e)
  | (tasks, .ok ()) =>
    let (l, blocked) := { l with pendingTasks := tasks }.checkCircuitBreakers
    (l, .ok blocked)

/-- The runner's outcome on the pending tasks of the loop. -/
def runTasks [InterruptHash] (l : PregelLoop S σ) (round : Round S) : RunnerOutcome S σ :=
  Juncture.executeSuperstep l.runnerEnv l.pendingTasks l.state l.pendingInterrupts l.scratchpad
    l.store l.nextUuid l.cancelled round.schedule

/-- The loop after the runner has returned.  The state was only lent to the tasks. -/
def absorb (l : PregelLoop S σ) (outcome : RunnerOutcome S σ) : PregelLoop S σ :=
  { l with store := outcome.store, nextUuid := outcome.nextUuid, cancelled := outcome.cancelled }

/-- `execute_superstep`, once the tasks are prepared. -/
def runPrepared [InterruptHash] (l : PregelLoop S σ) (round : Round S)
    (blocked : List (TaskOutput S)) : PregelLoop S σ × Except JunctureError (SuperstepResult S) :=
  let outcome := l.runTasks round
  let l := (l.absorb outcome).report round
  match outcome.result with
  | .error e => (l, .error e)
  | .ok result =>
    ({ l.markInterruptsProcessed.recordCircuitBreakerResults result.taskOutputs with
        interruptRx := some outcome.signals },
      .ok { result with taskOutputs := result.taskOutputs ++ blocked })

/-- `execute_superstep`. -/
def executeSuperstep [InterruptHash] (l : PregelLoop S σ) (round : Round S) :
    PregelLoop S σ × Except JunctureError (SuperstepResult S) :=
  andThen l.prepare fun l blocked => l.runPrepared round blocked

end PregelLoop

end Juncture
