import Juncture.Pregel.Run

/-!
# Compiled graphs

`CompiledGraph` holds what `compile` accepted; each of its entry points sets up a `PregelLoop` and
drives it.  The set-ups differ: only `invoke` installs circuit breakers and fallbacks, and only
`execute_with_emitter` and `resume` install the checkpointer.

* `checkpointedLoop` : the loop of `execute_with_emitter` and, from a saved state, of `resume`.
* `resume` : how a saved interrupt is turned into a loop.
-/

namespace Juncture

variable {S σ : Type} [State S]

/-- The fields of `NodeMetadata` that configure the engine. -/
structure NodeMetadata where
  /-- Retry policies; the first one counts. -/
  retryPolicies : List RetryPolicy := []
  /-- Error handler node. -/
  errorHandler : Option String := none
  /-- Timeout policies; the first one counts. -/
  timeoutPolicies : List TimeoutPolicy := []
  /-- Circuit breaker. -/
  circuitBreaker : Option CircuitBreakerConfig := none
  /-- Fallback node. -/
  fallbackNode : Option String := none

/-- The `CachePolicy` of a graph, for the results of whole runs. -/
structure ResultCachePolicy extends CachePolicy where
  /-- `generate_key`: the function of the policy, or a hash of the state and the thread. -/
  generateKey : Json → RunnableConfig → String

/-- `CompiledGraph<S>`. -/
structure CompiledGraph (S σ : Type) [State S] where
  /-- Nodes, in registration order. -/
  nodes : Dict (Node S)
  /-- Trigger table. -/
  triggerTable : TriggerTable S
  /-- Metadata of the nodes. -/
  builderMetadata : Dict NodeMetadata := ∅
  /-- Checkpoint saver. -/
  checkpointer : Option (CheckpointSaver σ) := none
  /-- Nodes to stop before. -/
  interruptBefore : List String := []
  /-- Nodes to stop after. -/
  interruptAfter : List String := []
  /-- Cache of results. -/
  cachePolicy : Option ResultCachePolicy := none

/-- The number of fields the loop tracks versions of. -/
def numFields : ℕ := 64

namespace CompiledGraph

variable (g : CompiledGraph S σ)

/-! ### Configuration -/

/-- A map from the nodes to one item of their metadata, for those that have it. -/
def buildMap {α : Type} (f : NodeMetadata → Option α) : Dict α :=
  Dict.ofList (g.builderMetadata.entries.filterMap fun kv => (f kv.2).map fun a => (kv.1, a))

/-- `build_error_handler_map`. -/
def buildErrorHandlerMap : Dict String := g.buildMap NodeMetadata.errorHandler

/-- `build_retry_policy_map`. -/
def buildRetryPolicyMap : Dict RetryPolicy := g.buildMap fun m => m.retryPolicies.head?

/-- `build_timeout_policy_map`. -/
def buildTimeoutPolicyMap : Dict TimeoutPolicy := g.buildMap fun m => m.timeoutPolicies.head?

/-- `build_circuit_breaker_map`. -/
def buildCircuitBreakerMap : Dict CircuitBreakerConfig := g.buildMap NodeMetadata.circuitBreaker

/-- `build_fallback_map`. -/
def buildFallbackMap : Dict String := g.buildMap NodeMetadata.fallbackNode

/-- `effective_config`: the interrupts of the graph are the defaults of the run. -/
def effectiveConfig (config : RunnableConfig) : RunnableConfig :=
  { config with
    interruptBefore :=
      if config.interruptBefore.isNone && !g.interruptBefore.isEmpty then some g.interruptBefore
      else config.interruptBefore
    interruptAfter :=
      if config.interruptAfter.isNone && !g.interruptAfter.isEmpty then some g.interruptAfter
      else config.interruptAfter }

/-! ### Loops -/

/-- What every entry point sets up: handlers, retries, timeouts and the budget. -/
def newLoop (state : S) (config : RunnableConfig) (store : σ) (nextUuid : Uuid) :
    PregelLoop S σ :=
  { PregelLoop.withErrorHandlers state g.nodes g.triggerTable config numFields
      g.buildErrorHandlerMap store nextUuid with
    retryPolicies := g.buildRetryPolicyMap
    timeoutPolicies := g.buildTimeoutPolicyMap
    budgetTracker := config.budget.map fun budget => { config := budget } }

/-- The loop of `execute_with_emitter` and of `resume`. -/
def checkpointedLoop (state : S) (config : RunnableConfig) (store : σ) (nextUuid : Uuid) :
    PregelLoop S σ :=
  { g.newLoop state config store nextUuid with checkpointer := g.checkpointer }

/-! ### Resuming -/

/-- The `{:?}` text of an optional string. -/
def debugOption : Option String → String
  | none => "None"
  | some s => s!"Some({debugStr s})"

/-- The `{:?}` text of a `CheckpointSource`. -/
def debugSource : CheckpointSource → String
  | .input => "Input"
  | .loop => "Loop"
  | .update => "Update"
  | .fork => "Fork"
  | .interrupt node => "Interrupt \x7b node: " ++ debugStr node ++ " \x7d"

/-- `deserialize_with_migration`. -/
def deserializeWithMigration (checkpoint : Checkpoint) : Except JunctureError S :=
  let channelValues :=
    if checkpoint.schemaVersion ≠ State.schemaVersion S then
      State.migrate S checkpoint.schemaVersion checkpoint.channelValues
    else checkpoint.channelValues
  match State.fromValue channelValues with
  | .ok state => .ok state
  | .error e => .error (.checkpoint s!"failed to deserialize state: {e}")

/-- The arguments of `resume`, with what it reaches outside the graph. -/
structure ResumeCall (σ : Type) where
  /-- Which checkpoint to resume. -/
  config : RunnableConfig
  /-- The answer. -/
  value : ResumeValue
  /-- The store behind the checkpointer. -/
  store : σ
  /-- Next fresh identifier. -/
  nextUuid : Uuid

/-- `resume`, up to the loop it drives. -/
def resume (call : ResumeCall σ) : σ × Except JunctureError (PregelLoop S σ) :=
  match g.checkpointer with
  | none => (call.store, .error (.checkpoint "no checkpointer configured for resume"))
  | some cp =>
    match cp.getTuple call.store call.config with
    | (store, .error e) => (store, .error (.checkpoint s!"failed to load checkpoint: {e.display}"))
    | (store, .ok none) => (store, .error (.checkpoint ("checkpoint not found: thread_id=" ++
        debugOption call.config.threadId ++ ", checkpoint_id=" ++
        debugOption (call.config.checkpointId.map toString))))
    | (store, .ok (some tuple)) =>
      match tuple.metadata.source with
      | .interrupt _ =>
        match deserializeWithMigration tuple.checkpoint with
        | .error e => (store, .error e)
        | .ok state => (store, .ok (g.checkpointedLoop state
            { g.effectiveConfig call.config with resumeValue := some call.value } store
            call.nextUuid))
      | source => (store, .error (.checkpoint
          ("resume() requires checkpoint from Interrupt source, got " ++ debugSource source)))

end CompiledGraph

end Juncture
