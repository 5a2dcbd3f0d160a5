import Juncture.Graph.Compiled
import Juncture.Pregel.Halting

/-!
# The entry points and their drivers

`invoke`, `stream_with_config` and `resume` set up a loop each and drive it to its end.  The drivers
of `invoke` and `resume` pass every error on (`while pregel.tick()? { .. }`); the driver of the
streaming entry points goes on `while matches!(pregel.tick(), Ok(true))`, so that a tick that fails
ends it like a tick that is done.

* `PregelLoop.EndsAt` : the round in which a run ends, and how.
* `invokeLoop`, `streamLoop` : what the loops are set up with.
* `output`, `streamEnd` : what the callers get.

The events of a stream are left out, except those that end it.
-/

namespace Juncture

variable {S σ : Type} [State S]

/-! ### How a run ends -/

/-- How the driver leaves its loop. -/
inductive Ending where
  /-- `tick` says that there is nothing more to do. -/
  | done
  /-- `tick` fails. -/
  | tickFailed (e : JunctureError)
  /-- `execute_superstep` or `after_tick` fails. -/
  | superstepFailed (e : JunctureError)
deriving DecidableEq

namespace PregelLoop

variable [InterruptHash]

/-- The loop at the end of the run, if the run ends in this round. -/
def ending (l : PregelLoop S σ) (round : Round S) : Option (PregelLoop S σ × Ending) :=
  match (l.outside round).tick with
  | (l, .error e) => some (l, .tickFailed e)
  | (l, .ok false) => some (l, .done)
  | (l, .ok true) =>
    match l.executeSuperstep round with
    | (l, .error e) => some (l, .superstepFailed e)
    | (l, .ok result) =>
      match l.afterTick { result with bubbleUps := result.bubbleUps ++ round.bubbleUps } with
      | (l, .error e) => some (l, .superstepFailed e)
      | (_, .ok ()) => none

/-- The run ends in round `n`, at the loop `l`. -/
def EndsAt (l₀ : PregelLoop S σ) (rounds : ℕ → Round S) (n : ℕ) (l : PregelLoop S σ)
    (e : Ending) : Prop :=
  ∃ t, l₀.head rounds n = some t ∧ t.ending (rounds n) = some (l, e)

variable {t l : PregelLoop S σ} {round : Round S}

/-- The two endings that are up to `tick`. -/
theorem ending_of_tick :
    (t.ending round = some (l, .done) ↔ (t.outside round).tick = (l, .ok false)) ∧
      ∀ e, t.ending round = some (l, .tickFailed e) ↔ (t.outside round).tick = (l, .error e) := by
  unfold ending
  rcases (t.outside round).tick with ⟨k, e | b⟩
  · simp
  cases b with
  | false => simp
  | true =>
    dsimp only
    rcases k.executeSuperstep round with ⟨k', e | result⟩
    · simp
    · dsimp only
      rcases k'.afterTick { result with bubbleUps := result.bubbleUps ++ round.bubbleUps } with
        ⟨k'', e | ⟨⟩⟩
      · simp
      · simp

end PregelLoop

/-! ### The cache of results -/

/-- The results of finished runs by key, each with the time it was stored. -/
abbrev ResultStore := Dict (Json × ℕ)

namespace ResultCachePolicy

/-- `get`: an expired result is removed. -/
def get (policy : ResultCachePolicy) (results : ResultStore) (now : ℕ) (key : String) :
    ResultStore × Option Json :=
  match results.lookup key with
  | none => (results, none)
  | some (value, inserted) =>
    if policy.ttl.any fun ttl => decide (ttl < now - inserted) then (results.erase key, none)
    else (results, some value)

/-- `put`: a full cache is emptied first. -/
def put (policy : ResultCachePolicy) (results : ResultStore) (now : ℕ) (key : String)
    (value : Json) : ResultStore :=
  let full := policy.maxEntries.any fun max => decide (max ≤ results.entries.length)
  (if full && !results.containsKey key then ∅ else results).insert key (value, now)

end ResultCachePolicy

/-! ### Outputs -/

/-- `InterruptInfo`. -/
structure InterruptInfo where
  /-- Node that raised the interrupt. -/
  node : String
  /-- Its payload. -/
  value : Json
  /-- Its identifier. -/
  id : Option String
deriving DecidableEq

/-- `GraphOutput<S>`, with its metadata. -/
structure GraphOutput (S : Type) where
  /-- Final state. -/
  value : S
  /-- The interrupts the run stopped on. -/
  interrupts : List InterruptInfo
  /-- Number of supersteps. -/
  steps : ℕ
  /-- Identifier of the run. -/
  runId : Uuid
  /-- Checkpoint of the caller's configuration. -/
  checkpointId : Option Uuid

/-- The arguments of `invoke` and `stream_with_config`, with what they reach outside the graph. -/
structure InvokeCall (S σ : Type) where
  /-- The input, as a state. -/
  input : S
  /-- Configuration. -/
  config : RunnableConfig
  /-- The store behind the checkpointer. -/
  store : σ
  /-- The cached results. -/
  results : ResultStore := ∅
  /-- Next fresh identifier. -/
  nextUuid : Uuid
  /-- Time of the call. -/
  now : ℕ := 0

namespace CompiledGraph

variable (g : CompiledGraph S σ)

/-! ### Invoking -/

/-- The key of the call in the cache of results, if there is one. -/
def cacheKey (call : InvokeCall S σ) : Option (ResultCachePolicy × String) :=
  match g.cachePolicy, State.toValue call.input with
  | some policy, .ok json => some (policy, policy.generateKey json (g.effectiveConfig call.config))
  | _, _ => none

/-- The cached result of the call. -/
def cachedResult (call : InvokeCall S σ) : ResultStore × Option Json :=
  match g.cacheKey call with
  | some (policy, key) => policy.get call.results call.now key
  | none => (call.results, none)

/-- The configuration that `invoke` runs with: the task cache of the graph, and the result of the
previous run, from the latest checkpoint. -/
def invokeConfig (call : InvokeCall S σ) : σ × RunnableConfig :=
  let config := { g.effectiveConfig call.config with
    taskCachePolicy := g.cachePolicy.map ResultCachePolicy.toCachePolicy }
  match g.checkpointer with
  | none => (call.store, config)
  | some cp =>
    match cp.getTuple call.store config with
    | (store, .ok (some tuple)) => (store, { config with previous := tuple.metadata.returnValue })
    | (store, _) => (store, config)

/-- The loop of `invoke`.  It is not given the checkpointer. -/
def invokeLoop (call : InvokeCall S σ) : PregelLoop S σ :=
  { (g.newLoop call.input (g.invokeConfig call).2 (g.invokeConfig call).1
      call.nextUuid).setCircuitBreakerPolicies g.buildCircuitBreakerMap with
    fallbackMap := g.buildFallbackMap }

/-- What `invoke` and `resume` return when their loop has ended.  The interrupts are not looked at. -/
def output (config : RunnableConfig) (l : PregelLoop S σ) :
    Ending → Except JunctureError (GraphOutput S)
  | .done => .ok {
      value := l.state
      interrupts := []
      steps := l.step
      runId := l.runId
      checkpointId := config.checkpointId }
  | .tickFailed e => .error e
  | .superstepFailed e => .error e

/-- What `invoke` returns when there is a cached result. -/
def cachedOutput (call : InvokeCall S σ) (json : Json) : Except JunctureError (GraphOutput S) :=
  match State.fromValue json with
  | .error e => .error (.execution s!"node-result cache deserialize failed: {e}")
  | .ok state => .ok {
      value := state
      interrupts := []
      steps := 0
      runId := call.nextUuid
      checkpointId := call.config.checkpointId }

/-- The result of a run is stored with the latest checkpoint, if there is one; a failed write is
only logged. -/
def storeReturnValue (l : PregelLoop S σ) : σ :=
  match g.checkpointer, State.toValue l.state with
  | some cp, .ok value =>
    match cp.getTuple l.store l.runnableConfig with
    | (store, .ok (some tuple)) =>
      (cp.put store l.runnableConfig tuple.checkpoint
        { tuple.metadata with returnValue := some value }).1
    | (store, _) => store
  | _, _ => l.store

/-- The cached results after a run of `invoke`. -/
def storeResult (call : InvokeCall S σ) (l : PregelLoop S σ) : ResultStore :=
  match g.cacheKey call, State.toValue l.state with
  | some (policy, key), .ok value =>
    policy.put (g.cachedResult call).1 (call.now + l.now) key value
  | _, _ => (g.cachedResult call).1

/-- `invoke` after its loop has ended: what it returns, and what it leaves in the store and in the
cache. -/
def invokeEnd (call : InvokeCall S σ) (l : PregelLoop S σ) (e : Ending) :
    Except JunctureError (GraphOutput S) × σ × ResultStore :=
  (output call.config l e,
    if e = .done then (g.storeReturnValue l, g.storeResult call l)
    else (l.store, (g.cachedResult call).1))

/-- `resume` after its loop has ended. -/
def resumeEnd (call : ResumeCall σ) (l : PregelLoop S σ) (e : Ending) :
    Except JunctureError (GraphOutput S) × σ :=
  (output call.config l e, l.store)

/-! ### Streaming -/

/-- The loop of `stream_with_config`. -/
def streamLoop (call : InvokeCall S σ) : PregelLoop S σ :=
  g.newLoop call.input (g.effectiveConfig call.config) call.store call.nextUuid

/-- How the stream ends: the states of its `End` events, and the error that follows.  A failed tick
is not told from a finished run. -/
def streamEnd (l : PregelLoop S σ) : Ending → List (Except JunctureError S)
  | .done | .tickFailed _ => [.ok l.state]
  | .superstepFailed e => [.ok l.state, .error e]

end CompiledGraph

end Juncture
