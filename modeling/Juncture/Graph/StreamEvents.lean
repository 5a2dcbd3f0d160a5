import Juncture.Graph.Drivers

/-!
# The events of a stream

What the loop emits while it runs, and what a caller of `stream_with_config` can choose to see of it:
a mode, the events of subgraphs, a step to go on from, and the keys of the state.

* `shouldEmit`, `StreamConfig.passes` : the filters.
* `PregelLoop.roundEvents` : what the loop emits in one round, in order.

The loop of a stream has no checkpointer, so that the events about checkpoints are not among those it
emits.  Durations, the remaining budget in percent and the payloads of the events of models and tools,
which nothing here looks at, are left out.
-/

namespace Juncture

/-- `StreamMode`. -/
inductive StreamMode where
  | values
  | updates
  | messages
  | custom
  | debug
  | tools
  | checkpoints
  | tasks
  | multi (modes : List StreamMode)

/-- `MessageStreamMetadata`. -/
structure MessageStreamMetadata where
  /-- Node that called the model. -/
  node : String
  /-- The model. -/
  model : String
  /-- Tags of the call. -/
  tags : List String := []
  /-- Namespace of the subgraph. -/
  ns : List String := []

/-- `DebugEvent`. -/
inductive DebugEvent where
  | graphStart (threadId : String) (input : Json)
  | superstepStart (step : ℕ) (pendingNodes : List String)
  | superstepEnd (step : ℕ)
  | nodeStart (node : String) (step : ℕ)
  | nodeEnd (node : String) (step : ℕ) (outputType : String)
  | nodeError (node : String) (step : ℕ) (error : String)
  | channelWrite (channel node : String)
  | channelUpdate (channel : String) (newVersion : ℕ)
  | merge (step : ℕ) (channelsUpdated : List String)
  | edgeTraversed (source target edgeType : String)
  | checkpointSaved (checkpointId : Uuid) (step : ℕ)
  | budgetCheck (tokensUsed costUsdMicros : ℕ)
  | graphEnd (totalSteps : ℕ)

/-- `StreamEvent<S>`. -/
inductive StreamEvent (S : Type) [State S] where
  | values (state : S) (step : ℕ)
  | filteredValues (data : Json) (step : ℕ)
  | updates (node : String) (update : Update S) (step : ℕ)
  | filteredUpdates (node : String) (data : Json) (step : ℕ)
  | messages (metadata : MessageStreamMetadata)
  | custom (node : String) (data : Json) (ns : List String)
  | taskStart (node : String) (taskId : Uuid) (step : ℕ)
  | taskEnd (node : String) (taskId : Uuid) (step : ℕ)
  | interrupt (node : String) (payload : Json) (resumable : Bool) (ns : List String)
  | budgetExceeded (reason : BudgetExceededReason)
  | end (output : S)
  | cancelled (step : ℕ)
  | debug (e : DebugEvent)
  | tools
  | checkpointSaved (checkpointId : Uuid) (step : ℕ)
  | taskDetail (taskId : Uuid) (node : String) (step attempt : ℕ)

section Filters

variable {S : Type} [State S]

namespace StreamEvent

/-- `namespace`. -/
def namespace_ : StreamEvent S → List String
  | custom _ _ ns | interrupt _ _ _ ns => ns
  | messages metadata => metadata.ns
  | _ => []

/-- The step of an event that a resumed stream may skip. -/
def step? : StreamEvent S → Option ℕ
  | values _ step | filteredValues _ step | updates _ _ step | filteredUpdates _ _ step => some step
  | _ => none

end StreamEvent

namespace StreamMode

/-- `mode_matches_single`. -/
def modeMatchesSingle : StreamMode → StreamEvent S → Bool
  | values, .values .. | values, .filteredValues .. | values, .end .. => true
  | updates, .updates .. | updates, .filteredUpdates .. | updates, .end .. => true
  | messages, .messages .. | messages, .end .. => true
  | custom, .custom .. | custom, .end .. => true
  | debug, _ => true
  | tools, .tools | tools, .end .. => true
  | checkpoints, .checkpointSaved .. | checkpoints, .end .. => true
  | tasks, .taskDetail .. | tasks, .end .. => true
  | _, _ => false

/-- `should_emit`.  The tag `nostream` counts in the mode of messages alone. -/
def shouldEmit : StreamMode → StreamEvent S → Bool
  | messages, .messages metadata => !metadata.tags.contains "nostream"
  | multi modes, e => modes.any fun m => m.modeMatchesSingle e
  | mode, e => mode.modeMatchesSingle e

/-- Messages and debug events are many. -/
def isBusy : StreamMode → Bool
  | messages | debug => true
  | _ => false

/-- `stream_capacity`: the places in each of the two channels of a stream. -/
def streamCapacity : StreamMode → ℕ
  | messages | debug => 256
  | multi modes => if modes.any isBusy then 256 else 32
  | _ => 32

theorem streamCapacity_pos (mode : StreamMode) : 0 < mode.streamCapacity := by
  unfold streamCapacity
  split
  · omega
  · omega
  · split_ifs <;> omega
  · omega

end StreamMode

/-- `StreamResumption`: the caller has seen everything up to `last_step`. -/
structure StreamResumption where
  /-- The last step, if there is one. -/
  lastStep : Option ℕ := none

/-- `should_skip`. -/
def StreamResumption.shouldSkip (r : StreamResumption) (currentStep : ℕ) : Bool :=
  r.lastStep.any fun lastStep => decide (currentStep ≤ lastStep)

/-- `filter_json_by_keys`.  No keys at all means no filtering. -/
def filterJsonByKeys (value : Json) (keys : List String) : Json :=
  if keys.isEmpty then value
  else match value with
    | .obj kvs => .obj (kvs.filter fun kv => keys.contains kv.1)
    | other => other

/-- `StreamConfig`. -/
structure StreamConfig where
  /-- Mode. -/
  mode : StreamMode := .values
  /-- Events of subgraphs are wanted. -/
  includeSubgraphs : Bool := false
  /-- The subgraphs they are wanted of. -/
  subgraphFilter : Option (List String) := none
  /-- Fields that are wanted. -/
  outputKeys : Option (List String) := none
  /-- Where the caller has stopped before. -/
  resumption : Option StreamResumption := none

namespace StreamConfig

variable (sc : StreamConfig)

/-- The subgraph filter. -/
def passesSubgraphs (ns : List String) : Bool :=
  ns.isEmpty || (sc.includeSubgraphs &&
    !(sc.subgraphFilter.any fun filter => ns.head?.any fun first => !filter.contains first))

/-- A resumed stream skips this step. -/
def skips (step : ℕ) : Bool := sc.resumption.any fun r => r.shouldSkip step

/-- The event passes the filters by mode, subgraph and step. -/
def passes (e : StreamEvent S) : Bool :=
  sc.mode.shouldEmit e && sc.passesSubgraphs e.namespace_ && !e.step?.any sc.skips

end StreamConfig

end Filters

/-! ### What the loop emits -/

namespace PregelLoop

variable {S σ : Type} [State S]

/-- The name of a field in the events about channels. -/
def channelName (S : Type) [State S] (idx : ℕ) : String :=
  ((State.fieldNames S)[idx]?).getD s!"field_{idx}"

/-- `emit_interrupt_events_with_namespace`: hidden nodes are left out. -/
def interruptEvents (signals : List InterruptSignal) (ns : List String) : List (StreamEvent S) :=
  signals.filterMap fun signal =>
    let node := ((signal.payload.get "node").bind Json.asStr).getD "unknown"
    if isHiddenNode node then none else some (.interrupt node signal.payload true ns)

/-- What `execute_superstep` emits. -/
def superstepEvents (l : PregelLoop S σ) : List (StreamEvent S) :=
  (if l.step = 0 then [.debug (.graphStart (l.runnableConfig.threadId.getD "")
      ((State.toValue l.state).toOption.getD .null))] else []) ++
    match l.prepare with
    | (_, .error _) => []
    | (l, .ok _) => [.debug (.superstepStart l.step (l.pendingTasks.map PendingTask.nodeName))]

/-- What `after_tick` emits about an accepted merge. -/
def mergeEvents (l : PregelLoop S σ) (changed : FieldsChanged) : List (StreamEvent S) :=
  let fields := (List.range 64).filter changed.hasField
  .debug (.merge l.step (fields.map (channelName S))) :: fields.map fun idx =>
    .debug (.channelUpdate (channelName S idx) (l.fieldVersions.get idx))

/-- The `output_type` of a command. -/
def outputType (c : Command S) : String :=
  if c.update.isSome then "update"
  else match c.goto with
    | .send _ => "send"
    | .next _ | .multiple _ => "goto"
    | _ => if c.resume.isSome then "resume" else "none"

/-- What `after_tick` emits about one output. -/
def outputEvents (step : ℕ) (o : TaskOutput S) : List (StreamEvent S) :=
  [.taskStart o.nodeName o.taskId step, .debug (.nodeStart o.nodeName step),
    .taskEnd o.nodeName o.taskId step,
    match o.error with
    | some e => .debug (.nodeError o.nodeName step e.display)
    | none => .debug (.nodeEnd o.nodeName step (outputType o.command))] ++
  o.command.streamData.map (fun data => .custom o.nodeName data []) ++
  match o.command.update with
  | some update =>
    [.updates o.nodeName update step, .debug (.channelWrite o.nodeName o.nodeName)]
  | none => []

/-- What `after_tick` emits about the outputs of a superstep, in the committed loop. -/
def commitEvents (l : PregelLoop S σ) (outputs : List (TaskOutput S)) : List (StreamEvent S) :=
  (outputs.filter fun o => !o.circuitBlocked).flatMap (outputEvents l.step) ++
    [.values l.state l.step, .debug (.superstepEnd l.step)]

/-- What `after_tick` emits about the next tasks. -/
def edgeEvents (l : PregelLoop S σ) : List (StreamEvent S) :=
  l.pendingTasks.map fun t => .debug (.edgeTraversed "superstep" t.nodeName "conditional")

/-- What `handle_bubble_ups` emits. -/
def reportEvents : BubbleUp S → List (StreamEvent S)
  | .interrupt i => interruptEvents i.interrupts i.namespace_
  | .drained _ | .parentCommand _ => []

/-- What `after_tick` emits when it has counted the step. -/
def countEvents (l : PregelLoop S σ) : List (StreamEvent S) :=
  (l.budgetTracker.map fun t =>
      .debug (.budgetCheck t.tokensUsed t.costUsdMicros)).toList ++
    if l.pendingTasks.isEmpty then [.debug (.graphEnd l.step)] else []

variable [InterruptHash] (ns : List String)

/-- What the last phase of `after_tick` emits.  The interrupts of this graph have the namespace
`ns`. -/
def finishEvents (l : PregelLoop S σ) (bubbleUps : List (BubbleUp S)) : List (StreamEvent S) :=
  let signals := l.interruptRx.getD []
  let l := { l with interruptRx := none }
  if signals.isEmpty then
    let (l, stopped) := l.handleBubbleUps bubbleUps
    bubbleUps.flatMap reportEvents ++
      if stopped then []
      else match l.interruptAfter with
        | some signals => interruptEvents signals ns
        | none => l.countStep.countEvents
  else interruptEvents signals ns

/-- What `after_tick` emits. -/
def afterTickEvents (l : PregelLoop S σ) (result : SuperstepResult S) : List (StreamEvent S) :=
  match l.mergeWrites result.taskOutputs with
  | (_, .error _) => []
  | (k, .ok changed) =>
    let k' := k.commitWrites l.fieldVersions.versions changed result.taskOutputs
    k.mergeEvents changed ++ k'.commitEvents result.taskOutputs ++
      match k'.scheduleTasks result.taskOutputs with
      | (_, .error _) => []
      | (k, .ok ()) =>
        k.edgeEvents ++
          match { k with previousSuperstepChangedFields := changed }.saveSuperstepCheckpoint with
          | (_, .error _) => []
          | (k, .ok ()) => k.finishEvents ns result.bubbleUps

/-- What the loop emits in one round, after a tick that goes on. -/
def roundEvents (l : PregelLoop S σ) (round : Round S) : List (StreamEvent S) :=
  l.superstepEvents ++
    match l.executeSuperstep round with
    | (_, .error _) => []
    | (l, .ok result) =>
      l.afterTickEvents ns { result with bubbleUps := result.bubbleUps ++ round.bubbleUps }

end PregelLoop

end Juncture
