import Juncture.Core.Interrupt

/-!
# Checkpoints and savers

What the engine persists, and the interface it persists through.  A saver is a family of
state-passing functions over a store `σ`, so that a write that fails may still have changed the
store.  The version maps, keyed `field_0, field_1, …` in the source, are lists by field index.
-/

namespace Juncture

/-- `DeltaCounters`: writes and supersteps since the last full snapshot. -/
structure DeltaCounters where
  /-- Supersteps that wrote the channel. -/
  updates : ℕ := 0
  /-- Supersteps. -/
  supersteps : ℕ := 0
deriving DecidableEq, Repr

/-- `exceeds_frequency`. -/
def DeltaCounters.exceedsFrequency (c : DeltaCounters) (snapshotFrequency : ℕ) : Bool :=
  snapshotFrequency == 0 || decide (snapshotFrequency ≤ c.updates)

/-- `CheckpointPendingTask`. -/
structure CheckpointPendingTask where
  /-- Task identifier. -/
  id : Uuid
  /-- Node to execute. -/
  node : String
  /-- Triggers of the task. -/
  triggers : List String := []
  /-- State of a `Send` task. -/
  stateOverride : Option Json := none
deriving DecidableEq

/-- `SerializedSend`. -/
structure SerializedSend where
  /-- Target node. -/
  node : String
  /-- Its state. -/
  state : Json
deriving DecidableEq

/-- `CheckpointSource`. -/
inductive CheckpointSource where
  | input
  | loop
  | update
  | fork
  | interrupt (node : String)
deriving DecidableEq

/-- `Checkpoint`. -/
structure Checkpoint where
  /-- Identifier. -/
  id : Uuid
  /-- The serialized state. -/
  channelValues : Json
  /-- Version of each field. -/
  channelVersions : List ℕ
  /-- Versions each node has seen. -/
  versionsSeen : Dict (List ℕ)
  /-- Tasks of the next superstep. -/
  pendingTasks : List CheckpointPendingTask
  /-- Sends that were not delivered. -/
  pendingSends : List SerializedSend
  /-- Interrupts that wait for an answer. -/
  pendingInterrupts : List InterruptSignal
  /-- Version of the state's schema. -/
  schemaVersion : ℕ
  /-- Creation time. -/
  createdAt : ℕ
  /-- Versions that are new in this checkpoint. -/
  newVersions : List ℕ
  /-- Counters of the delta channels. -/
  countersSinceDeltaSnapshot : Dict DeltaCounters

/-- `CheckpointMetadata`. -/
structure CheckpointMetadata where
  /-- What made the checkpoint. -/
  source : CheckpointSource
  /-- Step of the loop. -/
  step : ℤ
  /-- Run that made it. -/
  runId : Uuid
  /-- What the run returned. -/
  returnValue : Option Json := none
deriving DecidableEq

/-- `PendingWrite`: a write of one task to one channel. -/
structure PendingWrite where
  /-- Task that wrote. -/
  taskId : Uuid
  /-- Channel. -/
  channel : String
  /-- Value. -/
  value : Json
deriving DecidableEq

/-- `reserved_keys::ERROR`. -/
def ERROR : String := "__error__"

/-- `reserved_keys::ERROR_SOURCE_NODE`. -/
def ERROR_SOURCE_NODE : String := "__error_source_node__"

/-- `CheckpointTuple`. -/
structure CheckpointTuple where
  /-- Configuration that finds the checkpoint. -/
  config : RunnableConfig
  /-- The checkpoint. -/
  checkpoint : Checkpoint
  /-- Its metadata. -/
  metadata : CheckpointMetadata
  /-- Writes of tasks that completed after it. -/
  pendingWrites : List PendingWrite
  /-- Configuration of the parent checkpoint. -/
  parentConfig : Option RunnableConfig := none

/-- `CheckpointSaver`, over a store `σ`. -/
structure CheckpointSaver (σ : Type) where
  /-- `get_tuple`. -/
  getTuple : σ → RunnableConfig → σ × Except CheckpointError (Option CheckpointTuple)
  /-- `put`: the configuration that finds the new checkpoint. -/
  put : σ → RunnableConfig → Checkpoint → CheckpointMetadata →
    σ × Except CheckpointError RunnableConfig
  /-- `put_writes`. -/
  putWrites : σ → RunnableConfig → List PendingWrite → Uuid → σ × Except CheckpointError Unit

end Juncture
