import Juncture.Core.Checkpoint

/-!
# What the savers store

The savers of the checkpoint crate, `MemorySaver` and `SqliteSaver`, look at identifiers and times of
checkpoints as the text they are: they compare and sort them, and only the expiry reads a time as a
time.  So here a checkpoint is the record of the source, where the model of the engine
(`Juncture.Checkpoint`) numbers its checkpoints.
-/

namespace Juncture

namespace Saver

/-- `Checkpoint`. -/
structure Checkpoint where
  /-- Identifier. -/
  id : String
  /-- The serialized state. -/
  channelValues : Json := .obj []
  /-- Version of each channel. -/
  channelVersions : Dict ℕ := ∅
  /-- Versions each node has seen. -/
  versionsSeen : Dict (Dict ℕ) := ∅
  /-- Tasks of the next superstep. -/
  pendingTasks : List CheckpointPendingTask := []
  /-- Sends that were not delivered. -/
  pendingSends : List SerializedSend := []
  /-- Interrupts that wait for an answer. -/
  pendingInterrupts : List InterruptSignal := []
  /-- Version of the state's schema. -/
  schemaVersion : ℕ := 1
  /-- Creation time, as text. -/
  createdAt : String
  /-- Version of the format. -/
  v : ℕ := 1
  /-- Versions that are new in this checkpoint. -/
  newVersions : Dict ℕ := ∅
  /-- Counters of the delta channels. -/
  countersSinceDeltaSnapshot : Dict DeltaCounters := ∅
deriving DecidableEq

/-- `CheckpointMetadata`. -/
structure CheckpointMetadata where
  /-- What made the checkpoint. -/
  source : CheckpointSource
  /-- Step of the loop. -/
  step : ℤ
  /-- Summary of the writes. -/
  writes : Dict Json := ∅
  /-- Parent checkpoint of each namespace. -/
  parents : Dict String := ∅
  /-- Run that made it. -/
  runId : String := ""
  /-- What the run returned. -/
  returnValue : Option Json := none
deriving DecidableEq

/-- `PendingWrite`. -/
structure PendingWrite where
  /-- Task that wrote. -/
  taskId : String
  /-- Channel. -/
  channel : String
  /-- Value. -/
  value : Json
deriving DecidableEq

/-- What the savers read of a `RunnableConfig`. -/
structure Config where
  /-- Thread of the conversation. -/
  threadId : Option String := none
  /-- Namespace of a subgraph run, as text. -/
  checkpointNs : Option String := none
  /-- Checkpoint the run is at. -/
  checkpointId : Option String := none
deriving DecidableEq

/-- `CheckpointTuple`. -/
structure CheckpointTuple where
  /-- Configuration the checkpoint was put or asked for with. -/
  config : Config
  /-- The checkpoint. -/
  checkpoint : Checkpoint
  /-- Its metadata. -/
  metadata : CheckpointMetadata
  /-- Writes of tasks that completed after it. -/
  pendingWrites : List PendingWrite := []
  /-- Configuration of the parent checkpoint, which neither saver fills in. -/
  parentConfig : Option Config := none
deriving DecidableEq

/-- What was put, apart from the configuration. -/
def CheckpointTuple.content (t : CheckpointTuple) : Checkpoint × CheckpointMetadata :=
  (t.checkpoint, t.metadata)

/-- `CheckpointFilter`. -/
structure CheckpointFilter where
  /-- Source. -/
  source : Option CheckpointSource := none
  /-- Least step. -/
  stepGte : Option ℤ := none
  /-- Greatest step. -/
  stepLte : Option ℤ := none
  /-- Only what comes before this checkpoint in the list. -/
  before : Option String := none
  /-- Only what comes after this checkpoint in the list. -/
  after : Option String := none
  /-- How many. -/
  limit : Option ℕ := none
deriving DecidableEq

/-- The namespace of a thread that a call is about. -/
abbrev Place := String × String

namespace Config

/-- `get_thread_id`. -/
def getThreadId (config : Config) : Except CheckpointError String :=
  match config.threadId with
  | some threadId => .ok threadId
  | none => .error (.storage "thread_id is required")

/-- `get_checkpoint_ns`. -/
def getCheckpointNs (config : Config) : String := config.checkpointNs.getD ""

/-- The namespace of the thread, for a configuration that has a thread. -/
def place (config : Config) (threadId : String) : Place := (threadId, config.getCheckpointNs)

end Config

/-! ### Expiry -/

/-- `DateTime::parse_from_rfc3339` of the time crate, in nanoseconds. -/
class Chrono where
  /-- The time a text stands for. -/
  parseFromRfc3339 : String → Option ℤ

/-- The first two seconds of the epoch, and no other text. -/
@[reducible] def epochChrono : Chrono where
  parseFromRfc3339
    | "1970-01-01T00:00:00+00:00" => some 0
    | "1970-01-01T00:00:01+00:00" => some (10 ^ 9)
    | _ => none

/-- `Duration::MAX`, in nanoseconds. -/
def durationMax : ℕ := 2 ^ 64 * 10 ^ 9 - 1

/-- `TtlConfig`. -/
structure TtlConfig where
  /-- How long a checkpoint lives, in nanoseconds. -/
  defaultTtl : Option ℕ := none
  /-- How many checkpoints are kept. -/
  maxCheckpoints : Option ℕ := none
deriving DecidableEq

/-- `TtlConfig::disabled`, the default. -/
def TtlConfig.disabled : TtlConfig := {}

/-- `to_std().unwrap_or(Duration::MAX)`: there is no negative `Duration`. -/
def toStd (age : ℤ) : ℕ := if 0 ≤ age then age.toNat else durationMax

/-- `is_expired`, when the clock shows `now`.  A time that cannot be read does not expire. -/
def TtlConfig.isExpired [Chrono] (ttl : TtlConfig) (now : ℤ) (createdAt : String) : Bool :=
  match ttl.defaultTtl, Chrono.parseFromRfc3339 createdAt with
  | some d, some t => decide (d < toStd (now - t))
  | _, _ => false

end Saver

end Juncture
