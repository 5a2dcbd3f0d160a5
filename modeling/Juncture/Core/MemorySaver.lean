import Juncture.Core.Checkpoint
import Mathlib.Data.List.Sort

/-!
# The in-memory saver

`MemorySaver` keeps the checkpoints of each thread and namespace, newest first, and apart from them
the writes that were added to each.  Expiry is disabled, as it is by default.
-/

namespace Juncture

/-- The two maps of a `MemorySaver`. -/
structure MemoryStore where
  /-- Checkpoints of a thread and namespace, newest first. -/
  storage : AList fun _ : String × String => List CheckpointTuple := ∅
  /-- Writes of a thread, checkpoint and namespace. -/
  writes : AList fun _ : String × Uuid × String => List PendingWrite := ∅

namespace MemorySaver

/-- `get_thread_id`. -/
def getThreadId (config : RunnableConfig) : Except CheckpointError String :=
  match config.threadId with
  | some threadId => .ok threadId
  | none => .error (.storage "thread_id is required")

/-- `get_checkpoint_ns`. -/
def getCheckpointNs (config : RunnableConfig) : String := config.checkpointNs.getD ""

/-- The order of `sort_checkpoints`: newest first. -/
def NewerOrSame (a b : CheckpointTuple) : Prop :=
  b.checkpoint.createdAt < a.checkpoint.createdAt ∨
    b.checkpoint.createdAt = a.checkpoint.createdAt ∧ b.checkpoint.id ≤ a.checkpoint.id

instance : DecidableRel NewerOrSame := fun _ _ => inferInstanceAs (Decidable (_ ∨ _))

/-- The checkpoint that a configuration asks for: the one it names, or the newest. -/
def select (config : RunnableConfig) (checkpoints : List CheckpointTuple) :
    Option CheckpointTuple :=
  match config.checkpointId with
  | none => checkpoints.head?
  | some id => checkpoints.find? fun t => t.checkpoint.id == id

/-- `get_tuple`. -/
def getTuple (store : MemoryStore) (config : RunnableConfig) :
    MemoryStore × Except CheckpointError (Option CheckpointTuple) :=
  match getThreadId config with
  | .error e => (store, .error e)
  | .ok threadId =>
    let ns := getCheckpointNs config
    let found := (store.storage.lookup (threadId, ns)).bind (select config)
    (store, .ok (found.map fun t =>
      { t with pendingWrites := (store.writes.lookup (threadId, t.checkpoint.id, ns)).getD [] }))

/-- `put`. -/
def put (store : MemoryStore) (config : RunnableConfig) (checkpoint : Checkpoint)
    (metadata : CheckpointMetadata) : MemoryStore × Except CheckpointError RunnableConfig :=
  match getThreadId config with
  | .error e => (store, .error e)
  | .ok threadId =>
    let key := (threadId, getCheckpointNs config)
    let tuple := { config, checkpoint, metadata, pendingWrites := [] }
    let checkpoints := (store.storage.lookup key).getD [] ++ [tuple]
    ({ store with storage := store.storage.insert key (checkpoints.insertionSort NewerOrSame) },
      .ok { config with checkpointId := some checkpoint.id })

/-- `put_writes`: the writes are filed under the checkpoint of the configuration. -/
def putWrites (store : MemoryStore) (config : RunnableConfig) (writes : List PendingWrite)
    (taskId : Uuid) : MemoryStore × Except CheckpointError Unit :=
  match getThreadId config with
  | .error e => (store, .error e)
  | .ok threadId =>
    match config.checkpointId with
    | none => (store, .error (.storage "checkpoint_id is required"))
    | some checkpointId =>
      let key := (threadId, checkpointId, getCheckpointNs config)
      let prepared := writes.map fun w => { w with taskId }
      ({ store with
          writes := store.writes.insert key ((store.writes.lookup key).getD [] ++ prepared) },
        .ok ())

end MemorySaver

/-- `MemorySaver`. -/
def memorySaver : CheckpointSaver MemoryStore where
  getTuple := MemorySaver.getTuple
  put := MemorySaver.put
  putWrites := MemorySaver.putWrites

end Juncture
