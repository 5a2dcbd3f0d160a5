import Juncture.Saver.Memory
import Juncture.Saver.Serializers

/-!
# `SqliteSaver`

`SqliteSaver` keeps checkpoints and the writes added to them in two tables.  A checkpoint is taken apart
into columns when it is put, and built again from them when it is read.

* `rowOf`, `deserializeCheckpoint` : between a checkpoint and its row.
* `getTuple`, `list`, `put`, `putWrites` : the calls, with what their statements do to the tables.

The rows of a query with `ORDER BY` come in that order; rows that it does not order come as they stand
in the table, where SQL would leave it open.
-/

namespace Juncture

namespace Saver

/-- A row of `checkpoints`, apart from its key. -/
structure CheckpointRow where
  /-- `parent_checkpoint_id`. -/
  parentCheckpointId : Option String
  /-- `channel_values`. -/
  channelValues : List UInt8
  /-- `channel_versions`. -/
  channelVersions : List UInt8
  /-- `versions_seen`. -/
  versionsSeen : List UInt8
  /-- `pending_tasks`. -/
  pendingTasks : Option (List UInt8)
  /-- `pending_sends`. -/
  pendingSends : Option (List UInt8)
  /-- `pending_interrupts`. -/
  pendingInterrupts : Option (List UInt8)
  /-- `schema_version`. -/
  schemaVersion : ℕ
  /-- `metadata`. -/
  metadata : List UInt8
  /-- `created_at`. -/
  createdAt : String

/-- A row of `checkpoint_writes`, for one checkpoint. -/
structure WriteRow where
  /-- `task_id`. -/
  taskId : String
  /-- `idx`. -/
  idx : ℕ
  /-- `channel`. -/
  channel : String
  /-- `value`. -/
  value : String

/-- `ORDER BY task_id, idx`. -/
def WriteRow.Before (a b : WriteRow) : Prop :=
  a.taskId < b.taskId ∨ a.taskId = b.taskId ∧ a.idx ≤ b.idx

instance : DecidableRel WriteRow.Before := fun _ _ => inferInstanceAs (Decidable (_ ∨ _))

/-- What a `SqliteSaver` was built with. -/
structure SqliteOptions where
  /-- `serializer`. -/
  serializer : SerializerKind := .messagePack
  /-- `schema_migrator`. -/
  schemaMigrator : Option (ℕ → ℕ → Json → Except String Json) := none

/-- The tables of a `SqliteSaver`. -/
structure SqliteSaver where
  /-- `checkpoints`, by thread, namespace and identifier. -/
  checkpoints : AList fun _ : Place × String => CheckpointRow := ∅
  /-- `checkpoint_writes`, by thread, namespace, checkpoint, task and index: channel and value. -/
  checkpointWrites : AList fun _ : Place × String × String × ℕ => String × String := ∅

namespace SqliteSaver

/-! ### From rows to checkpoints -/

/-- `map_err(|e| CoreCheckpointError::Storage(Box::new(e)))`. -/
def storage {α : Type} (x : Except String α) : Except CheckpointError α := x.mapError .storage

/-- The same, of an error of a saver. -/
def storageOf {α : Type} (x : Except CheckpointError α) : Except CheckpointError α :=
  x.mapError fun e => .storage e.display

/-- `migrate_checkpoint_schema`. -/
def migrateCheckpointSchema (channelValues : Json) (stored : ℕ) (id : String)
    (migrator : Option (ℕ → ℕ → Json → Except String Json)) : Except CheckpointError Json :=
  let current := 1
  if stored = current then .ok channelValues
  else if current < stored then
    .error (.other (s!"Checkpoint {id} has schema version {stored}, " ++
      s!"but current version is {current}. Downgrade is not supported."))
  else
    (List.range' stored (current - stored)).foldlM (fun values stepFrom =>
      let stepTo := stepFrom + 1
      match migrator with
      | some migrate => (migrate stepFrom stepTo values).mapError fun reason =>
          .other (s!"Checkpoint {id}: schema migration v{stepFrom} -> v{stepTo} failed: {reason}")
      | none => .error (.other (s!"Checkpoint {id}: no migration path from " ++
          s!"schema v{stepFrom} to v{stepTo}. Register a schema " ++
          "migrator via SqliteSaver::with_schema_migrator()."))) channelValues

section Reading

variable [Formats]

/-- A column of a list, which may be null. -/
def optional {α : Type} (c : CompoundCodec (List α)) (data : Option (List UInt8)) :
    Except CheckpointError (List α) :=
  match data with
  | some bytes => storage (c.deserializeAuto bytes)
  | none => .ok []

/-- `deserialize_checkpoint`. -/
def deserializeCheckpoint (options : SqliteOptions) (id : String) (row : CheckpointRow) :
    Except CheckpointError Checkpoint := do
  let rawChannelValues ← storage (Formats.values.deserializeAuto row.channelValues)
  let channelValues ←
    migrateCheckpointSchema rawChannelValues row.schemaVersion id options.schemaMigrator
  let channelVersions ← storage (Formats.versions.deserializeAuto row.channelVersions)
  let versionsSeen ← storage (Formats.seen.deserializeAuto row.versionsSeen)
  let pendingTasks ← optional Formats.tasks row.pendingTasks
  let pendingSends ← optional Formats.sends row.pendingSends
  let pendingInterrupts ← optional Formats.interrupts row.pendingInterrupts
  .ok { id, channelValues, channelVersions, versionsSeen, pendingTasks, pendingSends
        pendingInterrupts, schemaVersion := row.schemaVersion, createdAt := row.createdAt
        v := 1, newVersions := ∅, countersSinceDeltaSnapshot := ∅ }

/-- `row_to_tuple`. -/
def rowToTuple (options : SqliteOptions) (config : Config) (row : String × CheckpointRow) :
    Except CheckpointError CheckpointTuple := do
  let checkpoint ← storageOf (deserializeCheckpoint options row.1 row.2)
  let metadata ← storage (Formats.metadata.deserializeAuto row.2.metadata)
  .ok { config, checkpoint, metadata }

/-! ### The calls -/

/-- The rows of a thread and namespace, with their identifiers, `ORDER BY created_at DESC`. -/
def rows (s : SqliteSaver) (key : Place) : List (String × CheckpointRow) :=
  ((s.checkpoints.entries.filter fun e => e.1.1 == key).map fun e => (e.1.2, e.2)).insertionSort
    fun a b => b.2.createdAt ≤ a.2.createdAt

/-- The rows of writes of a checkpoint, `ORDER BY task_id, idx`. -/
def writeRows (s : SqliteSaver) (key : Place) (id : String) : List WriteRow :=
  ((s.checkpointWrites.entries.filter fun e => e.1.1 == key && e.1.2.1 == id).map fun e =>
    { taskId := e.1.2.2.1, idx := e.1.2.2.2, channel := e.2.1, value := e.2.2 }).insertionSort
    WriteRow.Before

/-- `load_pending_writes`. -/
def loadPendingWrites (s : SqliteSaver) (key : Place) (id : String) :
    Except CheckpointError (List PendingWrite) :=
  (s.writeRows key id).mapM fun row => do
    let value ← storage (Formats.fromText row.value)
    .ok { taskId := row.taskId, channel := row.channel, value }

/-- `get_thread_id`, whose error is wrapped once more. -/
def getThreadId (config : Config) : Except CheckpointError String := storageOf config.getThreadId

/-- The row that a configuration asks for: that of the checkpoint it names, or `LIMIT 1`. -/
def select (s : SqliteSaver) (config : Config) (key : Place) : Option (String × CheckpointRow) :=
  match config.checkpointId with
  | some id => (s.checkpoints.lookup (key, id)).map fun row => (id, row)
  | none => (s.rows key).head?

/-- The checkpoint of a row, with the writes that were added to it. -/
def loadTuple (s : SqliteSaver) (options : SqliteOptions) (config : Config) (key : Place)
    (row : String × CheckpointRow) : Except CheckpointError CheckpointTuple := do
  let tuple ← rowToTuple options config row
  let pendingWrites ← s.loadPendingWrites key tuple.checkpoint.id
  .ok { tuple with pendingWrites }

/-- `get_tuple`. -/
def getTuple (s : SqliteSaver) (options : SqliteOptions) (config : Config) :
    Except CheckpointError (Option CheckpointTuple) := do
  let threadId ← getThreadId config
  let key := config.place threadId
  match s.select config key with
  | some row => (s.loadTuple options config key row).map some
  | none => .ok none

/-- A filter other than the limit, which needs the metadata. -/
def hasNonLimitFilter (f : CheckpointFilter) : Bool :=
  f.source.isSome || f.stepGte.isSome || f.stepLte.isSome || f.before.isSome || f.after.isSome

/-- `list`: without such a filter the statement limits the rows, to ten if no limit is given. -/
def list (s : SqliteSaver) (options : SqliteOptions) (config : Config)
    (filter : Option CheckpointFilter) : Except CheckpointError (List CheckpointTuple) := do
  let threadId ← getThreadId config
  let key := config.place threadId
  let hasNonLimit := filter.any hasNonLimitFilter
  let rows ←
    if hasNonLimit then .ok (s.rows key)
    else
      let limit := (filter.bind CheckpointFilter.limit).getD 10
      if limit < 2 ^ 63 then .ok ((s.rows key).take limit)
      else .error (.storage "out of range integral type conversion attempted")
  let tuples ← storageOf (rows.mapM (rowToTuple options config))
  .ok (match filter with
    | some f =>
      if hasNonLimit then f.apply tuples
      else match f.limit with
        | some limit => tuples.take limit
        | none => tuples
    | none => tuples)

/-- The row of a checkpoint. -/
def rowOf (kind : SerializerKind) (checkpoint : Checkpoint) (metadata : CheckpointMetadata) :
    Except CheckpointError CheckpointRow := do
  let channelValues ← storage (Formats.values.serialize kind checkpoint.channelValues)
  let channelVersions ← storage (Formats.versions.serialize kind checkpoint.channelVersions)
  let versionsSeen ← storage (Formats.seen.serialize kind checkpoint.versionsSeen)
  let pendingTasks ← storage (Formats.tasks.serialize kind checkpoint.pendingTasks)
  let pendingSends ← storage (Formats.sends.serialize kind checkpoint.pendingSends)
  let pendingInterrupts ← storage (Formats.interrupts.serialize kind checkpoint.pendingInterrupts)
  let metadataBytes ← storage (Formats.metadata.serialize kind metadata)
  .ok { parentCheckpointId := metadata.parents.lookup "", channelValues, channelVersions, versionsSeen
        pendingTasks := some pendingTasks, pendingSends := some pendingSends
        pendingInterrupts := some pendingInterrupts, schemaVersion := checkpoint.schemaVersion
        metadata := metadataBytes, createdAt := checkpoint.createdAt }

/-- `INSERT INTO checkpoints … ON CONFLICT … DO UPDATE`, which leaves `created_at` as it is. -/
def upsert (s : SqliteSaver) (key : Place) (id : String) (row : CheckpointRow) :
    AList fun _ : Place × String => CheckpointRow :=
  s.checkpoints.insert (key, id) (match s.checkpoints.lookup (key, id) with
    | some old => { row with createdAt := old.createdAt }
    | none => row)

/-- `put`, which removes all writes of the thread and namespace. -/
def put (s : SqliteSaver) (options : SqliteOptions) (config : Config) (checkpoint : Checkpoint)
    (metadata : CheckpointMetadata) : SqliteSaver × Except CheckpointError Config :=
  match getThreadId config with
  | .error e => (s, .error e)
  | .ok threadId =>
    let key := config.place threadId
    match rowOf options.serializer checkpoint metadata with
    | .error e => (s, .error e)
    | .ok row =>
      ({ checkpoints := s.upsert key checkpoint.id row
         checkpointWrites := retain (fun k => k.1 != key) s.checkpointWrites },
        .ok { config with checkpointId := some checkpoint.id })

/-- `put_writes`: the writes are numbered from 0, and take the places of those of the same task and
number. -/
def putWrites (s : SqliteSaver) (config : Config) (writes : List PendingWrite) (taskId : String) :
    SqliteSaver × Except CheckpointError Unit :=
  match getThreadId config with
  | .error e => (s, .error e)
  | .ok threadId =>
    match config.checkpointId with
    | none => (s, .error (.storage "checkpoint_id is required"))
    | some checkpointId =>
      let key := config.place threadId
      match writes.mapM fun w => (storage (Formats.toText w.value)).map fun text => (w.channel, text) with
      | .error e => (s, .error e)
      | .ok values =>
        ({ s with checkpointWrites := values.zipIdx.foldl (fun table (value, idx) =>
            table.insert (key, checkpointId, taskId, idx) value) s.checkpointWrites }, .ok ())

end Reading

end SqliteSaver

end Saver

end Juncture
