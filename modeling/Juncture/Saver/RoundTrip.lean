import Juncture.Lib.ExceptFold
import Juncture.Saver.Sqlite

/-!
# Checkpoints read back from a `SqliteSaver`

A checkpoint that was put should be what is read.  But some of its fields have no column, the time of a
row stays what it was first, and the reader takes version 1 for the schema of every state.

* `deserializeCheckpoint_rowOf` : what is made of a row that was written.
* `readsBack_iff` : when a checkpoint is read back, whatever calls come in between.
-/

namespace Juncture

namespace Saver

/-- The namespace and thread of a configuration, if it has a thread. -/
def Config.key (config : Config) : Option Place := config.threadId.map config.place

/-- A call of a saver. -/
inductive Call where
  | put (config : Config) (checkpoint : Checkpoint) (metadata : CheckpointMetadata)
  | putWrites (config : Config) (writes : List PendingWrite) (taskId : String)
  | getTuple (config : Config)
  | list (config : Config) (filter : Option CheckpointFilter)

/-- The row that a call writes. -/
def Call.putTarget : Call → Option (Place × String)
  | .put config checkpoint _ => config.key.map fun key => (key, checkpoint.id)
  | _ => none

namespace SqliteSaver

open ExceptFold (bind_eq_ok_iff)

@[simp] theorem storage_eq_ok {α : Type} {x : Except String α} {a : α} :
    storage x = .ok a ↔ x = .ok a := by
  cases x <;> simp [storage, Except.mapError]

@[simp] theorem storageOf_eq_ok {α : Type} {x : Except CheckpointError α} {a : α} :
    storageOf x = .ok a ↔ x = .ok a := by
  cases x <;> simp [storageOf, Except.mapError]

/-- The one step there is leads from version 0 to version 1. -/
theorem migrateCheckpointSchema_eq_ok {w v : Json} {k : ℕ} {id : String}
    {migrator : Option (ℕ → ℕ → Json → Except String Json)} :
    migrateCheckpointSchema w k id migrator = .ok v ↔
      k = 1 ∧ w = v ∨ k = 0 ∧ ∃ migrate, migrator = some migrate ∧ migrate 0 1 w = .ok v := by
  unfold migrateCheckpointSchema
  obtain rfl | rfl | hk : k = 0 ∨ k = 1 ∨ 1 < k := by omega
  · cases migrator with
    | none => simp [bind, Except.bind]
    | some migrate =>
      cases hm : migrate 0 1 w <;>
        simp [bind, Except.bind, hm, Except.mapError, pure, Except.pure]
  · simp
  · have h0 : k ≠ 0 := by omega
    have h1 : k ≠ 1 := by omega
    simp [h0, h1, hk]

section

variable [Formats] {options : SqliteOptions} {s s' : SqliteSaver}

/-! ### Rows -/

/-- What is made of the row of a checkpoint, whatever time it has. -/
theorem deserializeCheckpoint_rowOf {cp c : Checkpoint} {metadata : CheckpointMetadata}
    {row : CheckpointRow} (h : rowOf options.serializer cp metadata = .ok row) (time : String) :
    deserializeCheckpoint options cp.id { row with createdAt := time } = .ok c ↔
      ∃ w v, Formats.readAs options.serializer cp.channelValues = some w ∧
        migrateCheckpointSchema w cp.schemaVersion cp.id options.schemaMigrator = .ok v ∧
        c = { cp with
          channelValues := v, createdAt := time, v := 1, newVersions := ∅
          countersSinceDeltaSnapshot := ∅ } := by
  simp only [rowOf, bind_eq_ok_iff, storage_eq_ok] at h
  obtain ⟨_, hvalues, _, hversions, _, hseen, _, htasks, _, hsends, _, hinterrupts, _, -, hrow⟩ := h
  obtain rfl := (Except.ok.inj hrow).symm
  simp only [deserializeCheckpoint, optional, bind_eq_ok_iff, storage_eq_ok,
    Formats.deserializeAuto_values_eq_ok hvalues,
    CompoundCodec.deserializeAuto_serialize hversions,
    CompoundCodec.deserializeAuto_serialize hseen, CompoundCodec.deserializeAuto_serialize htasks,
    CompoundCodec.deserializeAuto_serialize hsends,
    CompoundCodec.deserializeAuto_serialize hinterrupts, Except.ok.injEq, exists_eq_left']
  constructor
  · rintro ⟨w, hw, v, hv, rfl⟩
    exact ⟨w, v, hw, hv, rfl⟩
  · rintro ⟨w, v, hw, hv, rfl⟩
    exact ⟨w, hw, v, hv, rfl⟩

/-- The metadata of a row that was written can be read. -/
theorem metadata_rowOf {cp : Checkpoint} {metadata : CheckpointMetadata} {row : CheckpointRow}
    (h : rowOf options.serializer cp metadata = .ok row) :
    Formats.metadata.deserializeAuto row.metadata = .ok metadata := by
  simp only [rowOf, bind_eq_ok_iff, storage_eq_ok] at h
  obtain ⟨_, -, _, -, _, -, _, -, _, -, _, -, _, hmetadata, hrow⟩ := h
  obtain rfl := (Except.ok.inj hrow).symm
  exact CompoundCodec.deserializeAuto_serialize hmetadata

/-- The time of a row that was written. -/
theorem createdAt_rowOf {cp : Checkpoint} {metadata : CheckpointMetadata} {row : CheckpointRow}
    (h : rowOf options.serializer cp metadata = .ok row) : row.createdAt = cp.createdAt := by
  simp only [rowOf, bind_eq_ok_iff] at h
  obtain ⟨_, -, _, -, _, -, _, -, _, -, _, -, _, -, hrow⟩ := h
  obtain rfl := (Except.ok.inj hrow).symm
  rfl

/-- What a successful `put` does. -/
theorem put_eq_ok {config config' : Config} {cp : Checkpoint} {metadata : CheckpointMetadata}
    (h : s.put options config cp metadata = (s', .ok config')) :
    ∃ key row, config.key = some key ∧ rowOf options.serializer cp metadata = .ok row ∧
      s' = { checkpoints := s.upsert key cp.id row
             checkpointWrites := retain (fun k => k.1 != key) s.checkpointWrites } ∧
      config' = { config with checkpointId := some cp.id } := by
  unfold put at h
  cases hthread : config.threadId with
  | none =>
    simp [getThreadId, Config.getThreadId, hthread, storageOf, Except.mapError] at h
  | some threadId =>
    simp only [getThreadId, Config.getThreadId, hthread, storageOf, Except.mapError] at h
    cases hrow : rowOf options.serializer cp metadata with
    | error e => simp [hrow] at h
    | ok row =>
      simp only [hrow, Prod.mk.injEq, Except.ok.injEq] at h
      exact ⟨config.place threadId, row, by rw [Config.key, hthread]; rfl, rfl, h.1.symm, h.2.symm⟩

/-! ### Later calls -/

/-- What a call leaves behind. -/
def step (options : SqliteOptions) (s : SqliteSaver) : Call → SqliteSaver
  | .put config checkpoint metadata => (s.put options config checkpoint metadata).1
  | .putWrites config writes taskId => (s.putWrites config writes taskId).1
  | .getTuple _ | .list _ _ => s

/-- What several calls leave behind. -/
def run (options : SqliteOptions) (s : SqliteSaver) (calls : List Call) : SqliteSaver :=
  calls.foldl (step options) s

/-- The row of the checkpoint is there, and the writes that were added to it can be read. -/
structure Holds (s : SqliteSaver) (key : Place) (id : String) (row : CheckpointRow) : Prop where
  /-- The row. -/
  row : s.checkpoints.lookup (key, id) = some row
  /-- The writes. -/
  writes : ∀ k v, k.1 = key → v ∈ s.checkpointWrites.lookup k → ∃ w, Formats.fromText v.2 = .ok w

/-- Texts that are inserted can be read, if they could be written. -/
theorem fromText_of_insertAll {values : List (String × String)}
    (hvalues : ∀ v ∈ values, ∃ w, Formats.fromText v.2 = .ok w) {key : Place} {id taskId : String}
    {table : AList fun _ : Place × String × String × ℕ => String × String}
    (htable : ∀ k v, k.1 = key → v ∈ table.lookup k → ∃ w, Formats.fromText v.2 = .ok w)
    (key' : Place) (n : ℕ) :
    ∀ k v, k.1 = key → v ∈ ((values.zipIdx n).foldl (fun table (value, idx) =>
      table.insert (key', id, taskId, idx) value) table).lookup k →
      ∃ w, Formats.fromText v.2 = .ok w := by
  induction values generalizing table n with
  | nil => exact htable
  | cons value values ih =>
    rw [List.zipIdx_cons, List.foldl_cons]
    refine ih (fun v hv => hvalues v (List.mem_cons_of_mem _ hv)) ?_ (n + 1)
    intro k v hk hv
    by_cases hsame : k = (key', id, taskId, n)
    · subst hsame
      rw [AList.lookup_insert] at hv
      obtain rfl : value = v := Option.some.inj hv
      exact hvalues value List.mem_cons_self
    · rw [AList.lookup_insert_ne hsame] at hv
      exact htable k v hk hv

/-- What is written to the table of writes can be read. -/
theorem fromText_of_mapM {writes : List PendingWrite} {values : List (String × String)}
    (h : writes.mapM (fun w => (storage (Formats.toText w.value)).map fun text => (w.channel, text)) =
      .ok values) : ∀ v ∈ values, ∃ w, Formats.fromText v.2 = .ok w := by
  intro v hv
  obtain ⟨w, -, hw⟩ := ExceptFold.mem_of_mapM_eq_ok h hv
  cases htext : Formats.toText w.value with
  | error e => simp [htext, storage, Except.mapError, Except.map] at hw
  | ok text =>
    simp only [htext, storage, Except.mapError, Except.map, Except.ok.injEq] at hw
    subst hw
    exact ⟨w.value, Formats.text_faithful _ _ htext⟩

/-- A `put` of another checkpoint keeps them. -/
theorem Holds.put {key : Place} {id : String} {row : CheckpointRow} (h : Holds s key id row)
    {config : Config} {cp : Checkpoint} {metadata : CheckpointMetadata}
    (hother : (Call.put config cp metadata).putTarget ≠ some (key, id)) :
    Holds (s.put options config cp metadata).1 key id row := by
  generalize hput : s.put options config cp metadata = r
  obtain ⟨s', r⟩ := r
  cases r with
  | error e =>
    have hsame : s' = s := by
      unfold SqliteSaver.put at hput
      split at hput
      · exact (Prod.mk.inj hput).1.symm
      · split at hput
        · exact (Prod.mk.inj hput).1.symm
        · cases (Prod.mk.inj hput).2
    exact hsame ▸ h
  | ok config' =>
    obtain ⟨key', row', hkey, -, rfl, -⟩ := put_eq_ok hput
    have hne : (key, id) ≠ (key', cp.id) := fun heq =>
      hother (by rw [Call.putTarget, hkey, Option.map_some, heq])
    refine ⟨by rw [upsert, AList.lookup_insert_ne hne]; exact h.row, fun k v hk hv => ?_⟩
    simp only [lookup_retain] at hv
    split at hv
    · exact h.writes k v hk hv
    · cases hv

/-- So do writes that are added to whatever checkpoint. -/
theorem Holds.putWrites {key : Place} {id : String} {row : CheckpointRow} (h : Holds s key id row)
    (config : Config) (writes : List PendingWrite) (taskId : String) :
    Holds (s.putWrites config writes taskId).1 key id row := by
  unfold SqliteSaver.putWrites
  split
  · exact h
  · split
    · exact h
    · split
      · exact h
      · next values hvalues =>
        exact ⟨h.row, fromText_of_insertAll (fromText_of_mapM hvalues) h.writes _ 0⟩

/-- Calls that put nothing there keep them. -/
theorem Holds.run {key : Place} {id : String} {row : CheckpointRow} (h : Holds s key id row)
    {calls : List Call} (hcalls : ∀ call ∈ calls, call.putTarget ≠ some (key, id)) :
    Holds (run options s calls) key id row := by
  induction calls generalizing s with
  | nil => exact h
  | cons call calls ih =>
    refine ih ?_ fun call hmem => hcalls call (List.mem_cons_of_mem _ hmem)
    have hcall := hcalls call List.mem_cons_self
    cases call with
    | put config cp metadata => exact h.put hcall
    | putWrites config writes taskId => exact h.putWrites config writes taskId
    | getTuple config => exact h
    | list config filter => exact h

/-! ### What is read -/

/-- `get_tuple` finds the checkpoint. -/
def ReadsBack (s : SqliteSaver) (options : SqliteOptions) (config : Config) (cp : Checkpoint) : Prop :=
  ∃ found, s.getTuple options config = .ok (some found) ∧ found.checkpoint = cp

/-- When a checkpoint is kept as it is. -/
structure Keeps (s : SqliteSaver) (options : SqliteOptions) (config : Config) (cp : Checkpoint) :
    Prop where
  /-- There is no column for new versions. -/
  newVersions : cp.newVersions = ∅
  /-- Nor for the counters. -/
  counters : cp.countersSinceDeltaSnapshot = ∅
  /-- Nor for the version of the format. -/
  v : cp.v = 1
  /-- The state, as it is read, is of version 1, or is what the migrator makes of it. -/
  values : ∃ read, Formats.readAs options.serializer cp.channelValues = some read ∧
    (cp.schemaVersion = 1 ∧ read = cp.channelValues ∨
      cp.schemaVersion = 0 ∧ ∃ migrate, options.schemaMigrator = some migrate ∧
        migrate 0 1 read = .ok cp.channelValues)
  /-- A row of that identifier has its time. -/
  createdAt : ∀ key ∈ config.key, ∀ row ∈ s.checkpoints.lookup (key, cp.id),
    row.createdAt = cp.createdAt

/-- The writes that were added to a checkpoint are loaded. -/
theorem Holds.loadPendingWrites {key : Place} {id : String} {row : CheckpointRow}
    (h : Holds s key id row) : ∃ writes, s.loadPendingWrites key id = .ok writes := by
  refine ExceptFold.mapM_eq_ok_of_forall fun r hr => ?_
  have hentry : ∃ v, Formats.fromText r.value = .ok v := by
    rw [writeRows, List.mem_insertionSort, List.mem_map] at hr
    obtain ⟨e, he, rfl⟩ := hr
    obtain ⟨hmem, hkey⟩ := List.mem_filter.mp he
    obtain ⟨hkey, -⟩ := Bool.and_eq_true_iff.mp hkey
    exact h.writes e.1 e.2 (beq_iff_eq.mp hkey) (AList.mem_lookup_iff.mpr hmem)
  obtain ⟨v, hv⟩ := hentry
  exact ⟨_, by rw [storage_eq_ok.mpr hv]; rfl⟩

omit [Formats] in
theorem getThreadId_of_key {config : Config} {key : Place} (h : config.key = some key) :
    ∃ threadId, getThreadId config = .ok threadId ∧ config.place threadId = key := by
  obtain ⟨threadId, hthread, hplace⟩ := Option.map_eq_some_iff.mp h
  exact ⟨threadId, by rw [getThreadId, storageOf_eq_ok, Config.getThreadId, hthread], hplace⟩

/-- `get_tuple` of a thread: the row it asks for, if there is one. -/
theorem getTuple_of_key {config : Config} {key : Place} (h : config.key = some key) :
    s.getTuple options config = match s.select config key with
      | some row => (s.loadTuple options config key row).map some
      | none => .ok none := by
  obtain ⟨threadId, hthread, rfl⟩ := getThreadId_of_key h
  rw [getTuple, hthread]
  rfl

/-- What is read of a checkpoint whose row is there. -/
theorem Holds.readsBack_iff {key : Place} {row : CheckpointRow} {cp : Checkpoint}
    {metadata : CheckpointMetadata} {time : String} {config : Config} (hkey : config.key = some key)
    (hid : config.checkpointId = some cp.id) (hrow : rowOf options.serializer cp metadata = .ok row)
    (h : Holds s key cp.id { row with createdAt := time }) :
    ReadsBack s options config cp ↔
      deserializeCheckpoint options cp.id { row with createdAt := time } = .ok cp := by
  have hselect : s.select config key = some (cp.id, { row with createdAt := time }) := by
    simp only [select, hid, h.row, Option.map_some]
  have hload : ∀ found, s.loadTuple options config key (cp.id, { row with createdAt := time }) =
      .ok found ↔ ∃ c, deserializeCheckpoint options cp.id { row with createdAt := time } = .ok c ∧
        ∃ writes, s.loadPendingWrites key c.id = .ok writes ∧
          { config, checkpoint := c, metadata, pendingWrites := writes } = found := by
    intro found
    simp only [loadTuple, rowToTuple, bind_eq_ok_iff, storageOf_eq_ok, storage_eq_ok,
      metadata_rowOf hrow, Except.ok.injEq, exists_eq_left']
    constructor
    · rintro ⟨_, ⟨c, hc, rfl⟩, writes, hwrites, hfound⟩
      exact ⟨c, hc, writes, hwrites, hfound⟩
    · rintro ⟨c, hc, writes, hwrites, hfound⟩
      exact ⟨_, ⟨c, hc, rfl⟩, writes, hwrites, hfound⟩
  simp only [ReadsBack, getTuple_of_key hkey, hselect, ExceptFold.map_eq_ok_iff, Option.some.injEq,
    exists_eq_right]
  constructor
  · rintro ⟨found, hfound, hcp⟩
    obtain ⟨c, hc, _, -, rfl⟩ := (hload found).mp hfound
    rw [hc]
    exact congrArg Except.ok hcp
  · intro hc
    obtain ⟨writes, hwrites⟩ := h.loadPendingWrites
    exact ⟨_, (hload _).mpr ⟨cp, hc, writes, hwrites, rfl⟩, rfl⟩

/-- A checkpoint that was put is read back, whatever calls come in between, exactly if it is one that is
kept. -/
theorem put_readsBack_iff {config config' : Config} {cp : Checkpoint} {metadata : CheckpointMetadata}
    {later : List Call} (hput : s.put options config cp metadata = (s', .ok config'))
    (hlater : ∀ call ∈ later, ∀ key ∈ config.key, call.putTarget ≠ some (key, cp.id)) :
    ReadsBack (run options s' later) options config' cp ↔ Keeps s options config cp := by
  obtain ⟨key, row, hkey, hrow, rfl, rfl⟩ := put_eq_ok hput
  -- the row that is there now has the time of the one that was there, if there was one
  obtain ⟨time, htime, hold⟩ : ∃ time, (s.upsert key cp.id row).lookup (key, cp.id) =
      some { row with createdAt := time } ∧ (time = cp.createdAt ↔
        ∀ old ∈ s.checkpoints.lookup (key, cp.id), old.createdAt = cp.createdAt) := by
    unfold upsert
    cases s.checkpoints.lookup (key, cp.id) with
    | none => exact ⟨row.createdAt, AList.lookup_insert _, by simp [createdAt_rowOf hrow]⟩
    | some old => exact ⟨old.createdAt, AList.lookup_insert _, by simp⟩
  have hholds : Holds { checkpoints := s.upsert key cp.id row
                        checkpointWrites := retain (fun k => k.1 != key) s.checkpointWrites }
      key cp.id { row with createdAt := time } := by
    refine ⟨htime, fun k v hk hv => ?_⟩
    simp only [lookup_retain, hk, bne_self_eq_false, Bool.false_eq_true, ↓reduceIte] at hv
    cases hv
  have hkey' : Config.key { config with checkpointId := some cp.id } = some key := hkey
  rw [(hholds.run fun call hcall => hlater call hcall key hkey).readsBack_iff hkey' rfl hrow,
    deserializeCheckpoint_rowOf hrow]
  constructor
  · rintro ⟨read, v, hread, hmigrate, hcp⟩
    have hvalues : cp.channelValues = v := by rw [hcp]
    have hcreated : cp.createdAt = time := by rw [hcp]
    refine ⟨by rw [hcp], by rw [hcp], by rw [hcp], ⟨read, hread, ?_⟩, ?_⟩
    · rw [hvalues]
      exact migrateCheckpointSchema_eq_ok.mp hmigrate
    · intro key' hkey'
      obtain rfl : key = key' := Option.some.inj (hkey.symm.trans hkey')
      exact hold.mp hcreated.symm
  · rintro ⟨hnew, hcounters, hv, ⟨read, hread, hvalues⟩, hcreated⟩
    refine ⟨read, cp.channelValues, hread, migrateCheckpointSchema_eq_ok.mpr hvalues, ?_⟩
    rw [hold.mpr (hcreated key hkey)]
    obtain ⟨⟩ := cp
    simp only at hnew hcounters hv
    subst hnew hcounters hv
    rfl

end

end SqliteSaver

/-! ### A checkpoint with nothing in it -/

/-- A codec of one value, in MessagePack. -/
def only {T : Type} [DecidableEq T] (v : T) (b : UInt8) (rest : List UInt8) (hb : 0x80 ≤ b) :
    CompoundCodec T where
  toMsgpack w := if w = v then .ok (b :: rest) else .error "not supported"
  fromMsgpack data := if data = b :: rest then .ok v else .error "not supported"
  toJson _ := .error "not supported"
  fromJson _ := .error "not supported"
  msgpack_faithful w data h := by
    split at h
    · next hw => obtain rfl := Except.ok.inj h; rw [if_pos rfl, hw]
    · cases h
  json_faithful w data h := by cases h
  json_ascii w data h := by cases h
  marked w data h := by
    split at h
    · obtain rfl := Except.ok.inj h; exact ⟨b, rfl, hb⟩
    · cases h

theorem only_toMsgpack {T : Type} [DecidableEq T] (v : T) (b : UInt8) (rest : List UInt8)
    (hb : 0x80 ≤ b) : (only v b rest hb).toMsgpack v = .ok (b :: rest) := if_pos rfl

/-- An empty state; a JSON text of one byte is a digit. -/
def emptyState : Codec Json where
  toMsgpack := (only (Json.obj []) 0x80 [] (by decide)).toMsgpack
  fromMsgpack := (only (Json.obj []) 0x80 [] (by decide)).fromMsgpack
  toJson _ := .error "not supported"
  fromJson
    | [b] => if 0x30 ≤ b ∧ b ≤ 0x39 then .ok (.num (b.toNat - 0x30)) else .error "expected value"
    | _ => .error "not supported"
  msgpack_faithful := (only (Json.obj []) 0x80 [] (by decide)).msgpack_faithful
  json_faithful w data h := by cases h
  json_ascii w data h := by cases h

/-- What the empty checkpoint below is written as. -/
@[reducible] def emptyFormats : Formats where
  values := emptyState
  versions := only ∅ 0x80 [] (by decide)
  seen := only ∅ 0x80 [] (by decide)
  tasks := only [] 0x90 [] (by decide)
  sends := only [] 0x90 [] (by decide)
  interrupts := only [] 0x90 [] (by decide)
  metadata := only { source := .input, step := 0 } 0x96
    [0xa5, 0x49, 0x6e, 0x70, 0x75, 0x74, 0x00, 0x80, 0x80, 0xa0, 0xc0] (by decide)
  values_marked v data h _ := (only (Json.obj []) 0x80 [] (by decide)).marked v data h
  values_fixint v data b h hfix := by
    have hv : v = .obj [] := by
      by_contra hne
      simp [emptyState, only, hne] at h
    subst hv
    cases hfix
  values_digit b := by
    simp only [emptyState]
    split <;> rfl
  toText _ := .error "not supported"
  fromText _ := .error "not supported"
  text_faithful v text h := by cases h

/-- A checkpoint with nothing in it, of some version of its state's schema. -/
def emptyCheckpoint (schemaVersion : ℕ) : Checkpoint :=
  { id := "1", schemaVersion, createdAt := "1970-01-01T00:00:00+00:00" }

/-- The row it is written as. -/
def emptyRow (schemaVersion : ℕ) : CheckpointRow where
  parentCheckpointId := none
  channelValues := [0x80]
  channelVersions := [0x80]
  versionsSeen := [0x80]
  pendingTasks := some [0x90]
  pendingSends := some [0x90]
  pendingInterrupts := some [0x90]
  schemaVersion
  metadata := [0x96, 0xa5, 0x49, 0x6e, 0x70, 0x75, 0x74, 0x00, 0x80, 0x80, 0xa0, 0xc0]
  createdAt := "1970-01-01T00:00:00+00:00"

/-- The tables that hold it. -/
def emptySaver (schemaVersion : ℕ) : SqliteSaver :=
  { checkpoints := (∅ : AList fun _ : Place × String => CheckpointRow).insert (("t", ""), "1")
      (emptyRow schemaVersion) }

theorem rowOf_emptyCheckpoint (schemaVersion : ℕ) :
    @SqliteSaver.rowOf emptyFormats .messagePack (emptyCheckpoint schemaVersion)
      { source := .input, step := 0 } = .ok (emptyRow schemaVersion) := by
  simp only [SqliteSaver.rowOf, ExceptFold.bind_eq_ok_iff, SqliteSaver.storage_eq_ok]
  exact ⟨_, only_toMsgpack (Json.obj []) 0x80 [] (by decide),
    _, only_toMsgpack (∅ : Dict ℕ) 0x80 [] (by decide),
    _, only_toMsgpack (∅ : Dict (Dict ℕ)) 0x80 [] (by decide),
    _, only_toMsgpack ([] : List CheckpointPendingTask) 0x90 [] (by decide),
    _, only_toMsgpack ([] : List SerializedSend) 0x90 [] (by decide),
    _, only_toMsgpack ([] : List InterruptSignal) 0x90 [] (by decide),
    _, only_toMsgpack ({ source := .input, step := 0 } : CheckpointMetadata) 0x96
      [0xa5, 0x49, 0x6e, 0x70, 0x75, 0x74, 0x00, 0x80, 0x80, 0xa0, 0xc0] (by decide), rfl⟩

theorem put_emptyCheckpoint (schemaVersion : ℕ) :
    @SqliteSaver.put emptyFormats {} {} { threadId := some "t" } (emptyCheckpoint schemaVersion)
        { source := .input, step := 0 } =
      (emptySaver schemaVersion, .ok { threadId := some "t", checkpointId := some "1" }) := by
  have hthread : SqliteSaver.getThreadId { threadId := some "t" } = .ok "t" := rfl
  simp only [SqliteSaver.put, hthread, rowOf_emptyCheckpoint]
  rfl

/-- A checkpoint of version 1 is read back, after other checkpoints have been listed. -/
theorem put_readsBack_versionOne :
    @SqliteSaver.ReadsBack emptyFormats (@SqliteSaver.run emptyFormats {} (emptySaver 1)
        [.list { threadId := some "t" } none]) {} { threadId := some "t", checkpointId := some "1" }
        (emptyCheckpoint 1) ↔
      @SqliteSaver.Keeps {} {} { threadId := some "t" } (emptyCheckpoint 1) :=
  @SqliteSaver.put_readsBack_iff emptyFormats _ _ _ _ _ _ _ _ (put_emptyCheckpoint 1) (by
    intro call hcall key _ htarget
    obtain rfl := List.mem_singleton.mp hcall
    cases htarget)

/-- A checkpoint of version 2 is accepted and then refused. -/
theorem versionTwo_not_readsBack :
    @SqliteSaver.put emptyFormats {} {} { threadId := some "t" } (emptyCheckpoint 2)
        { source := .input, step := 0 } =
      (emptySaver 2, .ok { threadId := some "t", checkpointId := some "1" }) ∧
    ¬ @SqliteSaver.ReadsBack emptyFormats (emptySaver 2) {}
      { threadId := some "t", checkpointId := some "1" } (emptyCheckpoint 2) := by
  refine ⟨put_emptyCheckpoint 2, ?_⟩
  have hholds : @SqliteSaver.Holds emptyFormats (emptySaver 2) ("t", "") "1" (emptyRow 2) :=
    @SqliteSaver.Holds.mk emptyFormats _ _ _ _ (AList.lookup_insert _) fun k v _ hv => by cases hv
  have hkey : Config.key { threadId := some "t", checkpointId := some "1" } = some ("t", "") := rfl
  intro hreads
  have hrow := (@SqliteSaver.Holds.readsBack_iff emptyFormats _ _ _ _ (emptyCheckpoint 2) _ _ _ hkey rfl
    (rowOf_emptyCheckpoint 2) hholds).mp hreads
  obtain ⟨_, _, -, hmigrate, -⟩ := (@SqliteSaver.deserializeCheckpoint_rowOf emptyFormats _
    (emptyCheckpoint 2) _ _ _ (rowOf_emptyCheckpoint 2) _).mp hrow
  obtain ⟨hone, -⟩ | ⟨hzero, -⟩ :=
    (@SqliteSaver.migrateCheckpointSchema_eq_ok _ _ _ _ _).mp hmigrate
  · exact absurd hone (by decide)
  · exact absurd hzero (by decide)

end Saver

end Juncture
