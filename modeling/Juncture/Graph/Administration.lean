import Juncture.Core.Transcript
import Juncture.Graph.Compiled
import Juncture.Saver.Shadows
import Mathlib.Tactic.Ring

/-!
# States that are changed by hand

`update_state` and `bulk_update_state` load the checkpoint of a thread, apply updates to its state, and
put it again under its identifier and with its time.  What becomes of it is up to the saver.

* `getState`, `getStateHistory`, `Edit.run` : the calls of `CompiledGraph`, over any saver.
* `StateSnapshot.edit` : what an edit is for, apart from savers.
* `Sqlite.getState_run` : with a `SqliteSaver`, edits do what they are for.
* `Memory.outputs_purge` : with a `MemorySaver`, nothing that is read later depends on them.
-/

namespace Juncture

namespace Saver

/-- `CheckpointSaver`, with the calls of the administration, over a store `σ`. -/
structure CheckpointSaver (σ : Type) where
  /-- `get_tuple`. -/
  getTuple : σ → Config → σ × Except CheckpointError (Option CheckpointTuple)
  /-- `list`. -/
  list : σ → Config → Option CheckpointFilter → σ × Except CheckpointError (List CheckpointTuple)
  /-- `put`. -/
  put : σ → Config → Checkpoint → CheckpointMetadata → σ × Except CheckpointError Config

/-- A `MemorySaver` without TTL, where the clock shows `now`. -/
def MemorySaver.saver [Chrono] (now : ℕ → ℤ) : CheckpointSaver MemorySaver where
  getTuple s config := s.getTuple .disabled now config
  list s config filter := s.list .disabled now config filter
  put s := s.put

/-- A `SqliteSaver`. -/
def SqliteSaver.saver [Formats] (options : SqliteOptions) : CheckpointSaver SqliteSaver where
  getTuple s config := (s, s.getTuple options config)
  list s config filter := (s, s.list options config filter)
  put s := s.put options

namespace Administration

section Calls

variable {S σ : Type} [State S]

/-- `deserialize_with_migration`. -/
def deserializeWithMigration (checkpoint : Checkpoint) : Except JunctureError S :=
  let channelValues :=
    if checkpoint.schemaVersion ≠ State.schemaVersion S then
      State.migrate S checkpoint.schemaVersion checkpoint.channelValues
    else checkpoint.channelValues
  (State.fromValue channelValues).mapError fun e =>
    .checkpoint s!"failed to deserialize state: {e}"

/-- `StateSnapshot`; its tasks are always empty. -/
structure StateSnapshot (S : Type) where
  /-- The state. -/
  values : S
  /-- Nodes of the pending tasks. -/
  next : List String
  /-- Configuration of the checkpoint. -/
  config : Config
  /-- Its metadata. -/
  metadata : CheckpointMetadata
  /-- Its time. -/
  createdAt : String
  /-- Configuration of the parent. -/
  parentConfig : Option Config

/-- `StateUpdate`, without its label, which nothing reads. -/
structure StateUpdate (S : Type) [State S] where
  /-- The update. -/
  update : Update S
  /-- The node that is credited with it. -/
  asNode : Option String := none

/-- The snapshot of a checkpoint. -/
def snapshotOf (tuple : CheckpointTuple) : Except JunctureError (StateSnapshot S) :=
  (deserializeWithMigration tuple.checkpoint).map fun values =>
    { values, next := tuple.checkpoint.pendingTasks.map (·.node), config := tuple.config
      metadata := tuple.metadata, createdAt := tuple.checkpoint.createdAt
      parentConfig := tuple.parentConfig }

/-- `e.to_string()` of a saver's error, in a checkpoint error. -/
def reported {α : Type} (x : Except CheckpointError α) : Except JunctureError α :=
  x.mapError fun e => .checkpoint e.display

variable (saver : Option (CheckpointSaver σ)) (store : σ) (config : Config)

/-- `get_state`. -/
def getState : σ × Except JunctureError (Option (StateSnapshot S)) :=
  match saver with
  | none => (store, .error (.checkpoint "no checkpointer configured for get_state"))
  | some saver =>
    match saver.getTuple store config with
    | (store, .error e) => (store, .error (.checkpoint e.display))
    | (store, .ok none) => (store, .ok none)
    | (store, .ok (some tuple)) => (store, (snapshotOf tuple).map some)

/-- `get_state_history`: one checkpoint that cannot be read spoils the list. -/
def getStateHistory (filter : Option CheckpointFilter) :
    σ × Except JunctureError (List (StateSnapshot S)) :=
  match saver with
  | none => (store, .error (.checkpoint "no checkpointer configured for get_state_history"))
  | some saver =>
    match saver.list store config filter with
    | (store, .error e) => (store, .error (.checkpoint e.display))
    | (store, .ok tuples) => (store, tuples.mapM snapshotOf)

/-- The state of a checkpoint, if it was made at an interrupt. -/
def resumable (call : String) (tuple : CheckpointTuple) : Except JunctureError S :=
  match tuple.metadata.source with
  | .interrupt _ => deserializeWithMigration tuple.checkpoint
  | source => .error (.checkpoint (s!"{call}() requires checkpoint from Interrupt source, got " ++
      CompiledGraph.debugSource source))

/-- What `resume` and `resume_stream` start from. -/
def loadInterrupted (call : String) : σ × Except JunctureError S :=
  match saver with
  | none => (store, .error (.checkpoint s!"no checkpointer configured for {call}"))
  | some saver =>
    match saver.getTuple store config with
    | (store, .error e) => (store, .error (.checkpoint s!"failed to load checkpoint: {e.display}"))
    | (store, .ok none) => (store, .error (.checkpoint ("checkpoint not found: thread_id=" ++
        CompiledGraph.debugOption config.threadId ++ ", checkpoint_id=" ++
        CompiledGraph.debugOption config.checkpointId)))
    | (store, .ok (some tuple)) => (store, resumable call tuple)

/-! ### Edits -/

/-- The state after some updates. -/
def applyAll (updates : List (StateUpdate S)) (state : S) : S :=
  updates.foldl (fun state u => (State.apply state u.update).1) state

/-- The nodes that are credited are entered without a value. -/
def creditAll (updates : List (StateUpdate S)) (writes : Dict Json) : Dict Json :=
  updates.foldl (fun writes u => u.asNode.elim writes fun node => writes.insert node .null) writes

/-- The metadata of a checkpoint that was edited. -/
def editedMetadata (updates : List (StateUpdate S)) (metadata : CheckpointMetadata) :
    CheckpointMetadata :=
  { metadata with
    source := .update, step := metadata.step + 1, writes := creditAll updates metadata.writes }

/-- The checkpoint that an edit puts; `what` is the word for the state in the text of the error. -/
def edited (what : String) (updates : List (StateUpdate S)) (tuple : CheckpointTuple) :
    Except JunctureError (Checkpoint × CheckpointMetadata) := do
  let state ← deserializeWithMigration tuple.checkpoint
  let updatedValues ← (State.toValue (applyAll updates state)).mapError fun e =>
    JunctureError.checkpoint s!"failed to serialize {what} state: {e}"
  .ok ({ tuple.checkpoint with channelValues := updatedValues }, editedMetadata updates tuple.metadata)

/-- What `update_state` and `bulk_update_state` have in common. -/
def saveUpdates (call what : String) (updates : List (StateUpdate S)) :
    σ × Except JunctureError Config :=
  match saver with
  | none => (store, .error (.checkpoint s!"no checkpointer configured for {call}"))
  | some saver =>
    match saver.getTuple store config with
    | (store, .error e) => (store, .error (.checkpoint e.display))
    | (store, .ok none) => (store, .error (.checkpoint s!"no checkpoint found for {call}"))
    | (store, .ok (some tuple)) =>
      match edited what updates tuple with
      | .error e => (store, .error e)
      | .ok (checkpoint, metadata) => (saver.put store config checkpoint metadata).map id reported

/-- `update_state`. -/
def updateState (update : StateUpdate S) : σ × Except JunctureError Config :=
  saveUpdates saver store config "update_state" "updated" [update]

/-- `bulk_update_state`. -/
def bulkUpdateState (updates : List (StateUpdate S)) : σ × Except JunctureError Config :=
  saveUpdates saver store config "bulk_update_state" "bulk-updated" updates

omit saver in
theorem getState_of_found (saver : CheckpointSaver σ) {t : CheckpointTuple}
    (h : (saver.getTuple store config).2 = .ok (some t)) :
    (getState (S := S) (some saver) store config).2 = (snapshotOf t).map some := by
  unfold getState
  dsimp only
  generalize saver.getTuple store config = r at h
  obtain ⟨store', r⟩ := r
  obtain rfl : r = .ok (some t) := h
  rfl

omit saver in
theorem loadInterrupted_of_found (saver : CheckpointSaver σ) {t : CheckpointTuple}
    (h : (saver.getTuple store config).2 = .ok (some t)) (call : String) :
    (loadInterrupted (S := S) (some saver) store config call).2 = resumable call t := by
  unfold loadInterrupted
  dsimp only
  generalize saver.getTuple store config = r at h
  obtain ⟨store', r⟩ := r
  obtain rfl : r = .ok (some t) := h
  rfl

end Calls

section Edits

variable {S σ : Type} [State S] (saver : Option (CheckpointSaver σ)) (store : σ)

/-- A call that changes a state by hand. -/
inductive Edit (S : Type) [State S] where
  | updateState (config : Config) (update : StateUpdate S)
  | bulkUpdateState (config : Config) (updates : List (StateUpdate S))

/-- The configuration of an edit. -/
def Edit.config : Edit S → Config
  | .updateState config _ => config
  | .bulkUpdateState config _ => config

/-- Its updates. -/
def Edit.updates : Edit S → List (StateUpdate S)
  | .updateState _ update => [update]
  | .bulkUpdateState _ updates => updates

/-- What an edit can come to: it is refused after the checkpoint was asked for, or a checkpoint is put. -/
theorem saveUpdates_cases (saver : CheckpointSaver σ) (config : Config) (call what : String)
    (updates : List (StateUpdate S)) :
    (∃ e, saveUpdates (some saver) store config call what updates =
        ((saver.getTuple store config).1, .error e)) ∨
      ∃ t cp metadata, (saver.getTuple store config).2 = .ok (some t) ∧
        edited what updates t = .ok (cp, metadata) ∧
        saveUpdates (some saver) store config call what updates =
          (saver.put (saver.getTuple store config).1 config cp metadata).map id reported := by
  unfold saveUpdates
  dsimp only
  generalize saver.getTuple store config = r
  obtain ⟨store', _ | _ | t⟩ := r
  · exact .inl ⟨_, rfl⟩
  · exact .inl ⟨_, rfl⟩
  · dsimp only
    cases hedited : edited what updates t with
    | error e => exact .inl ⟨e, rfl⟩
    | ok put => exact .inr ⟨t, put.1, put.2, rfl, hedited, rfl⟩

/-- The checkpoint that an edit puts. -/
theorem edited_eq_ok {what : String} {updates : List (StateUpdate S)} {t : CheckpointTuple}
    {cp : Checkpoint} {metadata : CheckpointMetadata} (h : edited what updates t = .ok (cp, metadata)) :
    ∃ state v, deserializeWithMigration t.checkpoint = .ok state ∧
      State.toValue (applyAll updates state) = .ok v ∧
      cp = { t.checkpoint with channelValues := v } ∧ metadata = editedMetadata updates t.metadata := by
  obtain ⟨state, hstate, h⟩ := ExceptFold.bind_eq_ok_iff.mp h
  obtain ⟨v, hv, h⟩ := ExceptFold.bind_eq_ok_iff.mp h
  obtain ⟨rfl, rfl⟩ := Prod.mk.inj (Except.ok.inj h)
  cases hvalue : State.toValue (applyAll updates state) with
  | error e => rw [hvalue] at hv; cases hv
  | ok v' =>
    rw [hvalue] at hv
    obtain rfl : v' = v := Except.ok.inj hv
    exact ⟨state, v', hstate, hvalue, rfl, rfl⟩

/-- The edit takes place. -/
def Edit.run : Edit S → σ × Except JunctureError Config
  | .updateState config update => Administration.updateState saver store config update
  | .bulkUpdateState config updates => Administration.bulkUpdateState saver store config updates

/-- The saver after an edit, and whether it was accepted. -/
def step (e : Edit S) : σ × Bool := (e.run saver store).map id (·.isOk)

/-- The name of the call, in the texts of errors. -/
def Edit.call : Edit S → String
  | .updateState _ _ => "update_state"
  | .bulkUpdateState _ _ => "bulk_update_state"

/-- The word for the state. -/
def Edit.what : Edit S → String
  | .updateState _ _ => "updated"
  | .bulkUpdateState _ _ => "bulk-updated"

theorem Edit.run_eq (e : Edit S) :
    e.run saver store = saveUpdates saver store e.config e.call e.what e.updates := by
  cases e with
  | updateState config update => rfl
  | bulkUpdateState config updates => rfl

/-! ### What edits are for -/

/-- The snapshot with the updates applied to its state. -/
def StateSnapshot.edit (snapshot : StateSnapshot S) (updates : List (StateUpdate S)) : StateSnapshot S :=
  { snapshot with
    values := applyAll updates snapshot.values
    metadata := editedMetadata updates snapshot.metadata }

/-- What an edit does to the snapshot of a configuration. -/
def StateSnapshot.take (config : Config) (snapshot : StateSnapshot S) (e : Edit S) : StateSnapshot S :=
  if e.config = config then snapshot.edit e.updates else snapshot

/-- Updates that are made one by one lead to the same state and the same credits, in more steps. -/
theorem StateSnapshot.foldl_edit (updates : List (StateUpdate S)) (snapshot : StateSnapshot S)
    (hne : updates ≠ []) :
    updates.foldl (fun snapshot u => snapshot.edit [u]) snapshot =
      { snapshot.edit updates with
        metadata := { editedMetadata updates snapshot.metadata with
          step := snapshot.metadata.step + updates.length } } := by
  induction updates generalizing snapshot with
  | nil => cases hne rfl
  | cons u updates ih =>
    cases updates with
    | nil => rfl
    | cons u' updates =>
      rw [List.foldl_cons, ih _ (List.cons_ne_nil u' updates)]
      simp only [StateSnapshot.edit, editedMetadata, applyAll, creditAll, List.foldl_cons, List.foldl_nil,
        List.length_cons, StateSnapshot.mk.injEq, CheckpointMetadata.mk.injEq, true_and, and_true]
      push_cast
      ring

/-- A thread that was edited has its checkpoint from there. -/
theorem StateSnapshot.source_foldl {config : Config} {edits : List (Edit S)}
    (h : ∃ e ∈ edits, e.config = config) (snapshot : StateSnapshot S) :
    (edits.foldl (StateSnapshot.take config) snapshot).metadata.source = .update := by
  induction edits using List.reverseRecOn with
  | nil => simp at h
  | append_singleton edits e ih =>
    rw [List.foldl_append, List.foldl_cons, List.foldl_nil, StateSnapshot.take]
    split
    · rfl
    · next hne =>
      obtain ⟨e', he', hconfig⟩ := h
      obtain he' | he' := List.mem_append.mp he'
      · exact ih ⟨e', he', hconfig⟩
      · exact absurd (List.mem_singleton.mp he' ▸ hconfig) hne

theorem StateSnapshot.take_of_eq {config : Config} {e : Edit S} (h : e.config = config)
    (snapshot : StateSnapshot S) : snapshot.take config e = snapshot.edit e.updates := if_pos h

theorem StateSnapshot.take_of_ne {config : Config} {e : Edit S} (h : e.config ≠ config)
    (snapshot : StateSnapshot S) : snapshot.take config e = snapshot := if_neg h

end Edits

theorem isOk_reported {α : Type} (x : Except CheckpointError α) : (reported x).isOk = x.isOk := by
  cases x <;> rfl

theorem deserializeWithMigration_current {S : Type} [State S] (cp : Checkpoint)
    (h : cp.schemaVersion = State.schemaVersion S) :
    deserializeWithMigration (S := S) cp = (State.fromValue cp.channelValues).mapError fun e =>
      .checkpoint s!"failed to deserialize state: {e}" := by
  rw [deserializeWithMigration, if_neg (not_not_intro h)]

/-! ### With a `SqliteSaver` -/

namespace Sqlite

open SqliteSaver ExceptFold

variable {S : Type} [State S] [Formats] {options : SqliteOptions} {s : SqliteSaver} {config : Config}
  {key key' : Place} {t : CheckpointTuple}

theorem put_eq_error {config : Config} {cp : Checkpoint} {metadata : CheckpointMetadata}
    {s' : SqliteSaver} {e : CheckpointError} (h : s.put options config cp metadata = (s', .error e)) :
    s' = s := by
  unfold SqliteSaver.put at h
  split at h
  · exact (Prod.mk.inj h).1.symm
  · split at h
    · exact (Prod.mk.inj h).1.symm
    · cases (Prod.mk.inj h).2

omit [Formats] in
/-- A row takes the place of the one with its identifier, and stands where that stood if it was first. -/
theorem select_upsert {id : String} {old : CheckpointRow} (h : s.select config key = some (id, old))
    (row : CheckpointRow)
    (writes : AList fun _ : Place × String × String × ℕ => String × String) :
    SqliteSaver.select { checkpoints := s.upsert key id row, checkpointWrites := writes } config key =
      some (id, { row with createdAt := old.createdAt }) := by
  cases hid : config.checkpointId with
  | some id' =>
    simp only [SqliteSaver.select, hid, Option.map_eq_some_iff, Prod.mk.injEq] at h ⊢
    obtain ⟨row', hrow', rfl, rfl⟩ := h
    exact ⟨_, by rw [upsert, hrow', AList.lookup_insert], rfl, rfl⟩
  | none =>
    simp only [SqliteSaver.select, hid] at h ⊢
    obtain ⟨rest, hrows⟩ := List.head?_eq_some_iff.mp h
    have hold : s.checkpoints.lookup (key, id) = some old :=
      mem_rows.mp (hrows ▸ List.mem_cons_self)
    have hsorted : (s.rows key).Pairwise fun a b => b.2.createdAt ≤ a.2.createdAt :=
      List.pairwise_insertionSort _ _
    rw [upsert, hold, rows, AList.entries_insert, List.filter_cons_of_pos (by simp), List.map_cons,
      List.insertionSort_cons_of_forall_rel]
    · rfl
    · -- every other row was behind the first
      rintro ⟨id', row'⟩ hmem
      obtain ⟨⟨⟨key', id''⟩, row''⟩, he, heq⟩ := List.mem_map.mp hmem
      obtain ⟨he, hkey⟩ := List.mem_filter.mp he
      obtain rfl : key' = key := beq_iff_eq.mp hkey
      obtain ⟨rfl, rfl⟩ := Prod.mk.inj heq
      have hrow : (id'', row'') ∈ s.rows key' :=
        mem_rows.mpr (AList.mem_lookup_iff.mpr ((List.kerase_sublist _ _).subset he))
      rw [hrows] at hrow hsorted
      obtain hfirst | hrest := List.mem_cons.mp hrow
      · rw [Prod.mk.injEq] at hfirst
        rw [hfirst.2]
      · exact (List.pairwise_cons.mp hsorted).1 _ hrest

omit [Formats] in
/-- The rows of another thread or namespace stay as they are. -/
theorem rows_upsert_ne (hne : key' ≠ key) (id : String) (row : CheckpointRow)
    (writes : AList fun _ : Place × String × String × ℕ => String × String) :
    rows { checkpoints := s.upsert key' id row, checkpointWrites := writes } key = s.rows key := by
  have hkept : ∀ l : List (Σ _ : Place × String, CheckpointRow),
      (l.kerase (key', id)).filter (fun e => e.1.1 == key) = l.filter fun e => e.1.1 == key := by
    intro l
    induction l with
    | nil => rfl
    | cons e l ih =>
      by_cases he : (key', id) = e.1
      · rw [List.kerase_cons_eq he, List.filter_cons_of_neg (by rw [← he]; simpa using hne)]
      · rw [List.kerase_cons_ne he, List.filter_cons, List.filter_cons, ih]
  simp only [rows, upsert, AList.entries_insert]
  rw [List.filter_cons_of_neg (by simpa using hne), hkept]

/-- Nor is anything else of it changed by a `put` elsewhere. -/
theorem getTuple_put_ne (hkey : config.key = some key) {config' : Config} {cp : Checkpoint}
    {metadata : CheckpointMetadata} (hother : config'.key ≠ some key) :
    (s.put options config' cp metadata).1.getTuple options config = s.getTuple options config := by
  generalize hput : s.put options config' cp metadata = r
  obtain ⟨s', r⟩ := r
  cases r with
  | error e => rw [put_eq_error hput]
  | ok found =>
    obtain ⟨key', row, hkey', -, rfl, -⟩ := put_eq_ok hput
    have hne : key' ≠ key := fun h => hother (h ▸ hkey')
    have hselect : SqliteSaver.select
        { checkpoints := s.upsert key' cp.id row
          checkpointWrites := retain (fun k => k.1 != key') s.checkpointWrites } config key =
        s.select config key := by
      have hlookup : ∀ id, (s.upsert key' cp.id row).lookup (key, id) =
          s.checkpoints.lookup (key, id) := fun id =>
        AList.lookup_insert_ne fun h => hne (Prod.mk.inj h).1.symm
      simp only [SqliteSaver.select, hlookup, rows_upsert_ne hne]
    have hwrites : ∀ id, SqliteSaver.loadPendingWrites
        { checkpoints := s.upsert key' cp.id row
          checkpointWrites := retain (fun k => k.1 != key') s.checkpointWrites } key id =
        s.loadPendingWrites key id := fun id => by
      rw [loadPendingWrites, writeRows_retain, if_neg hne]
      rfl
    rw [getTuple_of_key hkey, getTuple_of_key hkey, hselect]
    simp only [loadTuple, hwrites]

/-- What was found, with what an edit makes of it. -/
theorem getTuple_put_edited (hkey : config.key = some key)
    (hget : s.getTuple options config = .ok (some t)) (hversion : t.checkpoint.schemaVersion = 1)
    {v : Json} (hv : Formats.readAs options.serializer v = some v) {metadata : CheckpointMetadata}
    {s' : SqliteSaver} {config' : Config}
    (hput : s.put options config { t.checkpoint with channelValues := v } metadata =
      (s', .ok config')) :
    s'.getTuple options config = .ok (some
      { t with checkpoint := { t.checkpoint with channelValues := v }, metadata, pendingWrites := [] }) := by
  -- what the row of the checkpoint was made of
  rw [getTuple_of_key hkey] at hget
  cases hselect : s.select config key with
  | none => rw [hselect] at hget; cases hget
  | some found =>
    obtain ⟨id, old⟩ := found
    rw [hselect] at hget
    obtain ⟨t', hload, heq⟩ := map_eq_ok_iff.mp hget
    obtain rfl := Option.some.inj heq
    simp only [loadTuple, rowToTuple, bind_eq_ok_iff, storageOf_eq_ok, storage_eq_ok] at hload
    obtain ⟨_, ⟨cp, hcp, _, -, hfound⟩, _, -, ht⟩ := hload
    obtain rfl := Except.ok.inj hfound
    obtain rfl := Except.ok.inj ht
    simp only [deserializeCheckpoint, bind_eq_ok_iff] at hcp
    obtain ⟨_, -, _, -, _, -, _, -, _, -, _, -, _, -, hcp⟩ := hcp
    obtain rfl := Except.ok.inj hcp
    -- the row that takes its place
    obtain ⟨key', row, hkey', hrow, rfl, -⟩ := put_eq_ok hput
    obtain rfl : key = key' := Option.some.inj (hkey.symm.trans hkey')
    have hwrites : SqliteSaver.loadPendingWrites
        { checkpoints := s.upsert key id row
          checkpointWrites := retain (fun k => k.1 != key) s.checkpointWrites } key id = .ok [] := by
      rw [loadPendingWrites, writeRows_retain, if_pos rfl]
      rfl
    have hcp := (deserializeCheckpoint_rowOf hrow old.createdAt).mpr
      ⟨v, v, hv, migrateCheckpointSchema_eq_ok.mpr (.inl ⟨hversion, rfl⟩), rfl⟩
    rw [getTuple_of_key hkey, select_upsert hselect]
    simp only [loadTuple, rowToTuple, hcp, metadata_rowOf hrow, hwrites, storageOf, storage,
      Except.mapError, bind, Except.bind, Except.map]

/-- The states of a type are read back as they are written. -/
structure Faithful (S : Type) [State S] (kind : SerializerKind) : Prop where
  /-- From the value. -/
  value : ∀ (state : S) v, State.toValue state = .ok v → State.fromValue v = .ok state
  /-- From the column of the value. -/
  column : ∀ (state : S) v, State.toValue state = .ok v → Formats.readAs kind v = some v
  /-- Their schema is the one that the saver takes for the current one. -/
  version : State.schemaVersion S = 1

/-- There is a snapshot of a checkpoint in the current schema. -/
structure Shows (s : SqliteSaver) (options : SqliteOptions) (config : Config)
    (snapshot : StateSnapshot S) : Prop where
  /-- The checkpoint. -/
  tuple : ∃ t, s.getTuple options config = .ok (some t) ∧ t.checkpoint.schemaVersion = 1 ∧
    snapshotOf t = .ok snapshot

theorem Shows.getState {snapshot : StateSnapshot S} (h : Shows s options config snapshot) :
    (getState (some (saver options)) s config).2 = .ok (some snapshot) := by
  obtain ⟨t, hget, -, hsnapshot⟩ := h.tuple
  rw [getState_of_found _ _ (saver options) hget, hsnapshot]
  rfl

variable {snapshot : StateSnapshot S}

/-- **One edit.** -/
theorem Shows.take (h : Shows s options config snapshot) (hS : Faithful S options.serializer)
    (hkey : config.key = some key) {e : Edit S} (he : e.config = config ∨ e.config.key ≠ some key) :
    Shows (step (some (saver options)) s e).1 options config
      (if (step (some (saver options)) s e).2 then snapshot.take config e else snapshot) := by
  rw [step, Edit.run_eq]
  obtain ⟨err, hcase⟩ | ⟨t, cp, metadata, hget, hedited, hcase⟩ :=
    saveUpdates_cases s (saver options) e.config e.call e.what e.updates
  · rw [hcase]
    exact h
  · rw [hcase]
    obtain hsame | hother := he
    · -- the checkpoint that is shown is edited
      rw [snapshot.take_of_eq hsame]
      rw [hsame] at hget ⊢
      obtain ⟨t', hget', hversion, hsnapshot⟩ := h.tuple
      obtain rfl : t' = t := Option.some.inj (Except.ok.inj (hget'.symm.trans hget))
      obtain ⟨state, v, hstate, hv, rfl, rfl⟩ := edited_eq_ok hedited
      simp only [saver, Prod.map, id_eq, isOk_reported]
      generalize hput : s.put options config _ _ = r
      obtain ⟨s', err | config'⟩ := r
      · obtain rfl := put_eq_error hput
        exact h
      · refine ⟨_, getTuple_put_edited hkey hget' hversion (hS.column _ v hv) hput, hversion, ?_⟩
        rw [snapshotOf, hstate] at hsnapshot
        obtain rfl := Except.ok.inj hsnapshot
        have hread : deserializeWithMigration (S := S) { t'.checkpoint with channelValues := v } =
            .ok (applyAll e.updates state) :=
          (deserializeWithMigration_current { t'.checkpoint with channelValues := v }
            (hversion.trans hS.version.symm)).trans (by rw [hS.value _ v hv]; rfl)
        exact congrArg (Except.map _) hread
    · -- another thread is edited
      have hne : e.config ≠ config := fun heq => hother (heq ▸ hkey)
      rw [snapshot.take_of_ne hne, ite_self]
      obtain ⟨t', hget', hversion, hsnapshot⟩ := h.tuple
      exact ⟨t', (getTuple_put_ne hkey hother).trans hget', hversion, hsnapshot⟩

/-- **A run of edits.** -/
theorem Shows.run (hS : Faithful S options.serializer) (hkey : config.key = some key)
    (h : Shows s options config snapshot) {edits : List (Edit S)}
    (hedits : ∀ e ∈ edits, e.config = config ∨ e.config.key ≠ some key) :
    Shows (Mealy.run (step (some (saver options))) s edits).1 options config
      ((Mealy.accepted (step (some (saver options))) s edits).foldl
        (StateSnapshot.take config) snapshot) := by
  refine Mealy.run_follows (R := fun s snapshot => Shows s options config snapshot) ?_ h
  exact fun s snapshot e he h => h.take hS hkey (hedits e he)

/-- **Edits do what they are for.**  After any edits of a thread, and of others, `get_state` returns what
it returned before with the updates of all edits that were accepted, in their order. -/
theorem getState_run (hS : Faithful S options.serializer) (hkey : config.key = some key)
    (h : Shows s options config snapshot) {edits : List (Edit S)}
    (hedits : ∀ e ∈ edits, e.config = config ∨ e.config.key ≠ some key) :
    (getState (some (saver options))
        (Mealy.run (step (some (saver options))) s edits).1 config).2 =
      .ok (some ((Mealy.accepted (step (some (saver options))) s edits).foldl
        (StateSnapshot.take config) snapshot)) :=
  (h.run hS hkey hedits).getState

/-- **An edit ends an interrupt.**  After an edit that was accepted, the thread cannot be resumed. -/
theorem loadInterrupted_run (hS : Faithful S options.serializer) (hkey : config.key = some key)
    (h : Shows s options config snapshot) {edits : List (Edit S)}
    (hedits : ∀ e ∈ edits, e.config = config ∨ e.config.key ≠ some key)
    (hsome : ∃ e ∈ Mealy.accepted (step (some (saver options))) s edits,
      e.config = config) (call : String) :
    (loadInterrupted (S := S) (some (saver options))
        (Mealy.run (step (some (saver options))) s edits).1 config call).2 =
      .error (.checkpoint (s!"{call}() requires checkpoint from Interrupt source, got " ++ "Update")) := by
  obtain ⟨t, hget, -, hsnapshot⟩ := (h.run hS hkey hedits).tuple
  have hsource : t.metadata.source = .update := by
    rw [snapshotOf] at hsnapshot
    obtain ⟨state, -, hsame⟩ := map_eq_ok_iff.mp hsnapshot
    have hmetadata := congrArg StateSnapshot.metadata hsame
    exact (congrArg CheckpointMetadata.source hmetadata).trans (StateSnapshot.source_foldl hsome snapshot)
  rw [loadInterrupted_of_found _ _ (saver options) hget, resumable, hsource]
  rfl

/-- **All at once or one by one.**  When all are accepted, `bulk_update_state` leads to what
`update_state` leads to, except that it counts as one step. -/
theorem getState_bulkUpdateState (hS : Faithful S options.serializer) (hkey : config.key = some key)
    (h : Shows s options config snapshot) {updates : List (StateUpdate S)} (hne : updates ≠ [])
    (hbulk : (bulkUpdateState (some (saver options)) s config updates).2.isOk = true)
    (hsingle : Mealy.accepted (step (some (saver options))) s
      (updates.map (.updateState config)) = updates.map (.updateState config)) :
    ∃ bulk single : StateSnapshot S,
      (getState (some (saver options)) (bulkUpdateState (some (saver options)) s config updates).1
          config).2 = .ok (some bulk) ∧
        (getState (some (saver options))
          (Mealy.run (step (some (saver options))) s
            (updates.map (.updateState config))).1 config).2 = .ok (some single) ∧
          single = { bulk with metadata :=
            { bulk.metadata with step := bulk.metadata.step + (updates.length - 1) } } := by
  have htake := h.take hS hkey (.inl (show (Edit.bulkUpdateState config updates).config = config from rfl))
  have hsame : ∀ e ∈ updates.map (Edit.updateState config),
      e.config = config ∨ e.config.key ≠ some key := by
    simp [Edit.config]
  have hrun := h.run hS hkey hsame
  rw [hsingle] at hrun
  refine ⟨_, _, htake.getState, hrun.getState, ?_⟩
  have hfold : (updates.map (Edit.updateState config)).foldl (StateSnapshot.take config) snapshot =
      updates.foldl (fun snapshot u => snapshot.edit [u]) snapshot := by
    rw [List.foldl_map]
    exact List.foldl_ext _ _ _ fun snapshot u _ => StateSnapshot.take_of_eq rfl snapshot
  have hok : (step (some (saver options)) s (.bulkUpdateState config updates)).2 = true := hbulk
  have hall : snapshot.take config (.bulkUpdateState config updates) = snapshot.edit updates :=
    StateSnapshot.take_of_eq rfl snapshot
  rw [hfold, snapshot.foldl_edit updates hne, if_pos hok, hall]
  simp only [StateSnapshot.edit, editedMetadata, StateSnapshot.mk.injEq, CheckpointMetadata.mk.injEq,
    true_and, and_true]
  ring

end Sqlite

/-! ### With a `MemorySaver` -/

namespace Memory

open MemorySaver

variable {S : Type} [State S] [Chrono] {s s' : MemorySaver}

/-- What happens to a saver: the engine calls it, the graph is asked for a state, or a state is edited. -/
inductive Event (S : Type) [State S] where
  | call (call : Call) (now : ℕ → ℤ)
  | getState (config : Config) (now : ℕ → ℤ)
  | loadInterrupted (call : String) (config : Config) (now : ℕ → ℤ)
  | edit (e : Edit S) (now : ℕ → ℤ)

/-- What is seen of it. -/
inductive Seen (S : Type) where
  | answer (answer : Answer)
  | state (result : Except JunctureError (Option (StateSnapshot S)))
  | resumed (result : Except JunctureError S)

/-- A list of checkpoints is not among what is seen, nor is what an edit returns. -/
def take (s : MemorySaver) : Event S → MemorySaver × Option (Seen S)
  | .call (.list config filter) now => ((s.take (.list config filter, now)).1, none)
  | .call call now => (s.take (call, now)).map id fun answer => some (.answer answer)
  | .getState config now => (Administration.getState (some (saver now)) s config).map id (some ∘ .state)
  | .loadInterrupted call config now =>
    (Administration.loadInterrupted (some (saver now)) s config call).map id (some ∘ .resumed)
  | .edit e now => ((step (some (saver now)) s e).1, none)

/-- The event is an edit. -/
def Event.isEdit : Event S → Bool
  | .edit _ _ => true
  | _ => false

omit [Chrono] in
theorem mem_of_select {config : Config} {ts : List CheckpointTuple} {t : CheckpointTuple}
    (h : select config ts = some t) : t ∈ ts := by
  unfold select at h
  split at h
  · exact List.mem_of_mem_head? h
  · exact List.mem_of_find?_eq_some h

/-- What was found is on file, apart from the writes that were added to it. -/
theorem mem_of_getTuple {config : Config} {now : ℕ → ℤ} {t : CheckpointTuple}
    (h : (s.getTuple .disabled now config).2 = .ok (some t)) :
    ∃ key, config.key = some key ∧ ∃ u ∈ s.checkpoints key, u.checkpoint = t.checkpoint := by
  cases hkey : config.key with
  | none =>
    rw [MemorySaver.getTuple, Config.getThreadId, threadId_eq_none hkey] at h
    cases h
  | some key =>
    rw [getTuple_of_key hkey] at h
    obtain ⟨u, hu, rfl⟩ := Option.map_eq_some_iff.mp (Except.ok.inj h)
    exact ⟨key, rfl, u, mem_of_select hu, rfl⟩

/-- **An edit puts a checkpoint behind the one it was made from.** -/
theorem like_step (h : Like s s') (e : Edit S) (now : ℕ → ℤ) :
    Like s (step (some (saver now)) s' e).1 := by
  have hread : Like s (s'.getTuple .disabled now e.config).1 :=
    h.congr_right (getTuple_keeps e.config now).1 (getTuple_keeps e.config now).2
  rw [step, Edit.run_eq]
  obtain ⟨err, hcase⟩ | ⟨t, cp, metadata, hget, hedited, hcase⟩ :=
    saveUpdates_cases s' (saver now) e.config e.call e.what e.updates
  · rw [hcase]
    exact hread
  · rw [hcase]
    obtain ⟨state, v, -, -, rfl, rfl⟩ := edited_eq_ok hedited
    obtain ⟨key, hkey, u, hu, hsame⟩ := mem_of_getTuple ((h.getTuple now e.config).symm.trans hget)
    have htime : u.checkpoint.createdAt = { t.checkpoint with channelValues := v }.createdAt :=
      (congrArg Checkpoint.createdAt hsame :)
    have hid : u.checkpoint.id = { t.checkpoint with channelValues := v }.id :=
      (congrArg Checkpoint.id hsame :)
    exact hread.put_again hkey hu htime hid (editedMetadata e.updates t.metadata)

theorem getState_fst (now : ℕ → ℤ) (config : Config) :
    (getState (S := S) (some (saver now)) s config).1 = (s.getTuple .disabled now config).1 := by
  simp only [getState, saver]
  generalize s.getTuple .disabled now config = r
  obtain ⟨_, _ | _ | _⟩ := r <;> rfl

theorem loadInterrupted_fst (now : ℕ → ℤ) (config : Config) (call : String) :
    (loadInterrupted (S := S) (some (saver now)) s config call).1 =
      (s.getTuple .disabled now config).1 := by
  simp only [loadInterrupted, saver]
  generalize s.getTuple .disabled now config = r
  obtain ⟨_, _ | _ | _⟩ := r <;> rfl

/-- Savers that are alike show the same. -/
theorem like_take (h : Like s s') (event : Event S) (hevent : event.isEdit = false) :
    Like (take s event).1 (take s' event).1 ∧ (take s event).2 = (take s' event).2 := by
  cases event with
  | edit e now => cases hevent
  | call call now =>
    cases call with
    | put config cp metadata =>
      obtain ⟨hnext, hsame⟩ := h.put config cp metadata
      exact ⟨hnext, congrArg (fun r => some (Seen.answer (Answer.of .put r))) hsame⟩
    | putWrites config writes taskId =>
      obtain ⟨hnext, hsame⟩ := h.putWrites config writes taskId
      exact ⟨hnext, congrArg (fun r => some (Seen.answer (Answer.of (fun _ => .written) r))) hsame⟩
    | getTuple config =>
      exact ⟨h.after_getTuple now now config config,
        congrArg (fun r => some (Seen.answer (Answer.of .ofFound r))) (h.getTuple now config).symm⟩
    | list config filter => exact ⟨h.after_list now now config config filter filter, rfl⟩
  | getState config now =>
    refine ⟨?_, ?_⟩
    · simp only [take, Prod.map, id_eq, getState_fst]
      exact h.after_getTuple now now config config
    · have hsame := h.getTuple now config
      simp only [take, Prod.map, getState, saver]
      generalize s.getTuple .disabled now config = r at hsame
      generalize s'.getTuple .disabled now config = r' at hsame
      obtain ⟨_, r⟩ := r
      obtain ⟨_, r'⟩ := r'
      obtain rfl : r' = r := hsame
      obtain _ | _ | _ := r' <;> rfl
  | loadInterrupted call config now =>
    refine ⟨?_, ?_⟩
    · simp only [take, Prod.map, id_eq, loadInterrupted_fst]
      exact h.after_getTuple now now config config
    · have hsame := h.getTuple now config
      simp only [take, Prod.map, loadInterrupted, saver]
      generalize s.getTuple .disabled now config = r at hsame
      generalize s'.getTuple .disabled now config = r' at hsame
      obtain ⟨_, r⟩ := r
      obtain ⟨_, r'⟩ := r'
      obtain rfl : r' = r := hsame
      obtain _ | _ | _ := r' <;> rfl

/-- **Edits are not seen.**  Whatever the engine and the graph ask a `MemorySaver` for, whatever is put in
between, the answers are those that they get when the edits are left out. -/
theorem outputs_without_edits (h : s.Sorted) (events : List (Event S)) :
    Mealy.outputs take s events = Mealy.outputs take s (events.filter fun event => !event.isEdit) := by
  have hhidden : ∀ s s' (event : Event S), Like s s' → event.isEdit = true →
      Like s (take s' event).1 ∧ (take s' event).2 = none := by
    intro s s' event h hevent
    cases event with
    | edit e now => exact ⟨like_step h e now, rfl⟩
    | call _ _ => cases hevent
    | getState _ _ => cases hevent
    | loadInterrupted _ _ _ => cases hevent
  exact Mealy.outputs_purge hhidden (fun s s' event h hevent => like_take h event hevent) h.like

/-- The checkpoint that an edit puts. -/
def puts (now : ℕ → ℤ) (s : MemorySaver) (e : Edit S) : Option CheckpointTuple :=
  match (s.getTuple .disabled now e.config).2 with
  | .ok (some t) => (edited e.what e.updates t).toOption.map fun put =>
      { config := e.config, checkpoint := put.1, metadata := put.2 }
  | _ => none

/-- Among the checkpoints of a thread and namespace. -/
def putsAt (now : ℕ → ℤ) (s : MemorySaver) (key : Place) (e : Edit S) : Option CheckpointTuple :=
  if e.config.key = some key then puts now s e else none

theorem checkpoints_step (now : ℕ → ℤ) (s : MemorySaver) (e : Edit S) (key : Place) :
    ((step (some (saver now)) s e).1.checkpoints key).Perm
      (s.checkpoints key ++ (putsAt now s key e).toList) := by
  have hkeeps := (s.getTuple_keeps e.config now).1
  rw [step, Edit.run_eq, putsAt, puts]
  simp only [saveUpdates, saver]
  generalize hread : s.getTuple .disabled now e.config = r at hkeeps
  obtain ⟨s', err | _ | t⟩ := r
  · simp [Prod.map, hkeeps]
  · simp [Prod.map, hkeeps]
  · dsimp only at hkeeps ⊢
    cases edited e.what e.updates t with
    | error err => simp [Prod.map, hkeeps, Except.toOption]
    | ok put =>
      obtain ⟨key', hkey', -⟩ := mem_of_getTuple (congrArg Prod.snd hread)
      simp only [Prod.map, id_eq, checkpoints_put_of_key hkey', hkey', Option.some.injEq, hkeeps]
      split_ifs
      · exact List.perm_insertionSort _ _
      · simp

/-- **Edits are lost.**  After any edits the list of a thread holds what it held before and one checkpoint
for each edit that was accepted, and each of these is made from the state before all of them. -/
theorem list_run (h : s.Sorted) (now : ℕ → ℤ) (edits : List (Edit S)) {config : Config} {key : Place}
    (hkey : config.key = some key) :
    ∃ ts, ((Mealy.run (step (some (saver now))) s edits).1.list .disabled now config none).2 = .ok ts ∧
      ts.Perm (s.checkpoints key ++ edits.filterMap (putsAt now s key)) := by
  refine ⟨_, list_of_key hkey now none, ?_⟩
  suffices hrun : ∀ s', Like s s' →
      ((Mealy.run (step (some (saver now))) s' edits).1.checkpoints key).Perm
        (s'.checkpoints key ++ edits.filterMap (putsAt now s key)) from hrun s h.like
  induction edits with
  | nil =>
    intro s' _
    rw [List.filterMap_nil, List.append_nil]
    exact .refl _
  | cons e edits ih =>
    intro s' hlike
    have hsame : putsAt now s' key e = putsAt now s key e := by
      rw [putsAt, putsAt, puts, puts, hlike.getTuple]
    have hcons : (e :: edits).filterMap (putsAt now s key) =
        (putsAt now s key e).toList ++ edits.filterMap (putsAt now s key) := by
      cases hput : putsAt now s key e <;> simp [hput]
    have hstep := checkpoints_step now s' e key
    rw [hsame] at hstep
    rw [Mealy.run_cons, hcons, ← List.append_assoc]
    exact (ih _ (like_step hlike e now)).trans (hstep.append_right _)

end Memory

/-! ### A thread that is edited twice -/

/-- A codec of a few values, which are told apart by `same`, in MessagePack. -/
def listed {T : Type} (same : T → T → Bool) (hsame : ∀ a b, same a b = true → a = b)
    (table : List (T × List UInt8)) (hmarked : ∀ e ∈ table, Marked e.2)
    (hdata : (table.map Prod.snd).Nodup) : CompoundCodec T where
  toMsgpack v := match table.find? fun e => same e.1 v with
    | some e => .ok e.2
    | none => .error "not listed"
  fromMsgpack data := match table.find? fun e => e.2 = data with
    | some e => .ok e.1
    | none => .error "not listed"
  toJson _ := .error "not listed"
  fromJson _ := .error "not listed"
  msgpack_faithful v data h := by
    split at h
    · next e he =>
      obtain rfl := Except.ok.inj h
      have hmem := List.mem_of_find?_eq_some he
      cases hfound : table.find? fun e' => e'.2 = e.2 with
      | none => exact absurd (List.find?_eq_none.mp hfound e hmem) (by simp)
      | some e' =>
        have hbytes : e'.2 = e.2 := by simpa using List.find?_some hfound
        have heq : e' = e := List.inj_on_of_nodup_map hdata (List.mem_of_find?_eq_some hfound) hmem hbytes
        have hv : e.1 = v := hsame _ _ (by simpa using List.find?_some he)
        simp only [heq, hv]
    · cases h
  json_faithful v data h := by cases h
  json_ascii v data h := by cases h
  marked v data h := by
    split at h
    · next e he =>
      obtain rfl := Except.ok.inj h
      exact hmarked e (List.mem_of_find?_eq_some he)
    · cases h

/-- Two records of metadata have the same fields. -/
def sameMetadata (a b : CheckpointMetadata) : Bool :=
  a.source = b.source && a.step = b.step && a.writes.entries = b.writes.entries &&
    a.parents.entries = b.parents.entries && a.runId = b.runId && a.returnValue = b.returnValue

theorem eq_of_sameMetadata (a b : CheckpointMetadata) (h : sameMetadata a b = true) : a = b := by
  obtain ⟨⟩ := a
  obtain ⟨⟩ := b
  simp only [sameMetadata, Bool.and_eq_true, decide_eq_true_eq] at h
  obtain ⟨⟨⟨⟨⟨rfl, rfl⟩, hwrites⟩, hparents⟩, rfl⟩, rfl⟩ := h
  rw [AList.ext hwrites, AList.ext hparents]

/-- The empty map, as MessagePack. -/
def emptyDict {α : Type} : CompoundCodec (Dict α) :=
  listed (fun a b => a.entries.isEmpty && b.entries.isEmpty)
    (fun a b h => by
      obtain ⟨ha, hb⟩ := Bool.and_eq_true_iff.mp h
      exact AList.ext ((List.isEmpty_iff.mp ha).trans (List.isEmpty_iff.mp hb).symm))
    [(∅, [0x80])] (by simp [Marked]) (List.nodup_singleton _)

/-- A transcript with some entries. -/
def noted (log : List ℕ) : Transcript := { log }

/-- The metadata of a checkpoint at an interrupt, or of one that was edited. -/
def metadataAt (source : CheckpointSource) (step : ℤ) : CheckpointMetadata := { source, step }

/-- A transcript without entries, with one, and with two, as MessagePack. -/
def notes : CompoundCodec Json := listed (fun a b => a = b) (fun a b h => of_decide_eq_true h)
  [((noted []).toJson, [0x82, 0xa3, 0x6c, 0x6f, 0x67, 0x90, 0xa6, 0x73, 0x74, 0x61, 0x74, 0x75, 0x73, 0x00]),
   ((noted [5]).toJson,
    [0x82, 0xa3, 0x6c, 0x6f, 0x67, 0x91, 0x05, 0xa6, 0x73, 0x74, 0x61, 0x74, 0x75, 0x73, 0x00]),
   ((noted [5, 6]).toJson,
    [0x82, 0xa3, 0x6c, 0x6f, 0x67, 0x92, 0x05, 0x06, 0xa6, 0x73, 0x74, 0x61, 0x74, 0x75, 0x73, 0x00])]
  (by simp [Marked]) (by decide)

/-- Metadata at the interrupt of a node, and after one and two edits. -/
def notesMetadata : CompoundCodec CheckpointMetadata := listed sameMetadata eq_of_sameMetadata
  [({ source := .interrupt "ask", step := 1 }, [0x96, 0x81, 0xa9, 0x49, 0x6e, 0x74, 0x65, 0x72, 0x72, 0x75,
      0x70, 0x74, 0x91, 0xa3, 0x61, 0x73, 0x6b, 0x01, 0x80, 0x80, 0xa0, 0xc0]),
   ({ source := .update, step := 2 },
    [0x96, 0xa6, 0x55, 0x70, 0x64, 0x61, 0x74, 0x65, 0x02, 0x80, 0x80, 0xa0, 0xc0]),
   ({ source := .update, step := 3 },
    [0x96, 0xa6, 0x55, 0x70, 0x64, 0x61, 0x74, 0x65, 0x03, 0x80, 0x80, 0xa0, 0xc0])]
  (by simp [Marked]) (by decide)

/-- How the checkpoints below are written. -/
@[reducible] def notesFormats : Formats where
  values := { notes.toCodec with
    fromJson := emptyState.fromJson
    json_faithful := fun v data h => by cases h }
  versions := emptyDict
  seen := emptyDict
  tasks := emptyFormats.tasks
  sends := emptyFormats.sends
  interrupts := emptyFormats.interrupts
  metadata := notesMetadata
  values_marked v data h _ := notes.marked v data h
  values_fixint v data b h hfix := by
    cases v with
    | num n => simp [notes, listed, noted, Transcript.toJson] at h
    | _ => cases hfix
  values_digit := emptyFormats.values_digit
  toText := emptyFormats.toText
  fromText := emptyFormats.fromText
  text_faithful := emptyFormats.text_faithful

/-- The table that holds a checkpoint at an interrupt. -/
def notesSaver : SqliteSaver :=
  { checkpoints := (∅ : AList fun _ : Place × String => CheckpointRow).insert (("t", ""), "1")
      { parentCheckpointId := none
        channelValues := [0x82, 0xa3, 0x6c, 0x6f, 0x67, 0x90, 0xa6, 0x73, 0x74, 0x61, 0x74, 0x75, 0x73, 0x00]
        channelVersions := [0x80]
        versionsSeen := [0x80]
        pendingTasks := some [0x90]
        pendingSends := some [0x90]
        pendingInterrupts := some [0x90]
        schemaVersion := 1
        metadata := [0x96, 0x81, 0xa9, 0x49, 0x6e, 0x74, 0x65, 0x72, 0x72, 0x75,
          0x70, 0x74, 0x91, 0xa3, 0x61, 0x73, 0x6b, 0x01, 0x80, 0x80, 0xa0, 0xc0]
        createdAt := "1970-01-01T00:00:00+00:00" } }

/-- Its snapshot. -/
def notesSnapshot : StateSnapshot Transcript where
  values := noted []
  next := []
  config := { threadId := some "t" }
  metadata := { source := .interrupt "ask", step := 1 }
  createdAt := "1970-01-01T00:00:00+00:00"
  parentConfig := none

/-- One entry, and another. -/
def twoNotes : List (StateUpdate Transcript) :=
  [{ update := Transcript.note 5 }, { update := Transcript.note 6 }]

theorem natOfJson_num (n : ℕ) : Transcript.natOfJson (.num n) = .ok n := by
  simp [Transcript.natOfJson]

theorem ofJson_toJson (state : Transcript) : Transcript.ofJson state.toJson = .ok state := by
  obtain ⟨log, status⟩ := state
  have hlog : (log.flatMap fun n : ℕ => [(n : ℤ)]).mapM (fun n => Transcript.natOfJson (.num n)) =
      .ok log := by
    rw [← List.map_eq_flatMap, ExceptFold.mapM_eq_ok_iff, List.forall₂_map_left_iff, List.forall₂_same]
    exact fun n _ => natOfJson_num n
  simp [Transcript.ofJson, Transcript.toJson, Json.get, Function.comp_def, hlog, natOfJson_num, bind,
    Except.bind, pure, Except.pure]

theorem transcript_faithful : Sqlite.Faithful Transcript .messagePack where
  value state v h := by
    obtain rfl := Except.ok.inj h
    exact ofJson_toJson state
  column state v h := by
    obtain rfl := Except.ok.inj h
    rfl
  version := rfl

theorem notesSaver_shows :
    @Sqlite.Shows Transcript _ notesFormats notesSaver {} { threadId := some "t" } notesSnapshot :=
  @Sqlite.Shows.mk _ _ notesFormats _ _ _ _ ⟨_, rfl, rfl, rfl⟩

theorem twoNotes_accepted :
    Mealy.accepted (step (some (@SqliteSaver.saver notesFormats {}))) notesSaver
        (twoNotes.map (.updateState { threadId := some "t" })) =
      twoNotes.map (.updateState { threadId := some "t" }) := rfl

/-- The call of the two notes one by one. -/
theorem twoNotes_config : ∀ e ∈ twoNotes.map (Edit.updateState { threadId := some "t" }),
    e.config = { threadId := some "t" } ∨ e.config.key ≠ some ("t", "") := by
  simp [Edit.config]

/-- Both notes are in the state, in two steps. -/
theorem getState_run_twoNotes :
    (getState (some (@SqliteSaver.saver notesFormats {})) (Mealy.run
        (step (some (@SqliteSaver.saver notesFormats {}))) notesSaver
        (twoNotes.map (.updateState { threadId := some "t" }))).1 { threadId := some "t" }).2 =
      .ok (some { notesSnapshot with
        values := noted [5, 6], metadata := { source := .update, step := 3 } }) :=
  @Sqlite.getState_run Transcript _ notesFormats {} notesSaver { threadId := some "t" } ("t", "")
    notesSnapshot transcript_faithful rfl notesSaver_shows _ twoNotes_config

/-- The thread waited for an answer, and cannot be resumed any more. -/
theorem loadInterrupted_run_twoNotes :
    (loadInterrupted (S := Transcript) (some (@SqliteSaver.saver notesFormats {})) (Mealy.run
        (step (some (@SqliteSaver.saver notesFormats {}))) notesSaver
        (twoNotes.map (.updateState { threadId := some "t" }))).1 { threadId := some "t" } "resume").2 =
      .error (.checkpoint
        ("resume" ++ "() requires checkpoint from Interrupt source, got " ++ "Update")) :=
  @Sqlite.loadInterrupted_run Transcript _ notesFormats {} notesSaver { threadId := some "t" } ("t", "")
    notesSnapshot transcript_faithful rfl notesSaver_shows _ twoNotes_config
    ⟨.updateState { threadId := some "t" } { update := Transcript.note 5 },
      by rw [twoNotes_accepted]; exact List.mem_cons_self, rfl⟩ "resume"

/-- Both notes at once. -/
theorem getState_bulkUpdateState_twoNotes :
    ∃ bulk single : StateSnapshot Transcript,
      (getState (some (@SqliteSaver.saver notesFormats {}))
          (bulkUpdateState (some (@SqliteSaver.saver notesFormats {})) notesSaver
            { threadId := some "t" } twoNotes).1 { threadId := some "t" }).2 = .ok (some bulk) ∧
        (getState (some (@SqliteSaver.saver notesFormats {})) (Mealy.run
          (step (some (@SqliteSaver.saver notesFormats {}))) notesSaver
          (twoNotes.map (.updateState { threadId := some "t" }))).1 { threadId := some "t" }).2 =
            .ok (some single) ∧
          single = { bulk with metadata := { bulk.metadata with
            step := bulk.metadata.step + ((twoNotes.length : ℤ) - 1) } } :=
  @Sqlite.getState_bulkUpdateState Transcript _ notesFormats {} notesSaver { threadId := some "t" }
    ("t", "") notesSnapshot transcript_faithful rfl notesSaver_shows twoNotes (List.cons_ne_nil _ _) rfl
    twoNotes_accepted

/-- A `MemorySaver` with the same checkpoint. -/
def notesMemory : MemorySaver :=
  @runOps epochChrono [.put { threadId := some "t" }
    { id := "1", channelValues := (noted []).toJson, createdAt := "1970-01-01T00:00:00+00:00" }
    { source := .interrupt "ask", step := 1 }]

theorem notesMemory_sorted : notesMemory.Sorted := @pairwise_checkpoints epochChrono _

/-- The state is asked for after an edit, and resumed from; the edit makes no difference. -/
theorem outputs_without_note :
    Mealy.outputs (@Memory.take Transcript _ epochChrono) notesMemory
        [.edit (.updateState { threadId := some "t" } { update := Transcript.note 5 }) fun _ => 0,
          .getState { threadId := some "t" } fun _ => 0,
          .loadInterrupted "resume" { threadId := some "t" } fun _ => 0] =
      [.state (.ok (some { notesSnapshot with values := noted [] })), .resumed (.ok (noted []))] :=
  @Memory.outputs_without_edits Transcript _ epochChrono notesMemory notesMemory_sorted _

/-- Each of two edits puts a checkpoint, and neither knows of the other. -/
theorem list_run_twoNotes :
    ∃ ts, (@MemorySaver.list epochChrono .disabled (fun _ => 0)
        (Mealy.run (step (some (@MemorySaver.saver epochChrono fun _ => 0))) notesMemory
          (twoNotes.map (.updateState { threadId := some "t" }))).1 { threadId := some "t" } none).2 =
        .ok ts ∧
      ts.Perm (notesMemory.checkpoints ("t", "") ++
        (twoNotes.map (.updateState { threadId := some "t" })).filterMap
          (@Memory.putsAt Transcript _ epochChrono (fun _ => 0) notesMemory ("t", ""))) :=
  @Memory.list_run Transcript _ epochChrono notesMemory notesMemory_sorted (fun _ => 0) _
    { threadId := some "t" } ("t", "") rfl

end Administration

end Saver

end Juncture
