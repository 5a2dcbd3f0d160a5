import Juncture.Lib.Mealy
import Juncture.Saver.History
import Juncture.Saver.RoundTrip

/-!
# Two savers that agree

`MemorySaver` and `SqliteSaver` stand for each other: a program that is tested with the one runs with the
other.  But they differ in what becomes of a checkpoint that is put twice, of the writes that were added
before a `put`, of a second `put_writes` of one task, and in how much `list` returns.

* `Fits` : what a call has to meet, after the calls before it, to stay clear of these.
* `Agree` : what the two savers then have in common.
* `answers_agree` : calls that fit are answered alike.
-/

namespace Juncture

namespace Saver

/-! ### Answers -/

/-- The tuple apart from its configurations. -/
def CheckpointTuple.plain (t : CheckpointTuple) : CheckpointTuple :=
  { t with config := {}, parentConfig := none }

/-- What is answered to a call, apart from the texts of errors. -/
inductive Answer where
  | refused
  | put (config : Config)
  | written
  | found (tuple : Option CheckpointTuple)
  | listed (tuples : List CheckpointTuple)
deriving DecidableEq

/-- The answer that a result is. -/
def Answer.of {α : Type} (f : α → Answer) : Except CheckpointError α → Answer
  | .ok a => f a
  | .error _ => .refused

/-- A checkpoint that was found, or none. -/
def Answer.ofFound (tuple : Option CheckpointTuple) : Answer := .found (tuple.map (·.plain))

/-- A list of checkpoints. -/
def Answer.ofList (tuples : List CheckpointTuple) : Answer := .listed (tuples.map (·.plain))

/-- A `MemorySaver` without TTL takes a call, with the readings of the clock that it makes. -/
def MemorySaver.take [Chrono] (s : MemorySaver) : Call × (ℕ → ℤ) → MemorySaver × Answer
  | (.put config checkpoint metadata, _) => (s.put config checkpoint metadata).map id (.of .put)
  | (.putWrites config writes taskId, _) =>
    (s.putWrites config writes taskId).map id (.of fun _ => .written)
  | (.getTuple config, now) => (s.getTuple .disabled now config).map id (.of .ofFound)
  | (.list config filter, now) => (s.list .disabled now config filter).map id (.of .ofList)

/-- A `SqliteSaver` takes a call. -/
def SqliteSaver.take [Formats] (options : SqliteOptions) (s : SqliteSaver) :
    Call × (ℕ → ℤ) → SqliteSaver × Answer
  | (.put config checkpoint metadata, _) =>
    (s.put options config checkpoint metadata).map id (.of .put)
  | (.putWrites config writes taskId, _) =>
    (s.putWrites config writes taskId).map id (.of fun _ => .written)
  | (.getTuple config, _) => (s, .of .ofFound (s.getTuple options config))
  | (.list config filter, _) => (s, .of .ofList (s.list options config filter))

/-! ### Calls that fit -/

/-- The checkpoint that a call puts in a thread and namespace. -/
def Call.checkpointAt (key : Place) : Call → Option Checkpoint
  | .put config checkpoint _ => if config.key = some key then some checkpoint else none
  | _ => none

/-- The task whose writes a call adds to a checkpoint. -/
def Call.taskAt (key : Place) (id : String) : Call → Option String
  | .putWrites config writes taskId =>
    if config.key = some key ∧ config.checkpointId = some id ∧ writes ≠ [] then some taskId else none
  | _ => none

/-- What was put in a thread and namespace. -/
def checkpointsOf (h : List Call) (key : Place) : List Checkpoint := h.filterMap (Call.checkpointAt key)

/-- The tasks whose writes were added to a checkpoint. -/
def tasksOf (h : List Call) (key : Place) (id : String) : List String := h.filterMap (Call.taskAt key id)

/-- Something was put in the thread and namespace after writes had been added to the checkpoint. -/
def Discarded (h : List Call) (key : Place) (id : String) : Prop :=
  ∃ pre post, h = pre ++ post ∧ tasksOf pre key id ≠ [] ∧ checkpointsOf post key ≠ []

/-- A checkpoint of which a row keeps everything. -/
structure Kept (options : SqliteOptions) (cp : Checkpoint) : Prop where
  /-- The state is read as it is. -/
  values : Formats.readAs options.serializer cp.channelValues = some cp.channelValues
  /-- It is of version 1. -/
  schemaVersion : cp.schemaVersion = 1
  /-- There is no column for the version of the format. -/
  v : cp.v = 1
  /-- Nor for new versions. -/
  newVersions : cp.newVersions = ∅
  /-- Nor for the counters. -/
  counters : cp.countersSinceDeltaSnapshot = ∅

/-- What a call has to meet, after the calls `h`, for both savers to treat it alike. -/
def Fits [Formats] (options : SqliteOptions) (h : List Call) : Call → Prop
  | .put config checkpoint metadata => ∀ key ∈ config.key,
    Kept options checkpoint ∧
    (∃ row, SqliteSaver.rowOf options.serializer checkpoint metadata = .ok row) ∧
    ∀ earlier ∈ checkpointsOf h key,
      earlier.id ≠ checkpoint.id ∧ earlier.createdAt ≠ checkpoint.createdAt
  | .putWrites config writes taskId => ∀ key ∈ config.key, ∀ id ∈ config.checkpointId,
    (∀ w ∈ writes, ∃ text, Formats.toText w.value = .ok text) ∧
    (writes ≠ [] → ∀ earlier ∈ tasksOf h key id, earlier < taskId)
  | .getTuple config => ∀ key ∈ config.key, match config.checkpointId with
    | some id => ¬ Discarded h key id
    | none => ∀ newest ∈ checkpointsOf h key,
      (∀ cp ∈ checkpointsOf h key, cp.createdAt ≤ newest.createdAt) → ¬ Discarded h key newest.id
  | .list config filter => ∀ key ∈ config.key, filter.any SqliteSaver.hasNonLimitFilter = false →
    match filter.bind CheckpointFilter.limit with
    | some limit => limit < 2 ^ 63
    | none => (checkpointsOf h key).length ≤ 10

section History

variable {h : List Call} {call : Call} {key : Place} {id : String}

theorem checkpointsOf_append (h' : List Call) :
    checkpointsOf (h ++ h') key = checkpointsOf h key ++ checkpointsOf h' key :=
  List.filterMap_append

theorem tasksOf_append (h' : List Call) :
    tasksOf (h ++ h') key id = tasksOf h key id ++ tasksOf h' key id :=
  List.filterMap_append

theorem mem_tasksOf_snoc {taskId : String} :
    taskId ∈ tasksOf (h ++ [call]) key id ↔ taskId ∈ tasksOf h key id ∨ call.taskAt key id = some taskId := by
  rw [tasksOf_append, List.mem_append]
  cases hcall : call.taskAt key id <;> simp [tasksOf, hcall, eq_comm]

theorem Discarded.snoc (hd : Discarded h key id) : Discarded (h ++ [call]) key id := by
  obtain ⟨pre, post, rfl, htasks, hput⟩ := hd
  refine ⟨pre, post ++ [call], by simp, htasks, ?_⟩
  rw [checkpointsOf_append]
  exact List.append_ne_nil_of_left_ne_nil hput _

/-- A `put` makes the writes obsolete that were added before. -/
theorem discarded_snoc_of_put {cp : Checkpoint} (htasks : tasksOf h key id ≠ [])
    (hput : call.checkpointAt key = some cp) : Discarded (h ++ [call]) key id :=
  ⟨h, [call], rfl, htasks, by simp [checkpointsOf, hput]⟩

end History

/-! ### Sorted lists -/

section Sorted

variable {α β : Type} {R : α → β → Prop} {r : β → β → Prop} [DecidableRel r]

/-- Two elements that are sorted in at the same place. -/
theorem forall₂_orderedInsert {p : α → Prop} [DecidablePred p] {as : List α} {bs : List β} {a : α} {b : β}
    (h : List.Forall₂ R as bs) (hab : R a b) (hp : ∀ u ∈ as, ∀ c, R u c → (p u ↔ ¬ r b c)) :
    List.Forall₂ R (as.takeWhile (fun u => decide (p u)) ++ a :: as.dropWhile fun u => decide (p u))
      (bs.orderedInsert r b) := by
  induction h with
  | nil => exact .cons hab .nil
  | @cons u c as bs huc htail ih =>
    by_cases hu : p u
    · have hbc : ¬ r b c := (hp u List.mem_cons_self c huc).mp hu
      rw [List.takeWhile_cons_of_pos (by simpa using hu), List.dropWhile_cons_of_pos (by simpa using hu),
        List.orderedInsert_of_not_le r bs hbc]
      exact .cons huc (ih fun v hv => hp v (List.mem_cons_of_mem _ hv))
    · have hbc : r b c := by
        by_contra hnot
        exact hu ((hp u List.mem_cons_self c huc).mpr hnot)
      rw [List.takeWhile_cons_of_neg (by simpa using hu), List.dropWhile_cons_of_neg (by simpa using hu),
        List.orderedInsert_cons_of_le r bs hbc]
      exact .cons hab (.cons huc htail)

/-- An element that belongs behind all others. -/
theorem orderedInsert_eq_append {b : β} {bs : List β} (h : ∀ c ∈ bs, ¬ r b c) :
    bs.orderedInsert r b = bs ++ [b] := by
  induction bs with
  | nil => rfl
  | cons c bs ih =>
    rw [List.orderedInsert_of_not_le r bs (h c List.mem_cons_self),
      ih fun d hd => h d (List.mem_cons_of_mem _ hd), List.cons_append]

/-- The partner of an element. -/
theorem exists_of_forall₂ {as : List α} {bs : List β} (h : List.Forall₂ R as bs) {a : α} (ha : a ∈ as) :
    ∃ b ∈ bs, R a b := by
  induction h with
  | nil => cases ha
  | cons hab _ ih =>
    obtain rfl | ha := List.mem_cons.mp ha
    · exact ⟨_, List.mem_cons_self, hab⟩
    · obtain ⟨b, hb, hR⟩ := ih ha
      exact ⟨b, List.mem_cons_of_mem _ hb, hR⟩

end Sorted

/-! ### Rows -/

namespace SqliteSaver

variable {s : SqliteSaver} {key : Place} {id : String}

/-- The rows of a thread and namespace are those on file. -/
theorem mem_rows {row : CheckpointRow} :
    (id, row) ∈ s.rows key ↔ s.checkpoints.lookup (key, id) = some row := by
  rw [rows, List.mem_insertionSort, List.mem_map, ← Option.mem_def, AList.mem_lookup_iff]
  constructor
  · rintro ⟨⟨⟨key', id'⟩, row'⟩, he, heq⟩
    obtain ⟨hmem, hkey⟩ := List.mem_filter.mp he
    obtain rfl : key' = key := beq_iff_eq.mp hkey
    obtain ⟨rfl, rfl⟩ := Prod.mk.inj heq
    exact hmem
  · intro hmem
    exact ⟨_, List.mem_filter.mpr ⟨hmem, by simp⟩, rfl⟩

/-- A new row is sorted in. -/
theorem rows_insert (hnew : s.checkpoints.lookup (key, id) = none) (row : CheckpointRow)
    (writes : AList fun _ : Place × String × String × ℕ => String × String) (key' : Place) :
    rows { checkpoints := s.checkpoints.insert (key, id) row, checkpointWrites := writes } key' =
      if key = key' then
        (s.rows key').orderedInsert (fun a b => b.2.createdAt ≤ a.2.createdAt) (id, row)
      else s.rows key' := by
  simp only [rows, AList.entries_insert_of_notMem (AList.lookup_eq_none.mp hnew)]
  split_ifs with hkey
  · rw [List.filter_cons_of_pos (by simpa using hkey), List.map_cons, List.insertionSort_cons]
  · rw [List.filter_cons_of_neg (by simpa using hkey)]

/-- The rows of writes of a checkpoint are those on file. -/
theorem mem_writeRows {r : WriteRow} :
    r ∈ s.writeRows key id ↔
      s.checkpointWrites.lookup (key, id, r.taskId, r.idx) = some (r.channel, r.value) := by
  rw [writeRows, List.mem_insertionSort, List.mem_map, ← Option.mem_def, AList.mem_lookup_iff]
  constructor
  · rintro ⟨⟨⟨key', id', taskId, idx⟩, value⟩, he, rfl⟩
    obtain ⟨hmem, hkey⟩ := List.mem_filter.mp he
    obtain ⟨hkey, hid⟩ := Bool.and_eq_true_iff.mp hkey
    obtain rfl : key' = key := beq_iff_eq.mp hkey
    obtain rfl : id' = id := beq_iff_eq.mp hid
    exact hmem
  · intro hmem
    exact ⟨_, List.mem_filter.mpr ⟨hmem, by simp⟩, rfl⟩

/-- So is a new row of a write. -/
theorem writeRows_insert (r : WriteRow)
    (hnew : s.checkpointWrites.lookup (key, id, r.taskId, r.idx) = none)
    (key' : Place) (id' : String) :
    writeRows { s with
        checkpointWrites := s.checkpointWrites.insert (key, id, r.taskId, r.idx) (r.channel, r.value) }
        key' id' =
      if key = key' ∧ id = id' then (s.writeRows key' id').orderedInsert WriteRow.Before r
      else s.writeRows key' id' := by
  simp only [writeRows, AList.entries_insert_of_notMem (AList.lookup_eq_none.mp hnew)]
  split_ifs with hkey
  · rw [List.filter_cons_of_pos (by simpa using hkey), List.map_cons, List.insertionSort_cons]
  · rw [List.filter_cons_of_neg (by simpa using hkey)]

/-- A `put` empties the writes of the thread and namespace, and no others. -/
theorem writeRows_retain (checkpoints : AList fun _ : Place × String => CheckpointRow) (key' : Place) :
    writeRows { checkpoints, checkpointWrites := retain (fun k => k.1 != key) s.checkpointWrites } key' id =
      if key = key' then [] else s.writeRows key' id := by
  have hfilter : (s.checkpointWrites.entries.filter fun e => e.1.1 != key).filter
      (fun e => e.1.1 == key' && e.1.2.1 == id) =
      if key = key' then []
      else s.checkpointWrites.entries.filter fun e => e.1.1 == key' && e.1.2.1 == id := by
    rw [List.filter_filter]
    split_ifs with hkey
    · refine List.filter_eq_nil_iff.mpr fun e _ => ?_
      by_cases he : e.1.1 = key' <;> simp [he, hkey]
    · refine List.filter_congr fun e _ => ?_
      by_cases he : e.1.1 = key' <;> simp [he, Ne.symm hkey]
  simp only [writeRows, retain, hfilter]
  split_ifs <;> rfl

end SqliteSaver

/-! ### What the savers have in common -/

section Agreement

variable [Formats] {options : SqliteOptions}

/-- A checkpoint of a `MemorySaver`, and the row of the same checkpoint. -/
structure Stored (options : SqliteOptions) (t : CheckpointTuple) (row : String × CheckpointRow) : Prop
    where
  /-- The identifier. -/
  id : row.1 = t.checkpoint.id
  /-- The columns. -/
  row : SqliteSaver.rowOf options.serializer t.checkpoint t.metadata = .ok row.2
  /-- They keep everything. -/
  kept : Kept options t.checkpoint
  /-- Writes are kept apart. -/
  pendingWrites : t.pendingWrites = []

/-- A write, and its row. -/
structure Filed (w : PendingWrite) (r : WriteRow) : Prop where
  /-- The task. -/
  taskId : r.taskId = w.taskId
  /-- The channel. -/
  channel : r.channel = w.channel
  /-- The value. -/
  value : Formats.fromText r.value = .ok w.value

/-- What the two savers have in common after some calls. -/
structure Agree (options : SqliteOptions) (h : List Call) (mem : MemorySaver) (sql : SqliteSaver) :
    Prop where
  /-- The same checkpoints, in the same order. -/
  stored : ∀ key, List.Forall₂ (Stored options) (mem.checkpoints key) (sql.rows key)
  /-- The newest first. -/
  sorted : ∀ key, (mem.checkpoints key).Pairwise MemorySaver.NewerOrSame
  /-- They are those that were put. -/
  perm : ∀ key, ((mem.checkpoints key).map (·.checkpoint)).Perm (checkpointsOf h key)
  /-- The same writes in the same order, where no `put` has removed them. -/
  filed : ∀ key id, ¬ Discarded h key id →
    List.Forall₂ Filed (mem.pendingWrites (key.1, id, key.2)) (sql.writeRows key id)
  /-- A write is of a task whose writes were added. -/
  writes : ∀ key id, ∀ w ∈ mem.pendingWrites (key.1, id, key.2), w.taskId ∈ tasksOf h key id
  /-- So is a row. -/
  rows : ∀ key id, ∀ r ∈ sql.writeRows key id, r.taskId ∈ tasksOf h key id

variable {h : List Call} {mem mem' : MemorySaver} {sql sql' : SqliteSaver}

/-- A call that adds nothing keeps what they have in common. -/
theorem Agree.skip (hagree : Agree options h mem sql) {call : Call}
    (hput : ∀ key, call.checkpointAt key = none) (htask : ∀ key id, call.taskAt key id = none)
    (hcheckpoints : ∀ key, mem'.checkpoints key = mem.checkpoints key)
    (hwrites : ∀ key, mem'.pendingWrites key = mem.pendingWrites key) :
    Agree options (h ++ [call]) mem' sql := by
  have hsame : ∀ key, checkpointsOf (h ++ [call]) key = checkpointsOf h key := by
    intro key
    rw [checkpointsOf_append, checkpointsOf, checkpointsOf, List.filterMap_cons_none (hput key),
      List.filterMap_nil, List.append_nil]
  have htasks : ∀ key id, tasksOf (h ++ [call]) key id = tasksOf h key id := by
    intro key id
    rw [tasksOf_append, tasksOf, tasksOf, List.filterMap_cons_none (htask key id), List.filterMap_nil,
      List.append_nil]
  refine ⟨fun key => ?_, fun key => ?_, fun key => ?_, fun key id hd => ?_, fun key id w hw => ?_,
    fun key id r hr => ?_⟩
  · rw [hcheckpoints]
    exact hagree.stored key
  · rw [hcheckpoints]
    exact hagree.sorted key
  · rw [hcheckpoints, hsame]
    exact hagree.perm key
  · rw [hwrites]
    exact hagree.filed key id fun hbefore => hd hbefore.snoc
  · rw [htasks]
    exact hagree.writes key id w (hwrites _ ▸ hw)
  · rw [htasks]
    exact hagree.rows key id r hr

/-- Where no writes were added, there are none. -/
theorem Agree.pendingWrites_eq_nil (hagree : Agree options h mem sql) {key : Place} {id : String}
    (htasks : tasksOf h key id = []) : mem.pendingWrites (key.1, id, key.2) = [] := by
  refine List.eq_nil_iff_forall_not_mem.mpr fun w hw => ?_
  have hmem := hagree.writes key id w hw
  rw [htasks] at hmem
  cases hmem

/-- A checkpoint that was not put has no row. -/
theorem Agree.lookup_eq_none (hagree : Agree options h mem sql) {key : Place} {id : String}
    (hnew : ∀ cp ∈ checkpointsOf h key, cp.id ≠ id) : sql.checkpoints.lookup (key, id) = none := by
  by_contra hsome
  obtain ⟨row, hrow⟩ := Option.ne_none_iff_exists'.mp hsome
  obtain ⟨t, ht, hstored⟩ :=
    exists_of_forall₂ (hagree.stored key).flip (SqliteSaver.mem_rows.mpr hrow)
  exact hnew _ ((hagree.perm key).subset (List.mem_map_of_mem ht)) hstored.id.symm

/-! ### What is put -/

omit [Formats] in
theorem exists_threadId {config : Config} {key : Place} (hkey : config.key = some key) :
    ∃ threadId, config.threadId = some threadId ∧ config.place threadId = key :=
  Option.map_eq_some_iff.mp hkey

omit [Formats] in
theorem threadId_eq_none {config : Config} (hkey : config.key = none) : config.threadId = none :=
  Option.map_eq_none_iff.mp hkey

/-- A `put` under a new identifier. -/
theorem SqliteSaver.put_of_key {config : Config} {key : Place} (hkey : config.key = some key)
    {cp : Checkpoint} {metadata : CheckpointMetadata} {row : CheckpointRow}
    (hrow : rowOf options.serializer cp metadata = .ok row)
    (hnew : sql.checkpoints.lookup (key, cp.id) = none) :
    sql.put options config cp metadata =
      ({ checkpoints := sql.checkpoints.insert (key, cp.id) row
         checkpointWrites := retain (fun k => k.1 != key) sql.checkpointWrites },
        .ok { config with checkpointId := some cp.id }) := by
  obtain ⟨threadId, hthread, hplace⟩ := exists_threadId hkey
  have hupsert : sql.upsert key cp.id row = sql.checkpoints.insert (key, cp.id) row := by
    rw [upsert, hnew]
  simp [put, getThreadId, Config.getThreadId, hthread, storageOf, Except.mapError, hrow, hplace, hupsert]

omit [Formats] in
theorem MemorySaver.checkpoints_put_of_key {config : Config} {key : Place}
    (hkey : config.key = some key) (cp : Checkpoint) (metadata : CheckpointMetadata) (key' : Place) :
    (mem.put config cp metadata).1.checkpoints key' =
      if key = key' then sortCheckpoints (mem.checkpoints key' ++ [{ config, checkpoint := cp, metadata }])
      else mem.checkpoints key' := by
  obtain ⟨threadId, hthread, hplace⟩ := exists_threadId hkey
  rw [checkpoints_put]
  simp only [Op.putAt, hthread, Option.bind_some, hplace]
  split_ifs <;> rfl

omit [Formats] in
@[simp] theorem MemorySaver.pendingWrites_put (config : Config) (cp : Checkpoint)
    (metadata : CheckpointMetadata) (key : String × String × String) :
    (mem.put config cp metadata).1.pendingWrites key = mem.pendingWrites key := by
  cases hthread : config.threadId <;> simp [put, Config.getThreadId, hthread, pendingWrites]

omit [Formats] in
theorem checkpointsOf_snoc_put {config : Config} {key : Place} (hkey : config.key = some key)
    (cp : Checkpoint) (metadata : CheckpointMetadata) (key' : Place) :
    checkpointsOf (h ++ [.put config cp metadata]) key' =
      checkpointsOf h key' ++ if key = key' then [cp] else [] := by
  rw [checkpointsOf_append]
  congr 1
  by_cases hsame : key = key' <;> simp [checkpointsOf, Call.checkpointAt, hkey, hsame]

/-- A `put` that fits is done by both savers, and keeps what they have in common. -/
theorem Agree.put {config : Config} {cp : Checkpoint} {metadata : CheckpointMetadata}
    (hagree : Agree options h mem sql) (hfits : Fits options h (.put config cp metadata)) :
    Agree options (h ++ [.put config cp metadata]) (mem.put config cp metadata).1
        (sql.put options config cp metadata).1 ∧
      Answer.of .put (mem.put config cp metadata).2 =
        Answer.of .put (sql.put options config cp metadata).2 := by
  cases hkey : config.key with
  | none =>
    have hthread := threadId_eq_none hkey
    have hmem : mem.put config cp metadata = (mem, .error (.storage "thread_id is required")) := by
      simp [MemorySaver.put, Config.getThreadId, hthread]
    obtain ⟨e, hsql⟩ : ∃ e, sql.put options config cp metadata = (sql, .error e) := by
      simp [SqliteSaver.put, SqliteSaver.getThreadId, Config.getThreadId, hthread, SqliteSaver.storageOf,
        Except.mapError]
    rw [hmem, hsql]
    exact ⟨hagree.skip (fun key => by simp [Call.checkpointAt, hkey]) (fun _ _ => rfl) (fun _ => rfl)
      fun _ => rfl, rfl⟩
  | some key =>
    obtain ⟨hkept, ⟨row, hrow⟩, hearlier⟩ := hfits key hkey
    have hnone : sql.checkpoints.lookup (key, cp.id) = none :=
      hagree.lookup_eq_none fun cp hcp => (hearlier cp hcp).1
    have hanswer : (mem.put config cp metadata).2 = .ok { config with checkpointId := some cp.id } := by
      obtain ⟨threadId, hthread, -⟩ := exists_threadId hkey
      simp [MemorySaver.put, Config.getThreadId, hthread]
    rw [SqliteSaver.put_of_key hkey hrow hnone]
    refine ⟨⟨fun key' => ?_, fun key' => ?_, fun key' => ?_, fun key' id hd => ?_, fun key' id w hw => ?_,
      fun key' id r hr => ?_⟩, congrArg _ hanswer⟩
    · rw [MemorySaver.checkpoints_put_of_key hkey, SqliteSaver.rows_insert hnone]
      split_ifs with hsame
      · subst hsame
        rw [MemorySaver.sortCheckpoints_append (hagree.sorted key)]
        refine forall₂_orderedInsert (hagree.stored key) ⟨rfl, hrow, hkept, rfl⟩ fun u hu c huc => ?_
        -- no time of the thread and namespace is that of the new checkpoint
        have hne : u.checkpoint.createdAt ≠ cp.createdAt :=
          (hearlier _ ((hagree.perm key).subset (List.mem_map_of_mem hu))).2
        rw [SqliteSaver.createdAt_rowOf huc.row, SqliteSaver.createdAt_rowOf hrow, not_le]
        simp [MemorySaver.NewerOrSame, Ne.symm hne]
      · exact hagree.stored key'
    · rw [MemorySaver.checkpoints_put_of_key hkey]
      split_ifs
      · exact MemorySaver.pairwise_sortCheckpoints _
      · exact hagree.sorted key'
    · rw [MemorySaver.checkpoints_put_of_key hkey, checkpointsOf_snoc_put hkey]
      split_ifs
      · refine ((List.perm_insertionSort _ _).map _).trans ?_
        rw [List.map_append]
        exact (hagree.perm key').append_right _
      · rw [List.append_nil]
        exact hagree.perm key'
    · rw [MemorySaver.pendingWrites_put, SqliteSaver.writeRows_retain]
      split_ifs with hsame
      · -- the rows are gone, so there must not have been writes
        rw [hagree.pendingWrites_eq_nil]
        · exact .nil
        · by_contra htasks
          exact hd (discarded_snoc_of_put htasks (if_pos (hsame ▸ hkey)))
      · exact hagree.filed key' id fun hbefore => hd hbefore.snoc
    · rw [MemorySaver.pendingWrites_put] at hw
      exact mem_tasksOf_snoc.mpr (.inl (hagree.writes key' id w hw))
    · rw [SqliteSaver.writeRows_retain] at hr
      split_ifs at hr with hsame
      · cases hr
      · exact mem_tasksOf_snoc.mpr (.inl (hagree.rows key' id r hr))

/-! ### What is written -/

omit [Formats] in
/-- Writes of a task that comes behind all others are put behind all others. -/
theorem SqliteSaver.writeRows_insertAll {key : Place} {id taskId : String}
    (values : List (String × String)) {n : ℕ}
    (hbefore : ∀ r ∈ sql.writeRows key id, r.taskId < taskId ∨ r.taskId = taskId ∧ r.idx < n)
    (key' : Place) (id' : String) :
    writeRows { sql with
        checkpointWrites := (values.zipIdx n).foldl (fun table (value, idx) =>
          table.insert (key, id, taskId, idx) value) sql.checkpointWrites } key' id' =
      if key = key' ∧ id = id' then
        sql.writeRows key' id' ++
          (values.zipIdx n).map fun p => ⟨taskId, p.2, p.1.1, p.1.2⟩
      else sql.writeRows key' id' := by
  induction values generalizing sql n with
  | nil => simp
  | cons value values ih =>
    let row : WriteRow := ⟨taskId, n, value.1, value.2⟩
    -- The rows there come before the new ones, so each is inserted at the end.
    have hnew : sql.checkpointWrites.lookup (key, id, taskId, n) = none := by
      by_contra hsome
      obtain ⟨v, hv⟩ := Option.ne_none_iff_exists'.mp hsome
      have hrow := hbefore ⟨taskId, n, v.1, v.2⟩ (mem_writeRows.mpr hv)
      simp at hrow
    have hlast : ∀ r ∈ sql.writeRows key id, ¬ WriteRow.Before row r := by
      intro r hr
      obtain hlt | ⟨heq, hidx⟩ := hbefore r hr
      · rintro (hgt | ⟨heq, -⟩)
        · exact lt_asymm hlt hgt
        · exact hlt.ne heq.symm
      · rintro (hgt | ⟨-, hle⟩)
        · exact hgt.ne heq.symm
        · exact absurd hidx (not_lt.mpr hle)
    have hinsert := writeRows_insert row hnew
    rw [List.zipIdx_cons, List.foldl_cons, List.map_cons]
    let sql' : SqliteSaver :=
      { sql with checkpointWrites := sql.checkpointWrites.insert (key, id, taskId, n) value }
    have hbefore' : ∀ r ∈ sql'.writeRows key id, r.taskId < taskId ∨ r.taskId = taskId ∧ r.idx < n + 1 := by
      intro r hr
      rw [hinsert, if_pos ⟨rfl, rfl⟩, List.mem_orderedInsert] at hr
      obtain rfl | hr := hr
      · exact .inr ⟨rfl, Nat.lt_succ_self n⟩
      · exact (hbefore r hr).imp_right fun hr => ⟨hr.1, hr.2.trans (Nat.lt_succ_self n)⟩
    refine (ih hbefore').trans ?_
    rw [hinsert]
    split_ifs with hsame
    · obtain ⟨rfl, rfl⟩ := hsame
      rw [orderedInsert_eq_append hlast, List.append_assoc]
      rfl
    · rfl

/-- The rows of writes whose values could be written. -/
theorem forall₂_filed {writes : List PendingWrite} {values : List (String × String)}
    (hvalues : List.Forall₂ (fun w v =>
      (SqliteSaver.storage (Formats.toText w.value)).map (fun text => (w.channel, text)) = .ok v)
      writes values) (taskId : String) (n : ℕ) :
    List.Forall₂ Filed (writes.map fun w => { w with taskId })
      ((values.zipIdx n).map fun p => ⟨taskId, p.2, p.1.1, p.1.2⟩) := by
  induction hvalues generalizing n with
  | nil => exact .nil
  | cons hv _ ih =>
    obtain ⟨text, htext, rfl⟩ := ExceptFold.map_eq_ok_iff.mp hv
    rw [List.zipIdx_cons]
    exact .cons ⟨rfl, rfl, Formats.text_faithful _ _ (SqliteSaver.storage_eq_ok.mp htext)⟩ (ih (n + 1))

omit [Formats] in
@[simp] theorem MemorySaver.checkpoints_putWrites (config : Config) (writes : List PendingWrite)
    (taskId : String) (key : Place) :
    (mem.putWrites config writes taskId).1.checkpoints key = mem.checkpoints key := by
  unfold putWrites
  split
  · rfl
  · split <;> rfl

/-- `put_writes` of a checkpoint. -/
theorem SqliteSaver.putWrites_of_key {config : Config} {key : Place} {id : String}
    (hkey : config.key = some key) (hid : config.checkpointId = some id) {writes : List PendingWrite}
    {values : List (String × String)}
    (hvalues : writes.mapM (fun w =>
      (storage (Formats.toText w.value)).map fun text => (w.channel, text)) = .ok values)
    (taskId : String) :
    sql.putWrites config writes taskId =
      ({ sql with checkpointWrites := values.zipIdx.foldl (fun table (value, idx) =>
          table.insert (key, id, taskId, idx) value) sql.checkpointWrites }, .ok ()) := by
  obtain ⟨threadId, hthread, hplace⟩ := exists_threadId hkey
  simp only [putWrites, getThreadId, Config.getThreadId, hthread, storageOf, Except.mapError, hid,
    hvalues, hplace]

omit [Formats] in
theorem MemorySaver.putWrites_of_key (mem : MemorySaver) {config : Config} {key : Place} {id : String}
    (hkey : config.key = some key) (hid : config.checkpointId = some id) (writes : List PendingWrite)
    (taskId : String) :
    (mem.putWrites config writes taskId).2 = .ok () ∧
      ∀ key' id', (mem.putWrites config writes taskId).1.pendingWrites (key'.1, id', key'.2) =
        if key = key' ∧ id = id' then
          mem.pendingWrites (key'.1, id', key'.2) ++ writes.map fun w => { w with taskId }
        else mem.pendingWrites (key'.1, id', key'.2) := by
  obtain ⟨threadId, hthread, rfl⟩ := exists_threadId hkey
  simp only [putWrites, Config.getThreadId, hthread, hid, Config.place, true_and]
  intro key' id'
  by_cases hsame : (threadId, config.getCheckpointNs) = key' ∧ id = id'
  · obtain ⟨rfl, rfl⟩ := hsame
    simp [pendingWrites]
  · have hne : (key'.1, id', key'.2) ≠ (threadId, id, config.getCheckpointNs) := by
      intro heq
      obtain ⟨h1, h2, h3⟩ : key'.1 = threadId ∧ id' = id ∧ key'.2 = config.getCheckpointNs := by
        simpa using heq
      exact hsame ⟨Prod.ext h1.symm h3.symm, h2.symm⟩
    simp only [pendingWrites, AList.lookup_insert_ne hne, hsame, ↓reduceIte]

omit [Formats] in
/-- Without a checkpoint to write to, `put_writes` fails. -/
theorem MemorySaver.putWrites_refused (mem : MemorySaver) {config : Config}
    (h : ¬ ∃ key id, config.key = some key ∧ config.checkpointId = some id) (writes : List PendingWrite)
    (taskId : String) : ∃ e, mem.putWrites config writes taskId = (mem, .error e) := by
  unfold putWrites
  cases hthread : config.threadId with
  | none => simp [Config.getThreadId, hthread]
  | some threadId =>
    cases hid : config.checkpointId with
    | none => simp [Config.getThreadId, hthread]
    | some id => exact absurd ⟨_, _, by rw [Config.key, hthread]; rfl, hid⟩ h

theorem SqliteSaver.putWrites_refused (sql : SqliteSaver) {config : Config}
    (h : ¬ ∃ key id, config.key = some key ∧ config.checkpointId = some id) (writes : List PendingWrite)
    (taskId : String) : ∃ e, sql.putWrites config writes taskId = (sql, .error e) := by
  unfold putWrites
  cases hthread : config.threadId with
  | none => simp [getThreadId, Config.getThreadId, hthread, storageOf, Except.mapError]
  | some threadId =>
    cases hid : config.checkpointId with
    | none => simp [getThreadId, Config.getThreadId, hthread, storageOf, Except.mapError]
    | some id => exact absurd ⟨_, _, by rw [Config.key, hthread]; rfl, hid⟩ h

/-- Writes of a task that comes behind all others leave both savers with the same in common. -/
theorem Agree.file {config : Config} {writes : List PendingWrite} {taskId : String}
    (hagree : Agree options h mem sql) {key : Place} {id : String} (hkey : config.key = some key)
    (hid : config.checkpointId = some id) {values : List (String × String)}
    (hvalues : writes.mapM (fun w =>
      (SqliteSaver.storage (Formats.toText w.value)).map fun text => (w.channel, text)) = .ok values)
    (hsome : writes ≠ []) (hbehind : ∀ r ∈ sql.writeRows key id, r.taskId < taskId) :
    Agree options (h ++ [.putWrites config writes taskId]) (mem.putWrites config writes taskId).1
      (sql.putWrites config writes taskId).1 := by
  obtain ⟨-, hpending⟩ := mem.putWrites_of_key hkey hid writes taskId
  have hnew := forall₂_filed (ExceptFold.mapM_eq_ok_iff.mp hvalues) taskId 0
  have hat : ∀ key' id', (Call.putWrites config writes taskId).taskAt key' id' =
      if key = key' ∧ id = id' then some taskId else none := by
    intro key' id'
    simp [Call.taskAt, hkey, hid, hsome]
  have hrows := SqliteSaver.writeRows_insertAll values (n := 0) fun r hr => .inl (hbehind r hr)
  rw [SqliteSaver.putWrites_of_key hkey hid hvalues]
  refine ⟨fun key' => ?_, fun key' => ?_, fun key' => ?_, fun key' id' hd => ?_,
    fun key' id' w hw => ?_, fun key' id' r hr => ?_⟩
  · rw [MemorySaver.checkpoints_putWrites]
    exact hagree.stored key'
  · rw [MemorySaver.checkpoints_putWrites]
    exact hagree.sorted key'
  · rw [MemorySaver.checkpoints_putWrites, checkpointsOf_append]
    exact (hagree.perm key').trans (.of_eq (List.append_nil _).symm)
  · rw [hpending, hrows]
    have hbefore := hagree.filed key' id' fun hbefore => hd hbefore.snoc
    split_ifs
    · exact List.rel_append hbefore hnew
    · exact hbefore
  · rw [hpending] at hw
    rw [mem_tasksOf_snoc, hat]
    split_ifs at hw ⊢
    · obtain hw | hw := List.mem_append.mp hw
      · exact .inl (hagree.writes key' id' w hw)
      · obtain ⟨v, -, rfl⟩ := List.mem_map.mp hw
        exact .inr rfl
    · exact .inl (hagree.writes key' id' w hw)
  · rw [hrows] at hr
    rw [mem_tasksOf_snoc, hat]
    split_ifs at hr ⊢
    · obtain hr | hr := List.mem_append.mp hr
      · exact .inl (hagree.rows key' id' r hr)
      · obtain ⟨v, -, rfl⟩ := List.mem_map.mp hr
        exact .inr rfl
    · exact .inl (hagree.rows key' id' r hr)

/-- A `put_writes` that fits is done by both savers, and keeps what they have in common. -/
theorem Agree.putWrites {config : Config} {writes : List PendingWrite} {taskId : String}
    (hagree : Agree options h mem sql) (hfits : Fits options h (.putWrites config writes taskId)) :
    Agree options (h ++ [.putWrites config writes taskId]) (mem.putWrites config writes taskId).1
        (sql.putWrites config writes taskId).1 ∧
      Answer.of (fun _ => .written) (mem.putWrites config writes taskId).2 =
        Answer.of (fun _ => .written) (sql.putWrites config writes taskId).2 := by
  by_cases htarget : ∃ key id, config.key = some key ∧ config.checkpointId = some id
  · obtain ⟨key, id, hkey, hid⟩ := htarget
    obtain ⟨htexts, horder⟩ := hfits key hkey id hid
    obtain ⟨values, hvalues⟩ : ∃ values, writes.mapM (fun w =>
        (SqliteSaver.storage (Formats.toText w.value)).map fun text => (w.channel, text)) =
        .ok values := by
      refine ExceptFold.mapM_eq_ok_of_forall fun w hw => ?_
      obtain ⟨text, htext⟩ := htexts w hw
      exact ⟨_, by rw [SqliteSaver.storage_eq_ok.mpr htext]; rfl⟩
    obtain ⟨hanswer, hpending⟩ := mem.putWrites_of_key hkey hid writes taskId
    have hboth : (mem.putWrites config writes taskId).2 = (sql.putWrites config writes taskId).2 := by
      rw [SqliteSaver.putWrites_of_key hkey hid hvalues, hanswer]
    refine ⟨?_, congrArg _ hboth⟩
    -- without writes nothing is filed, and the order of the tasks does not matter
    by_cases hnone : writes = []
    · subst hnone
      obtain rfl : [] = values := by simpa using ExceptFold.mapM_eq_ok_iff.mp hvalues
      rw [SqliteSaver.putWrites_of_key hkey hid hvalues]
      refine hagree.skip (fun _ => rfl) (fun _ _ => by simp [Call.taskAt])
        (fun _ => MemorySaver.checkpoints_putWrites ..) fun k => ?_
      have hk := hpending (k.1, k.2.2) k.2.1
      simpa using hk
    · exact hagree.file hkey hid hvalues hnone
        fun r hr => horder hnone _ (hagree.rows key id r hr)
  · -- both refuse it
    have hskip : ∀ key id, (Call.putWrites config writes taskId).taskAt key id = none := by
      intro key id
      refine if_neg fun hat => htarget ⟨key, id, hat.1, hat.2.1⟩
    obtain ⟨e, hmem⟩ := mem.putWrites_refused htarget writes taskId
    obtain ⟨e', hsql⟩ := sql.putWrites_refused htarget writes taskId
    rw [hmem, hsql]
    exact ⟨hagree.skip (fun _ => rfl) hskip (fun _ => rfl) fun _ => rfl, rfl⟩

/-! ### What is read -/

section Clock

variable [Chrono]

omit [Formats] in
@[simp] theorem MemorySaver.pendingWrites_lazyCleanup_disabled (now : ℕ → ℤ) (threadId ns : String)
    (key : String × String × String) :
    (mem.lazyCleanup .disabled now threadId ns).pendingWrites key = mem.pendingWrites key := rfl

omit [Formats] in
theorem MemorySaver.getTuple_of_key {config : Config} {key : Place} (hkey : config.key = some key)
    (now : ℕ → ℤ) :
    (mem.getTuple .disabled now config).2 =
      .ok ((select config (mem.checkpoints key)).map fun t =>
        { t with pendingWrites := mem.pendingWrites (key.1, t.checkpoint.id, key.2) }) := by
  obtain ⟨threadId, hthread, rfl⟩ := exists_threadId hkey
  simp only [getTuple, Config.getThreadId, hthread, checkpoints_lazyCleanup_disabled,
    pendingWrites_lazyCleanup_disabled, Config.place]

omit [Formats] in
theorem MemorySaver.list_of_key {config : Config} {key : Place} (hkey : config.key = some key)
    (now : ℕ → ℤ) (filter : Option CheckpointFilter) :
    (mem.list .disabled now config filter).2 =
      .ok (match filter with
        | some f => f.apply (mem.checkpoints key)
        | none => mem.checkpoints key) := by
  obtain ⟨threadId, hthread, rfl⟩ := exists_threadId hkey
  cases filter <;>
    simp only [list, Config.getThreadId, hthread, checkpoints_lazyCleanup_disabled, Config.place]

omit [Formats] in
/-- Reading moves nothing that can be seen. -/
theorem MemorySaver.getTuple_keeps (config : Config) (now : ℕ → ℤ) :
    (∀ key, (mem.getTuple .disabled now config).1.checkpoints key = mem.checkpoints key) ∧
      ∀ key, (mem.getTuple .disabled now config).1.pendingWrites key = mem.pendingWrites key := by
  cases hthread : config.threadId <;>
    simp [getTuple, Config.getThreadId, hthread, checkpoints_lazyCleanup_disabled]

omit [Formats] in
theorem MemorySaver.list_keeps (config : Config) (now : ℕ → ℤ) (filter : Option CheckpointFilter) :
    (∀ key, (mem.list .disabled now config filter).1.checkpoints key = mem.checkpoints key) ∧
      ∀ key, (mem.list .disabled now config filter).1.pendingWrites key = mem.pendingWrites key := by
  cases hthread : config.threadId <;>
    simp [list, Config.getThreadId, hthread, checkpoints_lazyCleanup_disabled]

end Clock

/-- A tuple as it is built from a row. -/
def CheckpointTuple.reread (config : Config) (t : CheckpointTuple) : CheckpointTuple :=
  { config, checkpoint := t.checkpoint, metadata := t.metadata }

/-- The tuple of a row. -/
theorem Stored.rowToTuple {t : CheckpointTuple} {row : String × CheckpointRow}
    (hstored : Stored options t row) (config : Config) :
    SqliteSaver.rowToTuple options config row = .ok (t.reread config) := by
  have hkept := hstored.kept
  have hcheckpoint :
      SqliteSaver.deserializeCheckpoint options row.1 row.2 = .ok t.checkpoint := by
    rw [hstored.id]
    refine (SqliteSaver.deserializeCheckpoint_rowOf hstored.row row.2.createdAt).mpr
      ⟨_, _, hkept.values, SqliteSaver.migrateCheckpointSchema_eq_ok.mpr (.inl ⟨hkept.schemaVersion, rfl⟩),
        ?_⟩
    rw [SqliteSaver.createdAt_rowOf hstored.row, ← hkept.v, ← hkept.newVersions, ← hkept.counters]
  simp only [SqliteSaver.rowToTuple, hcheckpoint, SqliteSaver.metadata_rowOf hstored.row]
  rfl

/-- The tuples of rows. -/
theorem mapM_rowToTuple {ts : List CheckpointTuple} {rows : List (String × CheckpointRow)}
    (hstored : List.Forall₂ (Stored options) ts rows) (config : Config) :
    rows.mapM (SqliteSaver.rowToTuple options config) = .ok (ts.map (·.reread config)) := by
  rw [ExceptFold.mapM_eq_ok_iff, List.forall₂_map_right_iff]
  exact (hstored.imp fun _ _ h => h.rowToTuple config).flip

/-- They are told apart by their configurations only. -/
theorem map_reread_plain {ts : List CheckpointTuple} {rows : List (String × CheckpointRow)}
    (hstored : List.Forall₂ (Stored options) ts rows) (config : Config) :
    (ts.map (·.reread config)).map (·.plain) = ts.map (·.plain) := by
  rw [List.map_map]
  refine List.map_congr_left fun t ht => ?_
  obtain ⟨row, -, hrow⟩ := exists_of_forall₂ hstored ht
  simp [CheckpointTuple.plain, CheckpointTuple.reread, hrow.pendingWrites]

/-- The writes of rows. -/
theorem loadPendingWrites_of_forall₂ {key : Place} {id : String} {writes : List PendingWrite}
    (hfiled : List.Forall₂ Filed writes (sql.writeRows key id)) :
    sql.loadPendingWrites key id = .ok writes := by
  refine ExceptFold.mapM_eq_ok_iff.mpr (List.Forall₂.flip (hfiled.imp fun w r hr => ?_))
  show _ = _
  rw [SqliteSaver.storage_eq_ok.mpr hr.value]
  exact congrArg Except.ok (by rw [hr.taskId, hr.channel])

/-- Both savers select the same checkpoint. -/
theorem Agree.select (hagree : Agree options h mem sql) (config : Config) (key : Place) :
    Option.Rel (Stored options) (MemorySaver.select config (mem.checkpoints key))
      (sql.select config key) := by
  have hall := hagree.stored key
  cases hid : config.checkpointId with
  | none =>
    simp only [MemorySaver.select, SqliteSaver.select, hid]
    generalize mem.checkpoints key = ts, sql.rows key = rows at hall
    cases hall with
    | nil => exact .none
    | cons hstored _ => exact .some hstored
  | some id =>
    simp only [MemorySaver.select, SqliteSaver.select, hid]
    cases hfind : (mem.checkpoints key).find? fun t => t.checkpoint.id == id with
    | none =>
      cases hlookup : sql.checkpoints.lookup (key, id) with
      | none => exact .none
      | some row =>
        obtain ⟨t, ht, hstored⟩ :=
          exists_of_forall₂ hall.flip (SqliteSaver.mem_rows.mpr hlookup)
        exact absurd (beq_iff_eq.mpr hstored.id.symm) (List.find?_eq_none.mp hfind t ht)
    | some t =>
      obtain rfl : t.checkpoint.id = id := by simpa using List.find?_some hfind
      obtain ⟨⟨id, row⟩, hrow, hstored⟩ :=
        exists_of_forall₂ hall (List.mem_of_find?_eq_some hfind)
      obtain rfl : id = t.checkpoint.id := hstored.id
      rw [SqliteSaver.mem_rows.mp hrow]
      exact .some hstored

/-- The writes of the checkpoint that a fitting `get_tuple` selects are still there. -/
theorem Agree.not_discarded (hagree : Agree options h mem sql) {config : Config} {key : Place}
    (hkey : config.key = some key) (hfits : Fits options h (.getTuple config)) {t : CheckpointTuple}
    (ht : MemorySaver.select config (mem.checkpoints key) = some t) :
    ¬ Discarded h key t.checkpoint.id := by
  have hkept := hfits key hkey
  unfold MemorySaver.select at ht
  cases hid : config.checkpointId with
  | none =>
    simp only [hid] at ht hkept
    obtain ⟨rest, hts⟩ := List.head?_eq_some_iff.mp ht
    have hperm := hagree.perm key
    have hsorted := hagree.sorted key
    rw [hts] at hperm hsorted
    refine hkept _ (hperm.subset List.mem_cons_self) fun cp hcp => ?_
    obtain ⟨u, hu, rfl⟩ := List.mem_map.mp (hperm.symm.subset hcp)
    obtain rfl | hu := List.mem_cons.mp hu
    · exact le_rfl
    · obtain hlt | ⟨heq, -⟩ := (List.pairwise_cons.mp hsorted).1 u hu
      · exact hlt.le
      · exact heq.le
  | some id =>
    simp only [hid] at ht hkept
    have hfound : t.checkpoint.id = id := by simpa using List.find?_some ht
    rwa [hfound]

/-- A `get_tuple` that fits is answered alike. -/
theorem Agree.getTuple [Chrono] (hagree : Agree options h mem sql) {config : Config}
    (hfits : Fits options h (.getTuple config)) (now : ℕ → ℤ) :
    Answer.of .ofFound (mem.getTuple .disabled now config).2 =
      Answer.of .ofFound (sql.getTuple options config) := by
  cases hkey : config.key with
  | none =>
    have hthread := threadId_eq_none hkey
    simp [MemorySaver.getTuple, SqliteSaver.getTuple, SqliteSaver.getThreadId, Config.getThreadId,
      hthread, SqliteSaver.storageOf, Except.mapError, Answer.of, bind, Except.bind]
  | some key =>
    rw [MemorySaver.getTuple_of_key hkey, SqliteSaver.getTuple_of_key hkey]
    cases hmem : MemorySaver.select config (mem.checkpoints key) with
    | none =>
      have hselect := hagree.select config key
      rw [hmem] at hselect
      cases hsql : sql.select config key with
      | none => rfl
      | some row =>
        rw [hsql] at hselect
        cases hselect
    | some t =>
      have hselect := hagree.select config key
      rw [hmem] at hselect
      cases hsql : sql.select config key with
      | none =>
        rw [hsql] at hselect
        cases hselect
      | some row =>
        rw [hsql] at hselect
        obtain ⟨hstored⟩ := hselect
        have hwrites := loadPendingWrites_of_forall₂
          (hagree.filed key t.checkpoint.id (hagree.not_discarded hkey hfits hmem))
        have hload : sql.loadTuple options config key row =
            .ok { t.reread config with
              pendingWrites := mem.pendingWrites (key.1, t.checkpoint.id, key.2) } := by
          rw [SqliteSaver.loadTuple, hstored.rowToTuple config]
          show (sql.loadPendingWrites key t.checkpoint.id >>= _) = _
          rw [hwrites]
          rfl
        simp only [hload]
        rfl

/-! ### What is listed -/

omit [Formats] in
/-- A filter does not look at the configurations. -/
theorem CheckpointFilter.map_apply (f : CheckpointFilter) (ts : List CheckpointTuple) :
    (f.apply ts).map (·.plain) = f.apply (ts.map (·.plain)) := by
  have hbefore : ∀ id (ts : List CheckpointTuple), (MemorySaver.takeBefore id ts).map (·.plain) =
      MemorySaver.takeBefore id (ts.map (·.plain)) := by
    intro id ts
    cases id with
    | none => rfl
    | some id =>
      simp only [MemorySaver.takeBefore, Option.bind_some, List.findIdx?_map]
      show _ = match List.findIdx? (fun t => t.checkpoint.id == id) ts with
        | some pos => (ts.map CheckpointTuple.plain).take pos
        | none => ts.map CheckpointTuple.plain
      cases List.findIdx? (fun t => t.checkpoint.id == id) ts with
      | none => rfl
      | some pos => exact List.map_take
  have hthrough : ∀ id (ts : List CheckpointTuple), (MemorySaver.dropThrough id ts).map (·.plain) =
      MemorySaver.dropThrough id (ts.map (·.plain)) := by
    intro id ts
    cases id with
    | none => rfl
    | some id =>
      simp only [MemorySaver.dropThrough, Option.bind_some, List.findIdx?_map]
      show _ = match List.findIdx? (fun t => t.checkpoint.id == id) ts with
        | some pos => (ts.map CheckpointTuple.plain).drop (pos + 1)
        | none => ts.map CheckpointTuple.plain
      cases List.findIdx? (fun t => t.checkpoint.id == id) ts with
      | none => rfl
      | some pos => exact List.map_drop
  have hfilter : ∀ (p : CheckpointTuple → Bool), (∀ t, p t.plain = p t) → ∀ ts : List CheckpointTuple,
      (ts.filter p).map (·.plain) = (ts.map (·.plain)).filter p := by
    intro p hp ts
    rw [List.filter_map]
    exact congrArg _ (List.filter_congr fun t _ => (hp t).symm)
  simp only [apply]
  rw [← hfilter _ fun _ => rfl, ← hfilter _ fun _ => rfl, ← hfilter _ fun _ => rfl, ← hbefore, ← hthrough]
  cases f.limit with
  | none => rfl
  | some limit => exact List.map_take

omit [Formats] in
/-- A filter that only limits. -/
theorem CheckpointFilter.apply_of_limit {f : CheckpointFilter}
    (hf : SqliteSaver.hasNonLimitFilter f = false) (ts : List CheckpointTuple) :
    f.apply ts = match f.limit with
      | some limit => ts.take limit
      | none => ts := by
  obtain ⟨source, stepGte, stepLte, before, after, limit⟩ := f
  simp only [SqliteSaver.hasNonLimitFilter, Bool.or_eq_false_iff, Option.isSome_eq_false_iff,
    Option.isNone_iff_eq_none] at hf
  obtain ⟨⟨⟨⟨rfl, rfl⟩, rfl⟩, rfl⟩, rfl⟩ := hf
  cases limit <;> simp [apply, MemorySaver.takeBefore, MemorySaver.dropThrough]

/-- A `list` that fits is answered alike. -/
theorem Agree.list [Chrono] (hagree : Agree options h mem sql) {config : Config}
    {filter : Option CheckpointFilter} (hfits : Fits options h (.list config filter)) (now : ℕ → ℤ) :
    Answer.of .ofList (mem.list .disabled now config filter).2 =
      Answer.of .ofList (sql.list options config filter) := by
  cases hkey : config.key with
  | none =>
    have hthread := threadId_eq_none hkey
    simp [MemorySaver.list, SqliteSaver.list, SqliteSaver.getThreadId, Config.getThreadId,
      hthread, SqliteSaver.storageOf, Except.mapError, Answer.of, bind, Except.bind]
  | some key =>
    obtain ⟨threadId, hthread, hplace⟩ := exists_threadId hkey
    have hstored := hagree.stored key
    have hlength : (mem.checkpoints key).length = (checkpointsOf h key).length := by
      simpa using (hagree.perm key).length_eq
    rw [MemorySaver.list_of_key hkey]
    generalize mem.checkpoints key = ts at hstored hlength
    have hthreadId : SqliteSaver.getThreadId config = .ok threadId := by
      rw [SqliteSaver.getThreadId, SqliteSaver.storageOf_eq_ok, Config.getThreadId, hthread]
    have hlimited := fun limit => mapM_rowToTuple (List.forall₂_take limit hstored) config
    simp only [SqliteSaver.list, hthreadId, hplace, bind, Except.bind]
    have hten : ts.length ≤ 10 → ts.take 10 = ts := List.take_of_length_le
    have hsmall : 10 < 2 ^ 63 := by decide
    have hlimit := hfits key hkey
    cases filter with
    | none =>
      have hall := hten (hlength.trans_le (hlimit rfl))
      simp only [Option.any_none, Bool.false_eq_true, ↓reduceIte, Option.bind_none, Option.getD_none,
        if_pos hsmall, hlimited, hall, SqliteSaver.storageOf, Except.mapError, Answer.of, Answer.ofList]
      rw [map_reread_plain hstored]
    | some f =>
      simp only [Option.any_some, Option.bind_some] at hlimit ⊢
      by_cases hf : SqliteSaver.hasNonLimitFilter f = true
      · simp only [hf, ↓reduceIte, mapM_rowToTuple hstored config, SqliteSaver.storageOf, Except.mapError,
          Answer.of, Answer.ofList]
        rw [CheckpointFilter.map_apply, CheckpointFilter.map_apply, map_reread_plain hstored]
      · rw [Bool.not_eq_true] at hf
        have hlimit := hlimit hf
        rw [CheckpointFilter.apply_of_limit hf]
        simp only [hf, Bool.false_eq_true, ↓reduceIte]
        cases hnumber : f.limit with
        | none =>
          simp only [hnumber] at hlimit
          have hall := hten (hlength.trans_le hlimit)
          simp only [Option.getD_none, if_pos hsmall, hlimited, hall, SqliteSaver.storageOf,
            Except.mapError, Answer.of, Answer.ofList]
          rw [map_reread_plain hstored]
        | some limit =>
          simp only [hnumber] at hlimit
          simp only [Option.getD_some, if_pos hlimit, hlimited, SqliteSaver.storageOf, Except.mapError,
            Answer.of, Answer.ofList]
          -- the statement has limited the rows, and the limit is applied once more
          rw [← List.map_take, List.take_take, Nat.min_self,
            map_reread_plain (List.forall₂_take limit hstored)]

end Agreement

/-! ### Runs -/

section Runs

variable [Chrono] [Formats] (options : SqliteOptions)

variable {options}

/-- One call: the answers are the same, and the savers go on having the same in common. -/
theorem Agree.take {h : List Call} {mem : MemorySaver} {sql : SqliteSaver}
    (hagree : Agree options h mem sql) {call : Call × (ℕ → ℤ)} (hfits : Fits options h call.1) :
    Agree options (h ++ [call.1]) (mem.take call).1 (sql.take options call).1 ∧
      (mem.take call).2 = (sql.take options call).2 := by
  obtain ⟨call, now⟩ := call
  cases call with
  | put config checkpoint metadata => exact hagree.put hfits
  | putWrites config writes taskId => exact hagree.putWrites hfits
  | getTuple config =>
    obtain ⟨hcheckpoints, hwrites⟩ := mem.getTuple_keeps config now
    exact ⟨hagree.skip (fun _ => rfl) (fun _ _ => rfl) hcheckpoints hwrites, hagree.getTuple hfits now⟩
  | list config filter =>
    obtain ⟨hcheckpoints, hwrites⟩ := mem.list_keeps config now filter
    exact ⟨hagree.skip (fun _ => rfl) (fun _ _ => rfl) hcheckpoints hwrites, hagree.list hfits now⟩

end Runs

/-! ### A checkpoint that is put again -/

/-- How many checkpoints an answer lists. -/
def Answer.size : Answer → ℕ
  | .listed tuples => tuples.length
  | _ => 0

end Saver

end Juncture
