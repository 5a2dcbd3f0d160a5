import Juncture.Saver.Types
import Mathlib.Data.List.Sort
import Mathlib.Data.String.Basic

/-!
# `MemorySaver`

`MemorySaver` keeps the checkpoints of each thread and namespace, newest first, and apart from them
the writes that were added to each.  Before it reads, it cleans up: checkpoints that have expired or
are over the limit are dropped, and so should be their writes.

The clock is read once for each checkpoint that is looked at; `now i` is reading `i`.
-/

namespace Juncture

namespace Saver

/-- `HashMap::retain`, by key. -/
def retain {α : Type} {β : Type} (p : α → Bool) (d : AList fun _ : α => β) : AList fun _ : α => β :=
  ⟨d.entries.filter fun e => p e.1, d.nodupKeys.sublist List.filter_sublist⟩

theorem lookup_retain {α : Type} {β : Type} [DecidableEq α] (p : α → Bool)
    (d : AList fun _ : α => β) (a : α) :
    (retain p d).lookup a = if p a then d.lookup a else none := by
  ext b
  show b ∈ (retain p d).lookup a ↔ b ∈ if p a then d.lookup a else none
  rw [AList.mem_lookup_iff]
  simp only [retain, List.mem_filter]
  split_ifs with h
  · rw [AList.mem_lookup_iff]
    exact and_iff_left h
  · exact iff_of_false (fun hmem => h hmem.2) (by simp)

/-- `MemorySaver`, without its TTL configuration. -/
structure MemorySaver where
  /-- Checkpoints of a thread and namespace, newest first. -/
  storage : AList fun _ : Place => List CheckpointTuple := ∅
  /-- Writes of a thread, checkpoint and namespace. -/
  writes : AList fun _ : String × String × String => List PendingWrite := ∅

namespace MemorySaver

/-- The checkpoints of a thread and namespace. -/
def checkpoints (s : MemorySaver) (key : Place) : List CheckpointTuple :=
  (s.storage.lookup key).getD []

/-- The writes of a thread, checkpoint and namespace. -/
def pendingWrites (s : MemorySaver) (key : String × String × String) : List PendingWrite :=
  (s.writes.lookup key).getD []

/-- The order of `sort_checkpoints`: newest first. -/
def NewerOrSame (a b : CheckpointTuple) : Prop :=
  b.checkpoint.createdAt < a.checkpoint.createdAt ∨
    b.checkpoint.createdAt = a.checkpoint.createdAt ∧ b.checkpoint.id ≤ a.checkpoint.id

instance : DecidableRel NewerOrSame := fun _ _ => inferInstanceAs (Decidable (_ ∨ _))

/-- `sort_checkpoints`; the sort is stable. -/
def sortCheckpoints (checkpoints : List CheckpointTuple) : List CheckpointTuple :=
  checkpoints.insertionSort NewerOrSame

section Cleanup

variable [Chrono] (ttl : TtlConfig) (now : ℕ → ℤ)

/-- The checkpoints that have not expired. -/
def unexpired (checkpoints : List CheckpointTuple) : List CheckpointTuple :=
  (checkpoints.zipIdx.filter fun p => !ttl.isExpired (now p.2) p.1.checkpoint.createdAt).map Prod.fst

/-- `lazy_cleanup`.  It returns early without a limit, and the pattern `(thread, ns, id)` that it takes
the keys of the writes apart with has the last two components the other way round. -/
def lazyCleanup (s : MemorySaver) (threadId ns : String) : MemorySaver :=
  let original := s.checkpoints (threadId, ns)
  let checkpoints := unexpired ttl now original
  match ttl.maxCheckpoints with
  | none => { s with storage := s.storage.insert (threadId, ns) checkpoints }
  | some max =>
    let kept := checkpoints.take max
    let storage := s.storage.insert (threadId, ns) kept
    if 0 < original.length - checkpoints.length then
      { storage
        writes := retain (fun (thread, ns', id) => thread == threadId && ns' == ns &&
          (kept.map fun t => t.checkpoint.id).contains id) s.writes }
    else { s with storage }

/-- The checkpoint that a configuration asks for: the one it names, or the newest. -/
def select (config : Config) (checkpoints : List CheckpointTuple) : Option CheckpointTuple :=
  match config.checkpointId with
  | none => checkpoints.head?
  | some id => checkpoints.find? fun t => t.checkpoint.id == id

/-- `get_tuple`. -/
def getTuple (s : MemorySaver) (config : Config) :
    MemorySaver × Except CheckpointError (Option CheckpointTuple) :=
  match config.getThreadId with
  | .error e => (s, .error e)
  | .ok threadId =>
    let ns := config.getCheckpointNs
    let s := s.lazyCleanup ttl now threadId ns
    (s, .ok ((select config (s.checkpoints (threadId, ns))).map fun t =>
      { t with pendingWrites := s.pendingWrites (threadId, t.checkpoint.id, ns) }))

/-- What comes before the checkpoint of the given identifier, if it is there. -/
def takeBefore (id : Option String) (checkpoints : List CheckpointTuple) : List CheckpointTuple :=
  match id.bind fun id => checkpoints.findIdx? fun t => t.checkpoint.id == id with
  | some pos => checkpoints.take pos
  | none => checkpoints

/-- What comes after it. -/
def dropThrough (id : Option String) (checkpoints : List CheckpointTuple) : List CheckpointTuple :=
  match id.bind fun id => checkpoints.findIdx? fun t => t.checkpoint.id == id with
  | some pos => checkpoints.drop (pos + 1)
  | none => checkpoints

end Cleanup

end MemorySaver

/-- The filter of `list`, which both savers apply in this order. -/
def CheckpointFilter.apply (f : CheckpointFilter) (checkpoints : List CheckpointTuple) :
    List CheckpointTuple :=
  let checkpoints := checkpoints.filter fun t => f.source.all fun source => t.metadata.source == source
  let checkpoints := checkpoints.filter fun t => f.stepGte.all fun step => decide (step ≤ t.metadata.step)
  let checkpoints := checkpoints.filter fun t => f.stepLte.all fun step => decide (t.metadata.step ≤ step)
  let checkpoints := MemorySaver.takeBefore f.before checkpoints
  let checkpoints := MemorySaver.dropThrough f.after checkpoints
  match f.limit with
  | some limit => checkpoints.take limit
  | none => checkpoints

namespace MemorySaver

section Calls

variable [Chrono] (ttl : TtlConfig) (now : ℕ → ℤ)

/-- `list`. -/
def list (s : MemorySaver) (config : Config) (filter : Option CheckpointFilter) :
    MemorySaver × Except CheckpointError (List CheckpointTuple) :=
  match config.getThreadId with
  | .error e => (s, .error e)
  | .ok threadId =>
    let ns := config.getCheckpointNs
    let s := s.lazyCleanup ttl now threadId ns
    let checkpoints := s.checkpoints (threadId, ns)
    (s, .ok (match filter with
      | some f => f.apply checkpoints
      | none => checkpoints))

end Calls

/-- `put`. -/
def put (s : MemorySaver) (config : Config) (checkpoint : Checkpoint)
    (metadata : CheckpointMetadata) : MemorySaver × Except CheckpointError Config :=
  match config.getThreadId with
  | .error e => (s, .error e)
  | .ok threadId =>
    let key := (threadId, config.getCheckpointNs)
    let checkpoints := s.checkpoints key ++ [{ config, checkpoint, metadata }]
    ({ s with storage := s.storage.insert key (sortCheckpoints checkpoints) },
      .ok { config with checkpointId := some checkpoint.id })

/-- `put_writes`. -/
def putWrites (s : MemorySaver) (config : Config) (writes : List PendingWrite) (taskId : String) :
    MemorySaver × Except CheckpointError Unit :=
  match config.getThreadId with
  | .error e => (s, .error e)
  | .ok threadId =>
    match config.checkpointId with
    | none => (s, .error (.storage "checkpoint_id is required"))
    | some checkpointId =>
      let key := (threadId, checkpointId, config.getCheckpointNs)
      let preparedWrites := writes.map fun w => { w with taskId }
      ({ s with writes := s.writes.insert key (s.pendingWrites key ++ preparedWrites) }, .ok ())

/-! ### The order of the checkpoints -/

instance : Std.Total NewerOrSame where
  total a b := by
    unfold NewerOrSame
    obtain h | h | h := lt_trichotomy a.checkpoint.createdAt b.checkpoint.createdAt
    · exact .inr (.inl h)
    · obtain hid | hid := le_total a.checkpoint.id b.checkpoint.id
      · exact .inr (.inr ⟨h, hid⟩)
      · exact .inl (.inr ⟨h.symm, hid⟩)
    · exact .inl (.inl h)

instance : IsTrans CheckpointTuple NewerOrSame where
  trans a b c := by
    rintro (hab | ⟨hab, hi⟩) (hbc | ⟨hbc, hj⟩)
    · exact .inl (hbc.trans hab)
    · exact .inl (hbc ▸ hab)
    · exact .inl (hab ▸ hbc)
    · exact .inr ⟨hbc.trans hab, hj.trans hi⟩

/-- A new checkpoint is put behind those that are newer or of the same age. -/
theorem sortCheckpoints_append {ts : List CheckpointTuple} (h : ts.Pairwise NewerOrSame)
    (t : CheckpointTuple) :
    sortCheckpoints (ts ++ [t]) =
      ts.takeWhile (fun u => decide (NewerOrSame u t)) ++
        t :: ts.dropWhile fun u => decide (NewerOrSame u t) := by
  unfold sortCheckpoints
  induction ts with
  | nil => rfl
  | cons u ts ih =>
    obtain ⟨hall, hts⟩ := List.pairwise_cons.1 h
    by_cases hu : NewerOrSame u t
    · -- `u` is in front of everything that is sorted in
      have hfront : ∀ v ∈ ts ++ [t], NewerOrSame u v := by
        intro v hv
        obtain hv | hv := List.mem_append.1 hv
        · exact hall v hv
        · rw [List.mem_singleton.1 hv]
          exact hu
      rw [List.cons_append, List.insertionSort_cons_of_forall_rel NewerOrSame hfront, ih hts,
        List.takeWhile_cons_of_pos (by simpa using hu),
        List.dropWhile_cons_of_pos (by simpa using hu), List.cons_append]
    · -- nothing behind `u` is newer than `t`, as it would be older than `u`
      have hnone : ∀ v ∈ ts, ¬ NewerOrSame v t := fun v hv hvt =>
        hu (trans_of NewerOrSame (hall v hv) hvt)
      have htake : ts.takeWhile (fun u => decide (NewerOrSame u t)) = [] := by
        cases ts with
        | nil => rfl
        | cons v ts =>
          rw [List.takeWhile_cons_of_neg (by simpa using hnone v List.mem_cons_self)]
      have hdrop : ts.dropWhile (fun u => decide (NewerOrSame u t)) = ts := by
        cases ts with
        | nil => rfl
        | cons v ts =>
          rw [List.dropWhile_cons_of_neg (by simpa using hnone v List.mem_cons_self)]
      rw [List.cons_append, List.insertionSort_cons, ih hts, htake, hdrop,
        List.takeWhile_cons_of_neg (by simpa using hu),
        List.dropWhile_cons_of_neg (by simpa using hu), List.nil_append, List.nil_append,
        List.orderedInsert_of_not_le NewerOrSame _ hu]
      cases ts with
      | nil => rfl
      | cons v ts => rw [List.orderedInsert_cons_of_le NewerOrSame _ (hall v List.mem_cons_self)]

end MemorySaver

end Saver

end Juncture
