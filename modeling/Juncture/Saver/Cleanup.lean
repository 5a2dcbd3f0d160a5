import Juncture.Saver.Memory

/-!
# What the cleanup of a `MemorySaver` removes

`get_tuple` and `list` first clean up the thread and namespace they are asked about: its expired and
surplus checkpoints go, and the writes of what is gone should go with them.

* `CleansUp` : what the cleanup is for.
* `lazyCleanup_spec` : what it does.
* `cleansUpOn_iff` : the contents for which the two are the same.
-/

namespace Juncture

namespace Saver

variable [Chrono]

namespace MemorySaver

/-- The checkpoints that stay: those that have not expired, up to the limit. -/
def kept (ttl : TtlConfig) (now : ℕ → ℤ) (ts : List CheckpointTuple) : List CheckpointTuple :=
  match ttl.maxCheckpoints with
  | some max => (unexpired ttl now ts).take max
  | none => unexpired ttl now ts

/-- Some checkpoint has expired. -/
def HasExpired (ttl : TtlConfig) (now : ℕ → ℤ) (ts : List CheckpointTuple) : Prop :=
  0 < ts.length - (unexpired ttl now ts).length

instance (ttl : TtlConfig) (now : ℕ → ℤ) (ts : List CheckpointTuple) :
    Decidable (HasExpired ttl now ts) := inferInstanceAs (Decidable (_ < _))

/-- The identifier of a checkpoint in the list. -/
def HasId (ts : List CheckpointTuple) (id : String) : Prop := ∃ t ∈ ts, t.checkpoint.id = id

instance (ts : List CheckpointTuple) (id : String) : Decidable (HasId ts id) :=
  inferInstanceAs (Decidable (∃ t ∈ ts, _))

/-- The checkpoint was there and does not stay. -/
def Removed (ttl : TtlConfig) (now : ℕ → ℤ) (ts : List CheckpointTuple) (id : String) : Prop :=
  HasId ts id ∧ ¬ HasId (kept ttl now ts) id

/-- From `s` to `s'` exactly the expired and surplus checkpoints of a thread and namespace are removed,
and exactly their writes. -/
structure CleansUp (ttl : TtlConfig) (now : ℕ → ℤ) (threadId ns : String) (s s' : MemorySaver) :
    Prop where
  checkpoints : s'.checkpoints (threadId, ns) = kept ttl now (s.checkpoints (threadId, ns))
  checkpoints_frame : ∀ key, key ≠ (threadId, ns) → s'.checkpoints key = s.checkpoints key
  writes : ∀ id, Removed ttl now (s.checkpoints (threadId, ns)) id →
    s'.pendingWrites (threadId, id, ns) = []
  writes_frame : ∀ thread id ns', ¬ (thread = threadId ∧ ns' = ns ∧
    Removed ttl now (s.checkpoints (threadId, ns)) id) →
      s'.pendingWrites (thread, id, ns') = s.pendingWrites (thread, id, ns')

/-- The contents whose writes survive the cleanup as they should: if checkpoints expire under a limit,
there are no writes but those of removed checkpoints, and those that the exchanged components of the key
make look like the writes of one that stays; otherwise removed checkpoints have no writes. -/
def WritesFit (ttl : TtlConfig) (now : ℕ → ℤ) (threadId ns : String) (s : MemorySaver) : Prop :=
  let ts := s.checkpoints (threadId, ns)
  if ttl.maxCheckpoints.isSome ∧ HasExpired ttl now ts then
    ∀ thread id ns', s.pendingWrites (thread, id, ns') ≠ [] → thread = threadId ∧
      (ns' = ns ∧ Removed ttl now ts id ∨ id = ns ∧ HasId (kept ttl now ts) ns')
  else ∀ id, Removed ttl now ts id → s.pendingWrites (threadId, id, ns) = []

/-- A call that cleans up. -/
inductive Reading where
  | getTuple (config : Config)
  | list (config : Config) (filter : Option CheckpointFilter)

/-- Configuration of the call. -/
def Reading.config : Reading → Config
  | .getTuple config => config
  | .list config _ => config

/-- What the call leaves behind. -/
def Reading.after (ttl : TtlConfig) (now : ℕ → ℤ) (s : MemorySaver) : Reading → MemorySaver
  | .getTuple config => (s.getTuple ttl now config).1
  | .list config filter => (s.list ttl now config filter).1

/-- The call cleans up the thread and namespace it is about. -/
def CleansUpOn (ttl : TtlConfig) (now : ℕ → ℤ) (s : MemorySaver) (call : Reading) : Prop :=
  ∀ threadId, call.config.threadId = some threadId →
    CleansUp ttl now threadId call.config.getCheckpointNs s (call.after ttl now s)

variable (ttl : TtlConfig) (now : ℕ → ℤ) (s : MemorySaver) (threadId ns : String)

/-! ### The checkpoints -/

/-- The storage after the cleanup. -/
theorem lazyCleanup_storage : (s.lazyCleanup ttl now threadId ns).storage =
    s.storage.insert (threadId, ns) (kept ttl now (s.checkpoints (threadId, ns))) := by
  simp only [lazyCleanup, kept]
  cases ttl.maxCheckpoints with
  | none => rfl
  | some max => dsimp only; split_ifs <;> rfl

theorem checkpoints_lazyCleanup : (s.lazyCleanup ttl now threadId ns).checkpoints (threadId, ns) =
    kept ttl now (s.checkpoints (threadId, ns)) := by
  rw [checkpoints, lazyCleanup_storage, AList.lookup_insert, Option.getD_some]

theorem checkpoints_lazyCleanup_frame {key : Place} (hkey : key ≠ (threadId, ns)) :
    (s.lazyCleanup ttl now threadId ns).checkpoints key = s.checkpoints key := by
  rw [checkpoints, lazyCleanup_storage, AList.lookup_insert_ne hkey, checkpoints]

/-! ### The writes -/

omit [Chrono] in
theorem contains_iff_hasId {ts : List CheckpointTuple} {id : String} :
    (ts.map fun t => t.checkpoint.id).contains id = true ↔ HasId ts id := by
  simp [HasId]

/-- Under a limit, when a checkpoint has expired, what is kept are the writes filed under the namespace as
checkpoint, and a checkpoint that stays as namespace. -/
theorem pendingWrites_lazyCleanup_expired (hmax : ttl.maxCheckpoints.isSome)
    (hexpired : HasExpired ttl now (s.checkpoints (threadId, ns))) (thread id ns' : String) :
    (s.lazyCleanup ttl now threadId ns).pendingWrites (thread, id, ns') =
      if thread = threadId ∧ id = ns ∧ HasId (kept ttl now (s.checkpoints (threadId, ns))) ns' then
        s.pendingWrites (thread, id, ns')
      else [] := by
  obtain ⟨max, hmax⟩ := Option.isSome_iff_exists.1 hmax
  have hkept : kept ttl now (s.checkpoints (threadId, ns)) =
      (unexpired ttl now (s.checkpoints (threadId, ns))).take max := by simp only [kept, hmax]
  have hwrites : (s.lazyCleanup ttl now threadId ns).writes =
      retain (fun k => k.1 == threadId && k.2.1 == ns &&
        ((kept ttl now (s.checkpoints (threadId, ns))).map fun t => t.checkpoint.id).contains k.2.2)
        s.writes := by
    rw [hkept]
    simp only [lazyCleanup, hmax]
    exact congrArg writes (if_pos hexpired)
  rw [pendingWrites, hwrites, lookup_retain]
  simp only [Bool.and_eq_true, beq_iff_eq, contains_iff_hasId, and_assoc]
  split_ifs <;> rfl

/-- Otherwise the writes stay as they are. -/
theorem pendingWrites_lazyCleanup_else
    (h : ¬ (ttl.maxCheckpoints.isSome ∧ HasExpired ttl now (s.checkpoints (threadId, ns))))
    (key : String × String × String) :
    (s.lazyCleanup ttl now threadId ns).pendingWrites key = s.pendingWrites key := by
  cases hmax : ttl.maxCheckpoints with
  | none => simp [lazyCleanup, hmax, pendingWrites]
  | some max =>
    have hnone : ¬ 0 < (s.checkpoints (threadId, ns)).length -
        (unexpired ttl now (s.checkpoints (threadId, ns))).length := fun hexpired =>
      h ⟨by rw [hmax]; rfl, hexpired⟩
    simp only [lazyCleanup, hmax]
    rw [if_neg hnone, pendingWrites, pendingWrites]

/-! ### The cleanup and what it is for -/

/-- The checkpoints are cleaned up as they should be; so it is the writes that decide. -/
theorem cleansUp_lazyCleanup_iff :
    CleansUp ttl now threadId ns s (s.lazyCleanup ttl now threadId ns) ↔
      ∀ thread id ns', (s.lazyCleanup ttl now threadId ns).pendingWrites (thread, id, ns') ≠
        s.pendingWrites (thread, id, ns') ∨ (thread = threadId ∧ ns' = ns ∧
          Removed ttl now (s.checkpoints (threadId, ns)) id) →
        (thread = threadId ∧ ns' = ns ∧ Removed ttl now (s.checkpoints (threadId, ns)) id) ∧
          (s.lazyCleanup ttl now threadId ns).pendingWrites (thread, id, ns') = [] := by
  constructor
  · rintro hclean thread id ns' (hchanged | ⟨rfl, rfl, hremoved⟩)
    · by_cases hfit : thread = threadId ∧ ns' = ns ∧
          Removed ttl now (s.checkpoints (threadId, ns)) id
      · obtain ⟨rfl, rfl, hremoved⟩ := hfit
        exact ⟨⟨rfl, rfl, hremoved⟩, hclean.writes id hremoved⟩
      · exact absurd (hclean.writes_frame thread id ns' hfit) hchanged
    · exact ⟨⟨rfl, rfl, hremoved⟩, hclean.writes id hremoved⟩
  · intro h
    refine ⟨checkpoints_lazyCleanup ttl now s threadId ns,
      fun key => checkpoints_lazyCleanup_frame ttl now s threadId ns,
      fun id hremoved => (h _ _ _ (.inr ⟨rfl, rfl, hremoved⟩)).2, fun thread id ns' hfit => ?_⟩
    by_contra hchanged
    exact hfit (h _ _ _ (.inl hchanged)).1

/-- The cleanup does what it is for exactly on the contents whose writes fit. -/
theorem cleansUp_lazyCleanup_iff_writesFit :
    CleansUp ttl now threadId ns s (s.lazyCleanup ttl now threadId ns) ↔
      WritesFit ttl now threadId ns s := by
  have hpart : ∀ id, HasId (kept ttl now (s.checkpoints (threadId, ns))) id →
      ¬ Removed ttl now (s.checkpoints (threadId, ns)) id := fun id hid hremoved => hremoved.2 hid
  rw [cleansUp_lazyCleanup_iff, WritesFit]
  by_cases h : ttl.maxCheckpoints.isSome ∧ HasExpired ttl now (s.checkpoints (threadId, ns))
  · rw [if_pos h]
    simp only [pendingWrites_lazyCleanup_expired ttl now s threadId ns h.1 h.2]
    constructor
    · intro hclean thread id ns' hwrites
      by_cases hlooks : thread = threadId ∧ id = ns ∧
          HasId (kept ttl now (s.checkpoints (threadId, ns))) ns'
      · exact ⟨hlooks.1, .inr hlooks.2⟩
      · -- these are dropped, so they must be those of a removed checkpoint
        have hdropped := hclean thread id ns' (.inl (by rw [if_neg hlooks]; exact hwrites.symm))
        exact ⟨hdropped.1.1, .inl hdropped.1.2⟩
    · intro hfit thread id ns' hcase
      by_cases hwrites : s.pendingWrites (thread, id, ns') = []
      · simp only [hwrites, ite_self, ne_eq, not_true_eq_false, false_or] at hcase ⊢
        exact ⟨hcase, trivial⟩
      · obtain ⟨rfl, hremoved | hlooks⟩ := hfit thread id ns' hwrites
        · refine ⟨⟨rfl, hremoved⟩, if_neg fun hlooks => ?_⟩
          obtain ⟨-, rfl, hkept⟩ := hlooks
          exact hpart _ (hremoved.1 ▸ hkept) hremoved.2
        · rw [if_pos ⟨rfl, hlooks⟩] at hcase
          obtain ⟨-, rfl, hremoved⟩ := hcase.resolve_left fun hne => hne rfl
          obtain ⟨rfl, hkept⟩ := hlooks
          exact absurd hremoved (hpart _ hkept)
  · rw [if_neg h]
    simp only [pendingWrites_lazyCleanup_else ttl now s threadId ns h, ne_eq, not_true_eq_false,
      false_or]
    constructor
    · exact fun hclean id hremoved => (hclean _ _ _ ⟨rfl, rfl, hremoved⟩).2
    · rintro hfit thread id ns' ⟨rfl, rfl, hremoved⟩
      exact ⟨⟨rfl, rfl, hremoved⟩, hfit id hremoved⟩

/-- Both calls leave behind what the cleanup of their thread and namespace does. -/
theorem after_eq_lazyCleanup (call : Reading) (hthread : call.config.threadId = some threadId) :
    call.after ttl now s = s.lazyCleanup ttl now threadId call.config.getCheckpointNs := by
  cases call with
  | getTuple config =>
    simp only [Reading.config] at hthread
    simp only [Reading.after, getTuple, Config.getThreadId, hthread, Reading.config]
  | list config filter =>
    simp only [Reading.config] at hthread
    simp only [Reading.after, list, Config.getThreadId, hthread, Reading.config]

/-- A call cleans up, and touches nothing else, exactly if the writes on file fit. -/
theorem cleansUpOn_iff (call : Reading) :
    CleansUpOn ttl now s call ↔ ∀ threadId, call.config.threadId = some threadId →
      WritesFit ttl now threadId call.config.getCheckpointNs s := by
  refine forall_congr' fun threadId => forall_congr' fun hthread => ?_
  rw [after_eq_lazyCleanup ttl now s threadId call hthread]
  exact cleansUp_lazyCleanup_iff_writesFit ttl now s threadId call.config.getCheckpointNs

end MemorySaver

end Saver

open Saver

/-- Another thread has writes on file while the only checkpoint of `"thread"` expires under a limit. -/
def twoThreads : MemorySaver where
  storage := AList.insert ("thread", "") [⟨{ threadId := some "thread" },
      { id := "1", createdAt := "1970-01-01T00:00:00+00:00" }, { source := .loop, step := 1 }, [], none⟩] ∅
  writes := AList.insert ("other", "2", "") [⟨"task", "channel", .bool true⟩] ∅

/-- The writes of the other thread are dropped. -/
theorem twoThreads_not_cleansUpOn :
    ¬ ∀ ttl now s call, @MemorySaver.CleansUpOn epochChrono ttl now s call := by
  intro hclean
  have hother := @MemorySaver.CleansUp.writes_frame epochChrono _ _ _ _ _ _
    (hclean { defaultTtl := some 1, maxCheckpoints := some 1 } (fun _ => 2) twoThreads
      (.getTuple { threadId := some "thread" }) "thread" rfl) "other" "2" ""
    (fun h => absurd h.1 (by decide))
  revert hother
  decide

end Juncture
