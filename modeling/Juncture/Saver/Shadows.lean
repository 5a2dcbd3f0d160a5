import Juncture.Lib.Shadows
import Juncture.Saver.Agreement

/-!
# Checkpoints behind others

A checkpoint that is put into a `MemorySaver` once more, with the time and the identifier it has, goes
behind the one that is there.  No configuration asks for it again, whatever is put later.

* `Shadowed` : the checkpoints on file, and the same with others behind them; both answer alike.
* `Like` : two savers that differ in this way only, and what is put into both of them, or again into one.
-/

namespace Juncture

namespace Saver

/-- What the order of the checkpoints looks at. -/
def CheckpointTuple.stamp (t : CheckpointTuple) : String × String :=
  (t.checkpoint.createdAt, t.checkpoint.id)

namespace MemorySaver

theorem newerOrSame_of_stamp {t u : CheckpointTuple} (h : t.stamp = u.stamp) : NewerOrSame t u := by
  obtain ⟨htime, hid⟩ := Prod.mk.inj h
  exact .inr ⟨htime.symm, hid.ge⟩

/-- Two checkpoints that stand at the same place. -/
def SameStamp (t u : CheckpointTuple) : Prop := t.stamp = u.stamp

/-- A list of checkpoints, and the same with others behind those with their time and identifier. -/
abbrev Shadowed (ts us : List CheckpointTuple) : Prop := Shadows.Shadowed SameStamp [] ts us

namespace Shadowed

variable {ts us : List CheckpointTuple} {t u : CheckpointTuple}

/-- **Both answer alike.** -/
theorem select (h : Shadowed ts us) (config : Config) :
    MemorySaver.select config us = MemorySaver.select config ts := by
  unfold MemorySaver.select
  cases config.checkpointId with
  | none => exact h.head?
  | some id =>
    refine h.find? fun t u hsame hu => ?_
    rw [beq_iff_eq] at hu ⊢
    exact (Prod.mk.inj hsame).2.trans hu

theorem sort (h : Shadowed ts us) (hts : ts.Pairwise NewerOrSame) (hus : us.Pairwise NewerOrSame)
    (t : CheckpointTuple) : Shadowed (sortCheckpoints (ts ++ [t])) (sortCheckpoints (us ++ [t])) := by
  unfold sortCheckpoints
  rw [Shadows.insertionSort_append_singleton hts, Shadows.insertionSort_append_singleton hus]
  exact h.insert hus t

theorem again (h : Shadowed ts us) (hus : us.Pairwise NewerOrSame) (hu : u ∈ ts)
    (hstamp : u.stamp = t.stamp) : Shadowed ts (sortCheckpoints (us ++ [t])) := by
  unfold sortCheckpoints
  rw [Shadows.insertionSort_append_singleton hus]
  exact h.insert_again (fun t u => newerOrSame_of_stamp) hus (.inr ⟨u, hu, hstamp⟩)

end Shadowed

/-! ### Savers that answer alike -/

/-- The saver `s'` holds what `s` holds, and other checkpoints behind it. -/
structure Like (s s' : MemorySaver) : Prop where
  /-- The checkpoints of a thread and namespace. -/
  checkpoints : ∀ key, Shadowed (s.checkpoints key) (s'.checkpoints key)
  /-- They are sorted. -/
  sorted : ∀ key, (s.checkpoints key).Pairwise NewerOrSame
  /-- So are those with others behind them. -/
  sorted' : ∀ key, (s'.checkpoints key).Pairwise NewerOrSame
  /-- The writes are the same. -/
  writes : ∀ key, s'.pendingWrites key = s.pendingWrites key

/-- Every list of checkpoints is sorted. -/
def Sorted (s : MemorySaver) : Prop := ∀ key, (s.checkpoints key).Pairwise NewerOrSame

theorem Sorted.like {s : MemorySaver} (h : s.Sorted) : Like s s where
  checkpoints _ := Shadows.Shadowed.refl _ _
  sorted := h
  sorted' := h
  writes _ := rfl

namespace Like

variable {s s' : MemorySaver}

/-- A saver that shows the same can stand for the one with more checkpoints. -/
theorem congr_right (h : Like s s') {t : MemorySaver}
    (hcheckpoints : ∀ key, t.checkpoints key = s'.checkpoints key)
    (hwrites : ∀ key, t.pendingWrites key = s'.pendingWrites key) : Like s t where
  checkpoints key := hcheckpoints key ▸ h.checkpoints key
  sorted := h.sorted
  sorted' key := hcheckpoints key ▸ h.sorted' key
  writes key := (hwrites key).trans (h.writes key)

/-- So can one for the saver with fewer. -/
theorem congr_left (h : Like s s') {t : MemorySaver}
    (hcheckpoints : ∀ key, t.checkpoints key = s.checkpoints key)
    (hwrites : ∀ key, t.pendingWrites key = s.pendingWrites key) : Like t s' where
  checkpoints key := hcheckpoints key ▸ h.checkpoints key
  sorted key := hcheckpoints key ▸ h.sorted key
  sorted' := h.sorted'
  writes key := (h.writes key).trans (hwrites key).symm

/-- What is put into both. -/
theorem put (h : Like s s') (config : Config) (cp : Checkpoint) (metadata : CheckpointMetadata) :
    Like (s.put config cp metadata).1 (s'.put config cp metadata).1 ∧
      (s.put config cp metadata).2 = (s'.put config cp metadata).2 := by
  cases hkey : config.key with
  | none => simp [MemorySaver.put, Config.getThreadId, threadId_eq_none hkey, h]
  | some key =>
    constructor
    · refine ⟨fun key' => ?_, fun key' => ?_, fun key' => ?_, fun key' => ?_⟩
      · rw [checkpoints_put_of_key hkey, checkpoints_put_of_key hkey]
        split_ifs
        · exact (h.checkpoints key').sort (h.sorted key') (h.sorted' key') _
        · exact h.checkpoints key'
      · rw [checkpoints_put_of_key hkey]
        split_ifs
        · exact pairwise_sortCheckpoints _
        · exact h.sorted key'
      · rw [checkpoints_put_of_key hkey]
        split_ifs
        · exact pairwise_sortCheckpoints _
        · exact h.sorted' key'
      · rw [pendingWrites_put, pendingWrites_put, h.writes]
    · obtain ⟨threadId, hthread, -⟩ := exists_threadId hkey
      simp [MemorySaver.put, Config.getThreadId, hthread]

/-- What has the time and the identifier of a checkpoint on file, put into the one. -/
theorem put_again (h : Like s s') {config : Config} {key : Place} (hkey : config.key = some key)
    {u : CheckpointTuple} (hu : u ∈ s.checkpoints key) {cp : Checkpoint}
    (htime : u.checkpoint.createdAt = cp.createdAt) (hid : u.checkpoint.id = cp.id)
    (metadata : CheckpointMetadata) : Like s (s'.put config cp metadata).1 := by
  refine ⟨fun key' => ?_, h.sorted, fun key' => ?_, fun key' => ?_⟩
  · rw [checkpoints_put_of_key hkey]
    split_ifs with hsame
    · subst hsame
      exact (h.checkpoints key).again (h.sorted' key) hu (Prod.ext htime hid)
    · exact h.checkpoints key'
  · rw [checkpoints_put_of_key hkey]
    split_ifs
    · exact pairwise_sortCheckpoints _
    · exact h.sorted' key'
  · rw [pendingWrites_put, h.writes]

/-- Writes that are added to both. -/
theorem putWrites (h : Like s s') (config : Config) (writes : List PendingWrite) (taskId : String) :
    Like (s.putWrites config writes taskId).1 (s'.putWrites config writes taskId).1 ∧
      (s.putWrites config writes taskId).2 = (s'.putWrites config writes taskId).2 := by
  cases hthread : config.threadId with
  | none => simp [MemorySaver.putWrites, Config.getThreadId, hthread, h]
  | some threadId =>
    cases hid : config.checkpointId with
    | none => simp [MemorySaver.putWrites, Config.getThreadId, hthread, hid, h]
    | some id =>
      simp only [MemorySaver.putWrites, Config.getThreadId, hthread, hid, and_true]
      refine ⟨h.checkpoints, h.sorted, h.sorted', fun key => ?_⟩
      have hwrites := h.writes (threadId, id, config.getCheckpointNs)
      by_cases hkey : key = (threadId, id, config.getCheckpointNs)
      · subst hkey
        simp only [pendingWrites, AList.lookup_insert] at hwrites ⊢
        rw [hwrites]
      · simp only [pendingWrites, AList.lookup_insert_ne hkey]
        exact h.writes key

section Clock

variable [Chrono]

/-- What is read of both. -/
theorem getTuple (h : Like s s') (now : ℕ → ℤ) (config : Config) :
    (s'.getTuple .disabled now config).2 = (s.getTuple .disabled now config).2 := by
  cases hkey : config.key with
  | none => simp [MemorySaver.getTuple, Config.getThreadId, threadId_eq_none hkey]
  | some key =>
    rw [getTuple_of_key hkey, getTuple_of_key hkey, (h.checkpoints key).select]
    simp only [h.writes]

/-- Reading leaves both as they are. -/
theorem after_getTuple (h : Like s s') (now now' : ℕ → ℤ) (config config' : Config) :
    Like (s.getTuple .disabled now config).1 (s'.getTuple .disabled now' config').1 :=
  (h.congr_left (getTuple_keeps config now).1 (getTuple_keeps config now).2).congr_right
    (getTuple_keeps config' now').1 (getTuple_keeps config' now').2

/-- So does a list. -/
theorem after_list (h : Like s s') (now now' : ℕ → ℤ) (config config' : Config)
    (filter filter' : Option CheckpointFilter) :
    Like (s.list .disabled now config filter).1 (s'.list .disabled now' config' filter').1 :=
  (h.congr_left (list_keeps config now filter).1 (list_keeps config now filter).2).congr_right
    (list_keeps config' now' filter').1 (list_keeps config' now' filter').2

end Clock

end Like

end MemorySaver

end Saver

end Juncture
