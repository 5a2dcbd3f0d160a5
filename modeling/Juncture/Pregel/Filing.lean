import Juncture.Core.MemorySaver
import Juncture.Pregel.Recovery

/-!
# Failure markers in a store

The runner files the markers of a failure under the checkpoint that the configuration of the run
names, and `after_tick` reads them back through the same configuration.  `Filing` collects what a
saver has to do with them; it says nothing about the checkpoints themselves.

* `Filing` : writes are filed under the checkpoint that the configuration names, and only `put`
  changes which checkpoint a configuration selects.
* `filing_memorySaver` : `MemorySaver` is such a saver.
-/

namespace Juncture

variable {σ : Type}

/-- The nodes whose failure markers a configuration finds. -/
def marksSeen (cp : CheckpointSaver σ) (s : σ) (c : RunnableConfig) : Set String :=
  {a | ∃ t, (cp.getTuple s c).2 = .ok (some t) ∧ a ∈ markedNodes t.pendingWrites}

/-- What a saver does with markers, where `filed s i` are the nodes marked under identifier `i`,
whether or not there is a checkpoint of that name. -/
structure Filing (cp : CheckpointSaver σ) (good : σ → Prop) (filed : σ → Uuid → Set String) :
    Prop where
  /-- The store stays well formed. -/
  good_put : ∀ s c k m, good s → good (cp.put s c k m).1
  good_putWrites : ∀ s c ws t, good s → good (cp.putWrites s c ws t).1
  /-- Reading changes nothing. -/
  getTuple_store : ∀ s c, (cp.getTuple s c).1 = s
  /-- A checkpoint comes without writes of its own. -/
  filed_put : ∀ s c k m i, filed (cp.put s c k m).1 i ⊆ filed s i
  /-- Writes are filed under the checkpoint that the configuration names. -/
  filed_putWrites : ∀ s c ws t i, filed (cp.putWrites s c ws t).1 i ⊆
    filed s i ∪ {a | c.checkpointId = some i ∧ a ∈ markedNodes ws}
  /-- A configuration finds what it found before, or the new checkpoint. -/
  seen_put : ∀ s c k m c', good s →
    marksSeen cp (cp.put s c k m).1 c' ⊆ marksSeen cp s c' ∪ filed s k.id
  /-- A configuration that names the new checkpoint finds the writes filed under its name. -/
  seen_new : ∀ s c k m s' c', good s → cp.put s c k m = (s', .ok c') →
    c'.checkpointId = some k.id ∧
      marksSeen cp s' { c with checkpointId := some k.id } ⊆ filed s k.id
  /-- A configuration finds what it found before, or the new writes. -/
  seen_putWrites : ∀ s c ws t c', good s →
    marksSeen cp (cp.putWrites s c ws t).1 c' ⊆ marksSeen cp s c' ∪ {a | a ∈ markedNodes ws}

@[simp] theorem markedNodes_append (ws ws' : List PendingWrite) :
    markedNodes (ws ++ ws') = markedNodes ws ++ markedNodes ws' := by
  simp [markedNodes]

theorem markedNodes_prepared (ws : List PendingWrite) (taskId : Uuid) :
    markedNodes (ws.map fun w => { w with taskId }) = markedNodes ws := by
  induction ws with
  | nil => rfl
  | cons w ws ih =>
    unfold markedNodes at ih ⊢
    rw [List.map_cons, List.filter_cons, List.filter_cons]
    by_cases hw : w.channel == ERROR_SOURCE_NODE
    · rw [if_pos hw, if_pos hw, List.filterMap_cons, List.filterMap_cons, ih]
    · rw [if_neg hw, if_neg hw, ih]

/-! ### The in-memory saver -/

namespace MemorySaver

/-- The checkpoints are kept in order. -/
def Ordered (s : MemoryStore) : Prop :=
  ∀ key ts, s.storage.lookup key = some ts → ts.Pairwise NewerOrSame

/-- The nodes marked under an identifier. -/
def filed (s : MemoryStore) (i : Uuid) : Set String :=
  {a | ∃ thread ns ws, s.writes.lookup (thread, i, ns) = some ws ∧ a ∈ markedNodes ws}

instance : Std.Total NewerOrSame where
  total a b := by
    have h : ∀ x y i j : ℕ, (y < x ∨ y = x ∧ j ≤ i) ∨ x < y ∨ x = y ∧ i ≤ j := by omega
    exact h _ _ _ _

instance : IsTrans CheckpointTuple NewerOrSame where
  trans a b c := by
    have h : ∀ x y z i j k : ℕ, (y < x ∨ y = x ∧ j ≤ i) → (z < y ∨ z = y ∧ k ≤ j) →
        z < x ∨ z = x ∧ k ≤ i := by omega
    exact h _ _ _ _ _ _

/-- Two checkpoints each of which is newer than the other or of the same age have the same
identifier. -/
theorem id_eq_of_newerOrSame {a b : CheckpointTuple} (hab : NewerOrSame a b)
    (hba : NewerOrSame b a) : a.checkpoint.id = b.checkpoint.id := by
  have h : ∀ x y i j : ℕ, (y < x ∨ y = x ∧ j ≤ i) → (x < y ∨ x = y ∧ i ≤ j) → i = j := by omega
  exact h _ _ _ _ hab hba

/-- A new checkpoint changes what a configuration selects to the new one, or not at all. -/
theorem select_insert {config : RunnableConfig} {ts : List CheckpointTuple} {t u : CheckpointTuple}
    (hts : ts.Pairwise NewerOrSame)
    (h : select config ((ts ++ [t]).insertionSort NewerOrSame) = some u) :
    u.checkpoint.id = t.checkpoint.id ∨
      ∃ v, select config ts = some v ∧ v.checkpoint.id = u.checkpoint.id := by
  have hsorted := List.pairwise_insertionSort NewerOrSame (ts ++ [t])
  have hperm : ∀ v, v ∈ (ts ++ [t]).insertionSort NewerOrSame ↔ v ∈ ts ++ [t] :=
    fun v => List.mem_insertionSort NewerOrSame
  generalize (ts ++ [t]).insertionSort NewerOrSame = us at h hsorted hperm
  cases hid : config.checkpointId with
  | none =>
    simp only [select, hid] at h ⊢
    cases us with
    | nil => cases h
    | cons u' us =>
      cases h
      obtain hu | hu := List.mem_append.1 ((hperm u).1 List.mem_cons_self)
      · -- the newest one was there before, so it was the newest one already
        cases ts with
        | nil => cases hu
        | cons v ts =>
          refine .inr ⟨v, rfl, ?_⟩
          obtain rfl | hu := List.mem_cons.1 hu
          · rfl
          · have hv : v ∈ u :: us := (hperm v).2 (by simp)
            obtain rfl | hv := List.mem_cons.1 hv
            · rfl
            · exact id_eq_of_newerOrSame (List.rel_of_pairwise_cons hts hu)
                (List.rel_of_pairwise_cons hsorted hv)
      · rw [List.mem_singleton.1 hu]
        exact .inl rfl
  | some i =>
    simp only [select, hid] at h ⊢
    have hui : u.checkpoint.id = i := by simpa using List.find?_some h
    obtain hu | hu := List.mem_append.1 ((hperm u).1 (List.mem_of_find?_eq_some h))
    · obtain ⟨v, hv⟩ : ∃ v, ts.find? (fun t => t.checkpoint.id == i) = some v := by
        rw [← Option.isSome_iff_exists, List.find?_isSome]
        exact ⟨u, hu, by simpa using hui⟩
      have hvi : v.checkpoint.id = i := by simpa using List.find?_some hv
      exact .inr ⟨v, hv, hvi.trans hui.symm⟩
    · rw [List.mem_singleton.1 hu]
      exact .inl rfl

theorem mem_marksSeen_iff {s : MemoryStore} {c : RunnableConfig} {a : String} :
    a ∈ marksSeen memorySaver s c ↔
      ∃ thread ts t, c.threadId = some thread ∧
        s.storage.lookup (thread, getCheckpointNs c) = some ts ∧ select c ts = some t ∧
        a ∈ markedNodes ((s.writes.lookup (thread, t.checkpoint.id, getCheckpointNs c)).getD []) := by
  show (∃ t, (getTuple s c).2 = .ok (some t) ∧ _) ↔ _
  unfold getTuple getThreadId
  cases c.threadId with
  | none => simp
  | some thread =>
    cases hts : s.storage.lookup (thread, getCheckpointNs c) with
    | none => simp [hts]
    | some ts =>
      cases ht : select c ts with
      | none => simp [hts, ht]
      | some t => simp [hts, ht]

theorem mem_filed_of_getD {s : MemoryStore} {thread ns : String} {i : Uuid} {a : String}
    (h : a ∈ markedNodes ((s.writes.lookup (thread, i, ns)).getD [])) : a ∈ filed s i := by
  cases hw : s.writes.lookup (thread, i, ns) with
  | none => simp [hw, markedNodes] at h
  | some ws =>
    rw [hw] at h
    exact ⟨thread, ns, ws, hw, h⟩

/-- What `put` does to the two maps. -/
theorem put_cases (s : MemoryStore) (c : RunnableConfig) (k : Checkpoint) (m : CheckpointMetadata) :
    (put s c k m).1.writes = s.writes ∧
      ((put s c k m).1.storage = s.storage ∧ (∃ e, (put s c k m).2 = .error e) ∨
        ∃ thread t, c.threadId = some thread ∧ t.checkpoint = k ∧
          (put s c k m).2 = .ok { c with checkpointId := some k.id } ∧
          (put s c k m).1.storage = s.storage.insert (thread, getCheckpointNs c)
            (((s.storage.lookup (thread, getCheckpointNs c)).getD [] ++ [t]).insertionSort
              NewerOrSame)) := by
  unfold put getThreadId
  cases c.threadId with
  | none => exact ⟨rfl, .inl ⟨rfl, _, rfl⟩⟩
  | some thread => exact ⟨rfl, .inr ⟨thread, _, rfl, rfl, rfl, rfl⟩⟩

/-- What `put_writes` does to the two maps. -/
theorem putWrites_cases (s : MemoryStore) (c : RunnableConfig) (ws : List PendingWrite)
    (taskId : Uuid) :
    (putWrites s c ws taskId).1 = s ∨
      ∃ thread i, c.checkpointId = some i ∧
        (putWrites s c ws taskId).1 = { s with
          writes := s.writes.insert (thread, i, getCheckpointNs c)
            ((s.writes.lookup (thread, i, getCheckpointNs c)).getD [] ++
              ws.map fun w => { w with taskId }) } := by
  unfold putWrites getThreadId
  cases c.threadId with
  | none => exact .inl rfl
  | some thread =>
    cases c.checkpointId with
    | none => exact .inl rfl
    | some i => exact .inr ⟨thread, i, rfl, rfl⟩

theorem ordered_getD {s : MemoryStore} (h : Ordered s) (key : String × String) :
    ((s.storage.lookup key).getD []).Pairwise NewerOrSame := by
  cases hts : s.storage.lookup key with
  | none => exact .nil
  | some ts => exact h key ts hts

/-- The writes of a checkpoint after `put_writes`. -/
theorem marked_putWrites {s : MemoryStore} {c : RunnableConfig} {ws : List PendingWrite}
    {taskId i : Uuid} {thread ns a : String}
    (h : a ∈ markedNodes (((putWrites s c ws taskId).1.writes.lookup (thread, i, ns)).getD [])) :
    a ∈ markedNodes ((s.writes.lookup (thread, i, ns)).getD []) ∨
      c.checkpointId = some i ∧ a ∈ markedNodes ws := by
  obtain heq | ⟨th, j, hj, heq⟩ := putWrites_cases s c ws taskId
  · rw [heq] at h
    exact .inl h
  · rw [heq] at h
    by_cases hkey : (thread, i, ns) = (th, j, getCheckpointNs c)
    · rw [hkey, AList.lookup_insert, Option.getD_some, markedNodes_append, List.mem_append,
        markedNodes_prepared] at h
      obtain ⟨rfl, rfl, rfl⟩ : thread = th ∧ i = j ∧ ns = getCheckpointNs c := by simpa using hkey
      exact h.imp_right fun hw => ⟨hj, hw⟩
    · rw [AList.lookup_insert_ne hkey] at h
      exact .inl h

end MemorySaver

open MemorySaver in
/-- **`MemorySaver` files markers as it should.** -/
theorem filing_memorySaver : Filing memorySaver Ordered MemorySaver.filed where
  good_put s c k m h := by
    obtain ⟨-, ⟨hst, -⟩ | ⟨thread, t, -, -, -, hst⟩⟩ := put_cases s c k m
    · intro key ts hts
      exact h key ts ((congrArg (AList.lookup key) hst).symm.trans hts)
    · intro key ts hts
      have hts := (congrArg (AList.lookup key) hst).symm.trans hts
      by_cases hkey : key = (thread, getCheckpointNs c)
      -- `put` sorts the bucket anew.
      · rw [hkey, AList.lookup_insert] at hts
        cases hts
        exact List.pairwise_insertionSort NewerOrSame _
      · rw [AList.lookup_insert_ne hkey] at hts
        exact h key ts hts
  good_putWrites s c ws t h := by
    show Ordered (putWrites s c ws t).1
    obtain heq | ⟨th, j, -, heq⟩ := putWrites_cases s c ws t <;> rw [heq] <;> exact h
  getTuple_store s c := by
    show (getTuple s c).1 = s
    unfold getTuple
    split <;> rfl
  filed_put s c k m i a h := by
    obtain ⟨thread, ns, ws, hws, ha⟩ := h
    exact ⟨thread, ns, ws, (congrArg (AList.lookup _) (put_cases s c k m).1).symm.trans hws, ha⟩
  filed_putWrites s c ws t i a h := by
    obtain ⟨thread, ns, ws', hws, ha⟩ := h
    have hget : a ∈ markedNodes (((putWrites s c ws t).1.writes.lookup (thread, i, ns)).getD []) := by
      rw [show (putWrites s c ws t).1.writes.lookup (thread, i, ns) = some ws' from hws]
      exact ha
    exact (marked_putWrites hget).imp_left mem_filed_of_getD
  seen_put s c k m c' hgood a h := by
    obtain ⟨hw, hst⟩ := put_cases s c k m
    obtain ⟨thread, ts, t, hth, hts, hsel, ha⟩ := mem_marksSeen_iff.1 h
    rw [show (memorySaver.put s c k m).1.writes = s.writes from hw] at ha
    obtain ⟨hst, -⟩ | ⟨thread', t', -, rfl, -, hst⟩ := hst
    · rw [show (memorySaver.put s c k m).1.storage = s.storage from hst] at hts
      exact .inl (mem_marksSeen_iff.2 ⟨thread, ts, t, hth, hts, hsel, ha⟩)
    · rw [show (memorySaver.put s c t'.checkpoint m).1.storage = _ from hst] at hts
      by_cases hkey : (thread, getCheckpointNs c') = (thread', getCheckpointNs c)
      -- The bucket that is read is the one that grew: what is selected is new or was selected before.
      · rw [hkey, AList.lookup_insert] at hts
        cases hts
        obtain hid | ⟨v, hv, hid⟩ := select_insert (ordered_getD hgood _) hsel
        · rw [hid] at ha
          exact .inr (mem_filed_of_getD ha)
        · rw [← hid] at ha
          rw [← hkey] at hv
          refine .inl (mem_marksSeen_iff.2 ⟨thread, _, v, hth, ?_, hv, ha⟩)
          cases hts : s.storage.lookup (thread, getCheckpointNs c') with
          | some ts => rfl
          | none =>
            rw [hts, Option.getD_none] at hv
            exact absurd hv (by unfold select; split <;> simp)
      · rw [AList.lookup_insert_ne hkey] at hts
        exact .inl (mem_marksSeen_iff.2 ⟨thread, ts, t, hth, hts, hsel, ha⟩)
  seen_new s c k m s' c' hgood hput := by
    obtain ⟨hw, ⟨-, e, he⟩ | ⟨thread', t', -, -, hok, -⟩⟩ := put_cases s c k m
    · exact nomatch (congrArg Prod.snd hput).symm.trans he
    · have hc' : c' = { c with checkpointId := some k.id } :=
        Except.ok.inj ((congrArg Prod.snd hput).symm.trans hok)
      have hs' : s'.writes = s.writes := by
        rw [← show (memorySaver.put s c k m).1 = s' from congrArg Prod.fst hput]
        exact hw
      refine ⟨by rw [hc'], fun a h => ?_⟩
      obtain ⟨thread, ts, t, -, -, hsel, ha⟩ := mem_marksSeen_iff.1 h
      have hid : t.checkpoint.id = k.id := by simpa using List.find?_some hsel
      rw [hs', hid] at ha
      exact mem_filed_of_getD ha
  seen_putWrites s c ws t c' hgood a h := by
    obtain ⟨thread, ts, u, hth, hts, hsel, ha⟩ := mem_marksSeen_iff.1 h
    have hst : (putWrites s c ws t).1.storage = s.storage := by
      obtain heq | ⟨_, _, -, heq⟩ := putWrites_cases s c ws t <;> rw [heq]
    rw [show (memorySaver.putWrites s c ws t).1.storage = s.storage from hst] at hts
    obtain ha | ⟨-, ha⟩ := marked_putWrites ha
    · exact .inl (mem_marksSeen_iff.2 ⟨thread, ts, u, hth, hts, hsel, ha⟩)
    · exact .inr ha

end Juncture
