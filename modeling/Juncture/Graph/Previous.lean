import Juncture.Graph.StopReports
import Juncture.Lib.Shadows
import Juncture.Pregel.Filing
import Juncture.Pregel.StoreUse

/-!
# What an entrypoint is told of earlier runs

An entrypoint accumulates: `invoke` files what a run returned with the latest checkpoint of the thread,
and gives it to the next run as `previous`.  But it makes no checkpoint of its own to file it with, and a
`MemorySaver` keeps a checkpoint that is put again behind the one that is there.

* `Invoked` : stores that a sequence of invocations leads to.
* `Invoked.invokeConfig_of_nothing` : on a thread without checkpoints there is never a previous result,
  whatever the saver.
* `Invoked.invokeConfig_of_memory` : with a `MemorySaver` the previous result never changes.
-/

namespace Juncture

/-! ### A store of checkpoints that were put again -/

namespace MemorySaver

/-- Two checkpoints that stand at the same place. -/
def SameStamp (t u : CheckpointTuple) : Prop :=
  t.checkpoint.createdAt = u.checkpoint.createdAt ∧ t.checkpoint.id = u.checkpoint.id

theorem newerOrSame_of_stamp {t u : CheckpointTuple} (h : SameStamp t u) : NewerOrSame t u :=
  .inr ⟨h.1.symm, h.2.ge⟩

/-- The checkpoints of a thread and namespace. -/
def checkpoints (store : MemoryStore) (key : String × String) : List CheckpointTuple :=
  (store.storage.lookup key).getD []

/-- The store `store'` holds what `store` holds, and checkpoints that were put again. -/
structure Repeats (store store' : MemoryStore) : Prop where
  /-- The checkpoints of a thread and namespace. -/
  checkpoints : ∀ key, Shadows.Shadowed SameStamp [] (checkpoints store key) (checkpoints store' key)
  /-- They are sorted. -/
  sorted : ∀ key, (MemorySaver.checkpoints store' key).Pairwise NewerOrSame
  /-- The writes are the same. -/
  writes : store'.writes = store.writes

theorem Repeats.refl {store : MemoryStore} (h : Ordered store) : Repeats store store where
  checkpoints _ := .refl _ _
  sorted := ordered_getD h
  writes := rfl

theorem getTuple_eq (store : MemoryStore) (config : RunnableConfig) :
    getTuple store config = (store, (getThreadId config).map fun threadId =>
      (select config (checkpoints store (threadId, getCheckpointNs config))).map fun t =>
        { t with pendingWrites :=
          (store.writes.lookup (threadId, t.checkpoint.id, getCheckpointNs config)).getD [] }) := by
  unfold getTuple
  cases getThreadId config with
  | error e => rfl
  | ok threadId =>
    simp only [Except.map, checkpoints]
    cases store.storage.lookup (threadId, getCheckpointNs config) with
    | none => cases hid : config.checkpointId <;> simp [select, hid]
    | some ts => rfl

theorem getTuple_fst (store : MemoryStore) (config : RunnableConfig) :
    (memorySaver.getTuple store config).1 = store := congrArg Prod.fst (getTuple_eq store config)

/-- **Both answer alike.** -/
theorem Repeats.getTuple {store store' : MemoryStore} (h : Repeats store store') (config : RunnableConfig) :
    (getTuple store' config).2 = (MemorySaver.getTuple store config).2 := by
  have hselect : ∀ key, select config (MemorySaver.checkpoints store' key) =
      select config (MemorySaver.checkpoints store key) := by
    intro key
    unfold select
    cases config.checkpointId with
    | none => exact (h.checkpoints key).head?
    | some id =>
      refine (h.checkpoints key).find? fun t u hsame hu => ?_
      rw [beq_iff_eq] at hu ⊢
      exact hsame.2.trans hu
  rw [getTuple_eq, getTuple_eq]
  simp only [hselect, h.writes]

/-- What was found is on file. -/
theorem mem_of_getTuple {store store' : MemoryStore} {config : RunnableConfig} {t : CheckpointTuple}
    (h : getTuple store config = (store', .ok (some t))) :
    ∃ threadId, getThreadId config = .ok threadId ∧
      ∃ u ∈ checkpoints store (threadId, getCheckpointNs config), u.checkpoint = t.checkpoint := by
  rw [getTuple_eq] at h
  obtain ⟨-, h⟩ := Prod.mk.inj h
  cases hthread : getThreadId config with
  | error e => rw [hthread] at h; cases h
  | ok threadId =>
    rw [hthread] at h
    obtain ⟨u, hu, rfl⟩ := Option.map_eq_some_iff.mp (Except.ok.inj h)
    refine ⟨threadId, rfl, u, ?_, rfl⟩
    unfold select at hu
    split at hu
    · exact List.mem_of_mem_head? hu
    · exact List.mem_of_find?_eq_some hu

/-- **A checkpoint that was found and is put again.** -/
theorem Repeats.put {store store' : MemoryStore} (h : Repeats store store') {config : RunnableConfig}
    {t : CheckpointTuple} (hget : MemorySaver.getTuple store config = (store, .ok (some t)))
    (metadata : CheckpointMetadata) :
    Repeats store (put store' config t.checkpoint metadata).1 := by
  obtain ⟨threadId, hthread, u, hu, hsame⟩ := mem_of_getTuple hget
  have hput : ∀ key, MemorySaver.checkpoints (MemorySaver.put store' config t.checkpoint metadata).1 key =
      if key = (threadId, getCheckpointNs config) then
        (MemorySaver.checkpoints store' key ++
          [({ config, checkpoint := t.checkpoint, metadata, pendingWrites := [] } :
            CheckpointTuple)]).insertionSort NewerOrSame
      else MemorySaver.checkpoints store' key := by
    intro key
    simp only [MemorySaver.put, hthread, MemorySaver.checkpoints]
    split_ifs with hkey
    · subst hkey
      rw [AList.lookup_insert]
      rfl
    · rw [AList.lookup_insert_ne hkey]
  refine ⟨fun key => ?_, fun key => ?_, ?_⟩
  · rw [hput]
    split_ifs with hkey
    · subst hkey
      rw [Shadows.insertionSort_append_singleton (h.sorted _)]
      refine (h.checkpoints _).insert_again (fun t u => newerOrSame_of_stamp) (h.sorted _)
        (.inr ⟨u, hu, ?_⟩)
      exact ⟨congrArg Checkpoint.createdAt hsame, congrArg Checkpoint.id hsame⟩
    · exact h.checkpoints key
  · rw [hput]
    split_ifs
    · exact List.pairwise_insertionSort NewerOrSame _
    · exact h.sorted key
  · rw [← h.writes, MemorySaver.put, hthread]

end MemorySaver

/-! ### Invocations -/

namespace CompiledGraph

section

variable {S σ : Type} [State S] [InterruptHash] {g : CompiledGraph S σ} {cp : CheckpointSaver σ}
  {store store' : σ}

/-- The stores that invocations of a graph lead to: an invocation that finds a cached result does not
look at the store, another ends somehow, with nodes that may do something else in each superstep. -/
inductive Invoked (g : CompiledGraph S σ) (store : σ) : σ → Prop where
  | start : Invoked g store store
  | cached {store' : σ} (h : Invoked g store store') (call : InvokeCall S σ) (hcall : call.store = store')
      (hit : (g.cachedResult call).2.isSome = true) : Invoked g store call.store
  | ran {store' : σ} (h : Invoked g store store') (call : InvokeCall S σ) (hcall : call.store = store')
      (miss : (g.cachedResult call).2 = none) {statuses : List LoopStatus} {l : PregelLoop S σ}
      {e : Ending} (hend : (g.invokeLoop call).Ends statuses l e) :
      Invoked g store (g.invokeEnd call l e).2.1

/-- The loop of an invocation leaves the store alone. -/
theorem store_of_ends {call : InvokeCall S σ} {statuses : List LoopStatus} {l : PregelLoop S σ}
    {e : Ending} (hend : (g.invokeLoop call).Ends statuses l e) :
    l.store = (g.invokeConfig call).1 := by
  have huses : (g.invokeLoop call).Uses (g.invokeLoop call).runnableConfig.place
      (· = (g.invokeConfig call).1) :=
    { saver := fun cp hcp => by cases hcp
      config := rfl
      background := fun b hb => by cases hb
      store := rfl }
  exact (huses.ends hend).store

/-- **What every invocation preserves.**  Let what is asked for leave a store as it is, and what is found
be put again without harm; then invocations do not do harm. -/
theorem Invoked.preserves {I : σ → Prop} (hcp : g.checkpointer = some cp)
    (hget : ∀ store config, I store → I (cp.getTuple store config).1)
    (hput : ∀ store config t metadata, I store → (cp.getTuple store config).2 = .ok (some t) →
      I (cp.put (cp.getTuple store config).1 config t.checkpoint metadata).1)
    (h : Invoked g store store') (hstore : I store) : I store' := by
  induction h with
  | start => exact hstore
  | cached _ call hcall _ ih => exact hcall ▸ ih
  | @ran store' _ call hcall _ statuses l e hend ih =>
    have hconfig : I (g.invokeConfig call).1 := by
      have hread : ∀ config, I (cp.getTuple call.store config).1 := fun config => hget _ _ (hcall ▸ ih)
      unfold invokeConfig
      simp only [hcp]
      split
      · next heq => exact (congrArg Prod.fst heq) ▸ hread _
      · next heq => exact (congrArg Prod.fst heq) ▸ hread _
    have hl : I l.store := (store_of_ends hend).symm ▸ hconfig
    unfold invokeEnd
    split
    · -- the result is filed
      unfold storeReturnValue
      simp only [hcp]
      split
      · next hcp' _ =>
        obtain rfl := Option.some.inj hcp'
        have hread := hget _ l.runnableConfig hl
        split
        · next t heq =>
          have hfound := hput _ l.runnableConfig t { t.metadata with returnValue := some ‹Json› } hl
            (congrArg Prod.snd heq)
          rw [heq] at hfound
          exact hfound
        · next heq => rw [heq] at hread; exact hread
      · exact hl
    · exact hl

/-- **A thread without checkpoints.**  If a saver finds nothing, then it finds nothing after any invocations
either, and no run is told of an earlier one. -/
theorem Invoked.invokeConfig_of_nothing {I : σ → Prop} (hcp : g.checkpointer = some cp)
    (hget : ∀ store config, I store → I (cp.getTuple store config).1)
    (hnothing : ∀ store config t, I store → (cp.getTuple store config).2 ≠ .ok (some t))
    (h : Invoked g store store') (hstore : I store) {call : InvokeCall S σ} (hcall : call.store = store') :
    (g.invokeConfig call).2.previous = call.config.previous := by
  have hI : I call.store := hcall ▸ h.preserves hcp hget
    (fun store config t _ hs hfound => absurd hfound (hnothing store config t hs)) hstore
  unfold invokeConfig
  simp only [hcp]
  split
  · next t heq => exact absurd (congrArg Prod.snd heq) (hnothing _ _ t hI)
  · rfl

end

section Memory

variable {S : Type} [State S] [InterruptHash] {g : CompiledGraph S MemoryStore}
  {store store' : MemoryStore}

/-- Invocations only put checkpoints again. -/
theorem Invoked.repeats (hcp : g.checkpointer = some memorySaver) (h : Invoked g store store')
    (hstore : MemorySaver.Ordered store) : MemorySaver.Repeats store store' := by
  refine h.preserves (I := MemorySaver.Repeats store) hcp (fun s config hs => ?_)
    (fun s config t metadata hs hfound => ?_) (.refl hstore)
  · rw [MemorySaver.getTuple_fst]
    exact hs
  · rw [MemorySaver.getTuple_fst]
    refine hs.put (Prod.ext (MemorySaver.getTuple_fst store config) ?_) metadata
    exact (hs.getTuple config).symm.trans hfound

/-- **The previous result never changes.**  Whatever is invoked, with a `MemorySaver` every run has the
configuration that it would have had at the beginning. -/
theorem Invoked.invokeConfig_of_memory (hcp : g.checkpointer = some memorySaver)
    (h : Invoked g store store') (hstore : MemorySaver.Ordered store) (call : InvokeCall S MemoryStore) :
    (g.invokeConfig { call with store := store' }).2 = (g.invokeConfig { call with store }).2 := by
  have hsame := (h.repeats hcp hstore).getTuple
  unfold invokeConfig
  simp only [hcp]
  generalize hconfig : { g.effectiveConfig call.config with
    taskCachePolicy := g.cachePolicy.map ResultCachePolicy.toCachePolicy } = config
  have hresult : (memorySaver.getTuple store' config).2 = (memorySaver.getTuple store config).2 :=
    hsame config
  generalize memorySaver.getTuple store' config = r' at hresult
  generalize memorySaver.getTuple store config = r at hresult
  obtain ⟨_, r⟩ := r
  obtain ⟨_, r'⟩ := r'
  obtain rfl : r' = r := hresult
  obtain _ | _ | _ := r' <;> rfl

end Memory

/-- A run whose nodes are the same in each superstep. -/
theorem ends_of_endsAt {S σ : Type} [State S] [InterruptHash] {l₀ l : PregelLoop S σ}
    {rounds : ℕ → Round S} {n : ℕ} {e : Ending} (h : l₀.EndsAt rounds n l e) :
    ∃ statuses, l₀.Ends statuses l e := by
  obtain ⟨t, ht, hend⟩ := h
  suffices hattains : ∃ statuses, l₀.Attains statuses t by
    obtain ⟨statuses, hattains⟩ := hattains
    exact ⟨statuses, t, t.nodes, rounds n, hattains, hend⟩
  clear hend
  induction n generalizing t with
  | zero =>
    cases ht
    exact ⟨[], .start⟩
  | succ n ih =>
    obtain ⟨k, hk, hturn⟩ := Machine.trace_succ_eq_some_iff.1 ht
    obtain ⟨statuses, hattains⟩ := ih k hk
    exact ⟨_, .turn hattains k.nodes (rounds n) hturn⟩

/-! ### Two runs of one thread -/

/-- A thread with a checkpoint. -/
def filedStore : MemoryStore :=
  (memorySaver.put {} { threadId := some "t" }
    { id := 0, channelValues := .null, channelVersions := [], versionsSeen := ∅, pendingTasks := []
      pendingSends := [], pendingInterrupts := [], schemaVersion := 1, createdAt := 0, newVersions := []
      countersSinceDeltaSnapshot := ∅ } { source := .loop, step := 0, runId := 0 }).1

/-- A call on the thread. -/
def filedCall (store : MemoryStore) : InvokeCall Transcript MemoryStore where
  input := {}
  config := { threadId := some "t" }
  store
  nextUuid := 1

/-- The run completes, and the store then holds what is given. -/
theorem invoked_filedCall {store : MemoryStore} {files : ℕ}
    (h : (((chainGraph.invokeLoop (filedCall store)).head undisturbed 2).bind fun t => t.ending {}).map
      (fun p => (p.2, (MemorySaver.checkpoints (chainGraph.invokeEnd (filedCall store) p.1 p.2).2.1
        ("t", "")).length)) = some (.done, files)) :
    ∃ store', chainGraph.Invoked store store' ∧
      (MemorySaver.checkpoints store' ("t", "")).length = files := by
  obtain ⟨⟨l, e⟩, hl, heq⟩ := Option.map_eq_some_iff.1 h
  obtain ⟨t, ht, hend⟩ := Option.bind_eq_some_iff.1 hl
  have hends : (chainGraph.invokeLoop (filedCall store)).EndsAt undisturbed 2 l e := ⟨t, ht, hend⟩
  obtain ⟨statuses, hends⟩ := ends_of_endsAt hends
  exact ⟨_, .ran .start (filedCall store) rfl rfl hends, (Prod.mk.inj heq).2⟩

theorem filedStore_ordered : MemorySaver.Ordered filedStore :=
  filing_memorySaver.good_put {} _ _ _ fun key ts hts => by cases hts

/-- The result of a run is filed, as a second checkpoint, and the next run is not told. -/
theorem invokeConfig_of_memory_filed :
    ∃ store', chainGraph.Invoked filedStore store' ∧
      (MemorySaver.checkpoints store' ("t", "")).length = 2 ∧
      (chainGraph.invokeConfig (filedCall store')).2 = (chainGraph.invokeConfig (filedCall filedStore)).2 := by
  obtain ⟨store', hinvoked, hlength⟩ := invoked_filedCall (show (((chainGraph.invokeLoop
    (filedCall filedStore)).head undisturbed 2).bind fun t => t.ending {}).map
      (fun p => (p.2, (MemorySaver.checkpoints (chainGraph.invokeEnd (filedCall filedStore) p.1 p.2).2.1
        ("t", "")).length)) = some (.done, 2) from rfl)
  exact ⟨store', hinvoked, hlength, Invoked.invokeConfig_of_memory rfl hinvoked filedStore_ordered
    (filedCall filedStore)⟩

/-- There are no checkpoints. -/
def Blank (store : MemoryStore) : Prop := ∀ key, MemorySaver.checkpoints store key = []

theorem getTuple_blank {store : MemoryStore} (h : Blank store) (config : RunnableConfig)
    (t : CheckpointTuple) : (memorySaver.getTuple store config).2 ≠ .ok (some t) := by
  intro hfound
  obtain ⟨threadId, -, u, hu, -⟩ := MemorySaver.mem_of_getTuple
    (Prod.ext (MemorySaver.getTuple_fst store config) hfound)
  rw [h] at hu
  cases hu

/-- A run on a thread without checkpoints leaves none, and the next one is told of nothing. -/
theorem invokeConfig_of_nothing_blank :
    ∃ store', chainGraph.Invoked {} store' ∧
      (MemorySaver.checkpoints store' ("t", "")).length = 0 ∧
      (chainGraph.invokeConfig (filedCall store')).2.previous = none := by
  obtain ⟨store', hinvoked, hlength⟩ := invoked_filedCall (show (((chainGraph.invokeLoop
    (filedCall {})).head undisturbed 2).bind fun t => t.ending {}).map
      (fun p => (p.2, (MemorySaver.checkpoints (chainGraph.invokeEnd (filedCall {}) p.1 p.2).2.1
        ("t", "")).length)) = some (.done, 0) from rfl)
  refine ⟨store', hinvoked, hlength, ?_⟩
  exact Invoked.invokeConfig_of_nothing (I := Blank) rfl
    (fun store config h => (MemorySaver.getTuple_fst store config).symm ▸ h)
    (fun store config t h => getTuple_blank h config t) hinvoked (fun _ => rfl) rfl

end CompiledGraph

end Juncture
