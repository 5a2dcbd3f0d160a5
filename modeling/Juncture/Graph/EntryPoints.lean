import Juncture.Graph.Builder
import Juncture.Pregel.Halting

/-!
# Where a graph starts

`START` edges are read by three parts that do not talk to each other: validation asks for an entry
point, which only `set_entry_point` sets; the trigger table turns every target of a `START` edge into
a trigger of that node; and the first tasks are the nodes with such a trigger.  No part calls the
router of a conditional `START` edge.

* `entriesAgree_iff` : when `add_edge(START, n)` does what `set_entry_point(n)` does.
* `startsRouted_iff` : when the first superstep executes what the routers select.
-/

namespace Juncture

variable {S : Type} [State S]

namespace StateGraph

/-! ### Two ways to set the entry -/

/-- The two ways to make `n` the entry are accepted alike, and what they are compiled to is the
same. -/
def EntriesAgree (g : StateGraph S) (n : String) : Prop :=
  ∀ (σ : Type) (config : CompileConfig) (checkpointer : Option (CheckpointSaver σ)),
    ((∃ c, (g.addEdge START n).compileInner config checkpointer = .ok c) ↔
      ∃ c, (g.setEntryPoint n).compileInner config checkpointer = .ok c) ∧
    ∀ c c', (g.addEdge START n).compileInner config checkpointer = .ok c →
      (g.setEntryPoint n).compileInner config checkpointer = .ok c' → c = c'

/-- The checks that do not look at the entry point. -/
def OtherwiseAccepted (g : StateGraph S) : Prop :=
  validateEdgeTargets g.nodes g.edges = .ok () ∧ checkIsolatedNodes g.nodes g.edges = .ok () ∧
    checkInfiniteLoops g.nodes g.edges = .ok () ∧
    { g with entryPoint := none }.validateKeys = .ok ()

/-- The checks of an entry point: it is a node, and every node is reachable from it. -/
def EntryAccepted (g : StateGraph S) (entryPoint : Option String) : Prop :=
  ∃ entry, entryPoint = some entry ∧ g.nodes.containsKey entry = true ∧
    checkReachability g.nodes g.edges entryPoint g.builderMetadata = .ok ()

theorem seq_eq_ok_iff {α : Type} {x : Except TopologyError Unit} {y : Except TopologyError α}
    {a : α} : (do x; y) = .ok a ↔ x = .ok () ∧ y = .ok a := by
  refine (ExceptFold.bind_eq_ok_iff (g := fun _ => y)).trans ?_
  constructor
  · rintro ⟨⟨⟩, hx, hy⟩
    exact ⟨hx, hy⟩
  · rintro ⟨hx, hy⟩
    exact ⟨(), hx, hy⟩

theorem reject_eq_ok_iff {e : Option TopologyError} : reject e = .ok () ↔ e = none := by
  cases e with
  | none => simp [reject]
  | some e => simp [reject]

theorem validateKeys_eq_ok_iff {g : StateGraph S} :
    g.validateKeys = .ok () ↔
      { g with entryPoint := none }.validateKeys = .ok () ∧
        ∀ entry, g.entryPoint = some entry → g.nodes.containsKey entry = true := by
  unfold validateKeys
  simp only [seq_eq_ok_iff, reject_eq_ok_iff, Option.map_eq_none_iff, Option.filter_none,
    true_and, Option.filter_eq_none_iff, Bool.not_eq_true', Bool.not_eq_false]
  constructor
  · rintro ⟨hnames, hentry, hrest⟩
    exact ⟨⟨hnames, hrest⟩, hentry⟩
  · rintro ⟨⟨hnames, hrest⟩, hentry⟩
    exact ⟨hnames, hentry, hrest⟩

/-- **What compilation accepts**: the entry point and the rest are checked apart. -/
theorem compileInner_eq_ok_iff {σ : Type} {g : StateGraph S} {config : CompileConfig}
    {checkpointer : Option (CheckpointSaver σ)} {c : CompiledGraph S σ} :
    g.compileInner config checkpointer = .ok c ↔
      (g.OtherwiseAccepted ∧ g.EntryAccepted g.entryPoint) ∧
        c = g.compiled config checkpointer := by
  unfold compileInner validate OtherwiseAccepted EntryAccepted
  simp only [seq_eq_ok_iff]
  rw [validateKeys_eq_ok_iff]
  constructor
  · rintro ⟨⟨hset, htargets, hreach, hisolated, hloops⟩, ⟨hkeys, hentry⟩, hc⟩
    cases he : g.entryPoint with
    | none =>
      rw [he] at hset
      cases hset
    | some entry =>
      rw [he] at hreach
      exact ⟨⟨⟨htargets, hisolated, hloops, hkeys⟩, entry, rfl, hentry entry he, hreach⟩,
        (Except.ok.inj hc).symm⟩
  · rintro ⟨⟨⟨htargets, hisolated, hloops, hkeys⟩, entry, he, hentry, hreach⟩, rfl⟩
    refine ⟨⟨?_, htargets, hreach, hisolated, hloops⟩, ⟨hkeys, ?_⟩, rfl⟩
    · rw [he]
      rfl
    · intro entry' he'
      cases he.symm.trans he'
      exact hentry

/-- **`add_edge(START, n)` and `set_entry_point(n)`** differ in the entry point that validation
sees: none or an earlier one, and `n`. -/
theorem entriesAgree_iff (g : StateGraph S) (n : String) :
    g.EntriesAgree n ↔
      ((g.addEdge START n).OtherwiseAccepted →
        ((g.addEdge START n).EntryAccepted g.entryPoint ↔
          (g.addEdge START n).EntryAccepted (some n))) := by
  have hadd : ∀ (σ : Type) (config : CompileConfig) (checkpointer : Option (CheckpointSaver σ)) c,
      (g.addEdge START n).compileInner config checkpointer = .ok c ↔
        ((g.addEdge START n).OtherwiseAccepted ∧
          (g.addEdge START n).EntryAccepted g.entryPoint) ∧
          c = (g.addEdge START n).compiled config checkpointer :=
    fun _ _ _ _ => compileInner_eq_ok_iff
  have hset : ∀ (σ : Type) (config : CompileConfig) (checkpointer : Option (CheckpointSaver σ)) c,
      (g.setEntryPoint n).compileInner config checkpointer = .ok c ↔
        ((g.addEdge START n).OtherwiseAccepted ∧
          (g.addEdge START n).EntryAccepted (some n)) ∧
          c = (g.addEdge START n).compiled config checkpointer :=
    fun _ _ _ _ => compileInner_eq_ok_iff
  unfold EntriesAgree
  simp only [hadd, hset, exists_and_left, exists_eq, and_true]
  constructor
  · intro h hrest
    have hiff := (h Unit {} none).1
    simpa only [hrest, true_and] using hiff
  · intro h σ config checkpointer
    refine ⟨?_, ?_⟩
    · constructor
      · rintro ⟨hrest, hentry⟩
        exact ⟨hrest, (h hrest).1 hentry⟩
      · rintro ⟨hrest, hentry⟩
        exact ⟨hrest, (h hrest).2 hentry⟩
    · rintro c c' ⟨-, rfl⟩ ⟨-, rfl⟩
      rfl

/-! ### Conditional entries -/

/-- The nodes that the `START` edges lead to in the input state: the targets of the fixed ones and
what the routers of the conditional ones select. -/
def selectedEntries (edges : List (Edge S)) (input : S) : Set String :=
  {n | n ≠ END ∧ (.fixed START n ∈ edges ∨ ∃ router pathMap route,
    .conditional START router pathMap ∈ edges ∧ router input = .ok route ∧
      ∃ label ∈ route.targets, labelTarget pathMap label = n)}

/-- The first superstep of every run executes exactly the nodes that the `START` edges lead to in the
input state. -/
def StartsRouted (g : StateGraph S) (input : S) : Prop :=
  ∀ (σ : Type) (compileConfig : CompileConfig) (checkpointer : Option (CheckpointSaver σ))
    (config : RunnableConfig) (store : σ) (nextUuid : Uuid) (n : String),
    (∃ t ∈ ((g.compiled compileConfig checkpointer).newLoop input config store
      nextUuid).pendingTasks, t.nodeName = n) ↔ n ∈ selectedEntries g.edges input

/-- The targets of the path maps of `START` edges. -/
def mappedEntries (edges : List (Edge S)) : Set String :=
  {n | ∃ router pathMap, .conditional START router pathMap ∈ edges ∧
    ∃ kv ∈ pathMap.entries, kv.2 = n}

omit [State S] in
/-- **The first tasks**: one for each target of a `START` edge, selected or not. -/
theorem exists_mem_computeInitialTasks_iff {base : Uuid} {edges : List (Edge S)} {n : String} :
    (∃ t ∈ PregelLoop.computeInitialTasks base (buildTriggerTable edges), t.nodeName = n) ↔
      .fixed START n ∈ edges ∨ n ∈ mappedEntries edges := by
  have hsources : n ∈ (((buildTriggerTable edges).incoming.entries.filter fun kv =>
      kv.2.contains (.edge START)).map Sigma.fst) ↔
      .edge START ∈ (buildTriggerTable edges).sourcesOf n := by
    unfold TriggerTable.sourcesOf
    simp only [List.mem_map, List.mem_filter, List.contains_iff_mem]
    constructor
    · rintro ⟨⟨_, srcs⟩, ⟨hkv, hsrc⟩, rfl⟩
      rw [AList.mem_lookup_iff.2 hkv]
      exact hsrc
    · intro h
      cases hl : (buildTriggerTable edges).incoming.lookup n with
      | none => simp [hl] at h
      | some srcs =>
        rw [hl] at h
        exact ⟨⟨n, srcs⟩, ⟨AList.mem_lookup_iff.1 hl, h⟩, rfl⟩
  rw [PregelLoop.computeInitialTasks, exists_mem_pullTasks_iff, hsources,
    mem_sourcesOf_buildTriggerTable]
  constructor
  · rintro ⟨e, he, h⟩
    cases e with
    | fixed source target =>
      obtain ⟨rfl, rfl, -⟩ := h
      exact .inl he
    | conditional source router pathMap =>
      obtain ⟨rfl, h⟩ := h
      exact .inr ⟨router, pathMap, he, h⟩
  · rintro (h | ⟨router, pathMap, he, h⟩)
    · exact ⟨_, h, rfl, rfl, .inl rfl⟩
    · exact ⟨_, he, rfl, h⟩

/-- No `START` edge leads straight to `END`, and the path maps of the conditional ones have exactly
the targets that are selected, but for those that are entries anyway. -/
structure EntriesSelected (edges : List (Edge S)) (input : S) : Prop where
  /-- No edge from `START` to `END`. -/
  noEnd : .fixed START END ∉ edges
  /-- Every target of a path map is selected. -/
  all : mappedEntries edges ⊆ selectedEntries edges input
  /-- Every selected node is a target. -/
  only : ∀ n ∈ selectedEntries edges input, .fixed START n ∈ edges ∨ n ∈ mappedEntries edges

/-- **What the first superstep executes** is what the routers select exactly when the path maps
leave them no choice. -/
theorem startsRouted_iff (g : StateGraph S) (input : S) :
    g.StartsRouted input ↔ EntriesSelected g.edges input := by
  unfold StartsRouted
  constructor
  · intro h
    have h : ∀ n, (.fixed START n ∈ g.edges ∨ n ∈ mappedEntries g.edges) ↔
        n ∈ selectedEntries g.edges input := fun n =>
      exists_mem_computeInitialTasks_iff.symm.trans (h Unit {} none {} () 0 n)
    refine ⟨fun hend => ?_, fun n hn => (h n).1 (.inr hn), fun n hn => (h n).2 hn⟩
    exact ((h END).1 (.inl hend)).1 rfl
  · intro h σ compileConfig checkpointer config store nextUuid n
    refine Iff.trans (b := .fixed START n ∈ g.edges ∨ n ∈ mappedEntries g.edges)
      exists_mem_computeInitialTasks_iff ⟨?_, h.only n⟩
    rintro (hn | hn)
    · refine ⟨?_, .inl hn⟩
      rintro rfl
      exact h.noEnd hn
    · exact h.all hn

/-- **The entries of a graph**: the two ways to set one agree, and the routers of `START` edges
decide, exactly under the two conditions. -/
theorem entries_iff (g : StateGraph S) (n : String) (input : S) :
    (g.EntriesAgree n ↔
      ((g.addEdge START n).OtherwiseAccepted →
        ((g.addEdge START n).EntryAccepted g.entryPoint ↔
          (g.addEdge START n).EntryAccepted (some n)))) ∧
      (g.StartsRouted input ↔ EntriesSelected g.edges input) :=
  ⟨entriesAgree_iff g n, startsRouted_iff g input⟩

end StateGraph

/-! ### A node, and a choice between two -/

/-- The node `a`. -/
def oneNode : StateGraph Transcript where
  nodes := Dict.ofList [("a", appending 1)]

/-- `a` or `b` first, and `b` after `a`; the router chooses `a`. -/
def eitherFirst : StateGraph Transcript :=
  ({ nodes := Dict.ofList [("b", appending 2), ("a", appending 1)] : StateGraph Transcript }.addEdge
    "a" "b" |>.setEntryPoint "a").addConditionalEdges START
      (fun _ => .ok (.one "first")) (Dict.ofList [("second", "b"), ("first", "a")])

/-- The edge does not set the entry point, and the router is not asked. -/
theorem oneNode_eitherFirst_not_entries :
    ¬ oneNode.EntriesAgree "a" ∧
      (∃ c, eitherFirst.compileInner {} (none : Option (CheckpointSaver Unit)) = .ok c) ∧
      ¬ eitherFirst.StartsRouted {} := by
  refine ⟨fun h => ?_, ?_, fun h => ?_⟩
  · obtain ⟨c, hc⟩ := (h Unit {} none).1.2 ⟨_, rfl⟩
    cases hc
  · exact ⟨_, rfl⟩
  · obtain ⟨-, hb⟩ := (h Unit {} none {} () 0 "b").1 (by decide)
    have hedges : eitherFirst.edges = [.fixed "a" "b", .fixed START "a",
        .conditional START (fun _ => .ok (.one "first"))
          (Dict.ofList [("second", "b"), ("first", "a")])] := rfl
    rw [hedges] at hb
    obtain hb | ⟨router, pathMap, route, hmem, hroute, label, hlabel, htarget⟩ := hb
    · simp [START] at hb
    · simp only [List.mem_cons, reduceCtorEq, List.not_mem_nil, or_false, false_or,
        Edge.conditional.injEq, true_and] at hmem
      obtain ⟨rfl, rfl⟩ := hmem
      cases hroute
      obtain rfl : label = "first" := by simpa [RouteResult.targets] using hlabel
      revert htarget
      decide

end Juncture
