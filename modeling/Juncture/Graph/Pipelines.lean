import Juncture.Graph.FlowCharts
import Juncture.Graph.Loops
import Juncture.Graph.Reachability
import Juncture.Prebuilt.React

/-!
# Pipelines

`add_sequence` puts nodes in a row.

* `Pipeline.exists_built` : the builder accepts every pipeline.
* `Pipeline.Built.compileInner` : the graph of a pipeline compiles.
* `Pipeline.build_invoke` : a call of it runs the nodes one after the other.
-/

namespace Juncture

open FlowChart

variable {S σ : Type} [State S]

/-! ### Building one -/

/-- `add_sequence`. -/
def StateGraph.addSequence (g : StateGraph S) (nodes : List String) :
    Except TopologyError (StateGraph S) :=
  match nodes with
  | [] => .ok g
  | first :: _ =>
    match nodes.find? fun name => !g.nodes.containsKey name with
    | some name => .error (.nodeNotFound name)
    | none =>
      let g := if g.entryPoint.isNone then g.setEntryPoint first else g
      .ok ((nodes.zip nodes.tail).foldl (fun g window => g.addEdge window.1 window.2) g)

/-- A node of a pipeline. -/
structure Stage (S : Type) [State S] where
  /-- Its name. -/
  name : String
  /-- What it does. -/
  node : Node S
  /-- The name is one that a node can have. -/
  named : StateGraph.nodeNameError name = none ∧ name ≠ START ∧ name ≠ END
  /-- The node does not say where to go. -/
  straight : ∀ state config command, (node.call state config).runInline = .ok command →
    command.goto = .none

/-- Nodes in a row. -/
structure Pipeline (S : Type) [State S] where
  /-- The nodes. -/
  stages : List (Stage S)
  /-- There is at least one. -/
  nonempty : stages ≠ []
  /-- No two of them have the same name. -/
  distinct : (stages.map Stage.name).Nodup

/-- The node is added to a graph. -/
def Stage.add (g : StateGraph S) (stage : Stage S) : Except TopologyError (StateGraph S) :=
  g.addNodeSimple stage.name stage.node

/-- What a stage makes of the state. -/
def Stage.run (config : RunnableConfig) (store : FlowStore S) (stage : Stage S) :
    Except JunctureError (FlowStore S) := do
  let command ← (stage.node.call store.state config).runInline
  let (state, changed) ← updated store.state command.update
  sizeCheck config state changed
  pure ⟨settle store.changed state, changed⟩

namespace Pipeline

variable (p : Pipeline S)

/-- The names of the nodes. -/
def names : List String := p.stages.map Stage.name

/-- The graph of a pipeline, as its user builds it. -/
def build : Except TopologyError (StateGraph S) := do
  let g : StateGraph S ← p.stages.foldlM Stage.add {}
  let g ← g.addSequence p.names
  pure (g.setFinishPoint (p.stages.getLast p.nonempty).name)

/-- What the first `n` stages make of the input, one after the other. -/
def compute (config : RunnableConfig) (n : ℕ) (input : S) : Except JunctureError (FlowStore S) :=
  (p.stages.take n).foldlM (Stage.run config) ⟨input, .none⟩

/-- What a call of the pipeline should return: what all stages make of the input, or the error of the
first one that fails, as far as the limit allows. -/
def result (config : RunnableConfig) (call : InvokeCall S σ) : Except JunctureError (GraphOutput S) := do
  let limit := call.config.recursionLimit
  let store ← p.compute config limit call.input
  if p.stages.length < limit then .ok {
    value := finishFields store.state
    interrupts := []
    steps := p.stages.length
    runId := call.nextUuid
    checkpointId := call.config.checkpointId }
  else .error (.recursionLimit limit limit)

end Pipeline

/-! ### Neighbours in a list -/

section Windows

variable {α : Type} {l : List α} {x y : α}

theorem mem_windows_iff : (x, y) ∈ l.zip l.tail ↔ ∃ (i : ℕ) (h : i + 1 < l.length),
    l[i] = x ∧ l[i + 1] = y := by
  rw [List.mem_iff_getElem]
  constructor
  · rintro ⟨i, hi, heq⟩
    have hlen : i + 1 < l.length := by
      simp only [List.length_zip, List.length_tail] at hi
      omega
    simp only [List.getElem_zip, List.getElem_tail, Prod.mk.injEq] at heq
    exact ⟨i, hlen, heq⟩
  · rintro ⟨i, hi, rfl, rfl⟩
    exact ⟨i, by simp only [List.length_zip, List.length_tail]; omega, by simp⟩

/-- The neighbours of an element after which a list goes on. -/
theorem filterMap_windows [DecidableEq α] (hl : l.Nodup) {n : ℕ} (hn : n < l.length) :
    (l.zip l.tail).filterMap (fun w => if w.1 = l[n] then some w.2 else none) =
      l[n + 1]?.toList := by
  induction l generalizing n with
  | nil => cases hn
  | cons a l ih =>
    obtain ⟨ha, hl⟩ := List.nodup_cons.1 hl
    cases l with
    | nil =>
      obtain rfl : n = 0 := by simpa using hn
      rfl
    | cons b l =>
      rw [List.tail_cons, List.zip_cons_cons]
      cases n with
      | zero =>
        have hnone : ∀ w ∈ (b :: l).zip l, (if w.1 = a then some w.2 else none) = none := by
          rintro ⟨c, d⟩ hw
          refine if_neg fun hc => ha ?_
          rw [← show c = a from hc]
          exact (List.of_mem_zip hw).1
        simp only [List.filterMap_cons, List.getElem_cons_zero, if_true]
        exact congrArg (b :: ·) (List.filterMap_eq_nil_iff.2 hnone)
      | succ n =>
        have hn' : n < (b :: l).length := by simpa using hn
        have hne : a ≠ (b :: l)[n] := fun heq => ha (heq ▸ List.getElem_mem hn')
        simp only [List.filterMap_cons, List.getElem_cons_succ, if_neg hne]
        exact ih hl hn'

end Windows

/-- The fields exist that the state names. -/
structure FieldsInRange (S : Type) [State S] : Prop where
  replace : StateGraph.fieldIndexError S "replace_field_indices" (State.replaceFieldIndices S) = none
  replaceAfterFinish : StateGraph.fieldIndexError S "replace_after_finish_field_indices"
    (State.replaceAfterFinishFieldIndices S) = none

/-! ### The graph of a pipeline -/

/-- What the builder has made of the stages. -/
structure Pipeline.Built (p : Pipeline S) (g : StateGraph S) : Prop where
  nodes : g.nodes.entries = p.stages.map fun stage => ⟨stage.name, stage.node⟩
  metadata : g.builderMetadata.entries = p.stages.map fun stage => ⟨stage.name, {}⟩
  edges : g.edges = .fixed START (p.stages.head p.nonempty).name ::
    (p.names.zip p.names.tail).map (fun window => .fixed window.1 window.2) ++
      [.fixed (p.stages.getLast p.nonempty).name END]
  entryPoint : g.entryPoint = some (p.stages.head p.nonempty).name
  finishPoints : g.finishPoints = [(p.stages.getLast p.nonempty).name]

/-- A new key comes last. -/
theorem Dict.entries_union_singleton {α : Type} (d : Dict α) {k : String} (a : α) (h : k ∉ d.keys) :
    (d ∪ AList.singleton k a).entries = d.entries ++ [⟨k, a⟩] := by
  rw [AList.union_entries]
  have hk : k ∉ d.entries.map Sigma.fst := h
  show List.kunion d.entries [⟨k, a⟩] = _
  generalize d.entries = l at hk
  induction l with
  | nil => rfl
  | cons kv l ih =>
    rw [List.map_cons, List.mem_cons, not_or] at hk
    rw [List.kunion_cons, List.kerase_of_notMem_keys (by simpa [List.keys] using Ne.symm hk.1), ih hk.2]
    rfl

/-- What is left when the stages have been added. -/
theorem foldlM_add (stages : List (Stage S)) (g : StateGraph S)
    (hkeys : g.builderMetadata.keys = g.nodes.keys)
    (hdistinct : (g.nodes.keys ++ stages.map Stage.name).Nodup) :
    ∃ g', stages.foldlM Stage.add g = .ok g' ∧
      g'.nodes.entries = g.nodes.entries ++ stages.map (fun stage => ⟨stage.name, stage.node⟩) ∧
      g'.builderMetadata.entries =
        g.builderMetadata.entries ++ stages.map (fun stage => ⟨stage.name, {}⟩) ∧
      g'.edges = g.edges ∧ g'.entryPoint = g.entryPoint ∧ g'.finishPoints = g.finishPoints := by
  induction stages generalizing g with
  | nil => exact ⟨g, rfl, by simp, by simp, rfl, rfl, rfl⟩
  | cons stage stages ih =>
    have hnew : stage.name ∉ g.nodes.keys := fun hmem =>
      (List.nodup_append.1 hdistinct).2.2 _ hmem _ (List.mem_cons_self ..) rfl
    have hadd : stage.add g = .ok { g with
        nodes := g.nodes ∪ AList.singleton stage.name stage.node
        builderMetadata := g.builderMetadata ∪ AList.singleton stage.name {} } := by
      unfold Stage.add StateGraph.addNodeSimple
      rw [if_neg]
      rw [Dict.containsKey_iff]
      exact hnew
    have hnodes := Dict.entries_union_singleton g.nodes stage.node hnew
    have hmetadata := Dict.entries_union_singleton g.builderMetadata ({} : NodeMetadata)
      (k := stage.name) (by rwa [hkeys])
    have hkeys' : (g.nodes ∪ AList.singleton stage.name stage.node).keys =
        g.nodes.keys ++ [stage.name] := by
      rw [AList.keys, hnodes, List.keys, List.map_append]
      rfl
    have hmetadataKeys : (g.builderMetadata ∪ AList.singleton stage.name {}).keys =
        (g.nodes ∪ AList.singleton stage.name stage.node).keys := by
      rw [hkeys', ← hkeys, AList.keys, hmetadata, List.keys, List.map_append]
      rfl
    obtain ⟨g', hg', hn, hm, he, hp, hf⟩ := ih (g := { g with
        nodes := g.nodes ∪ AList.singleton stage.name stage.node
        builderMetadata := g.builderMetadata ∪ AList.singleton stage.name {} }) hmetadataKeys (by
      rw [hkeys']
      simpa using hdistinct)
    refine ⟨g', ?_, ?_, ?_, he, hp, hf⟩
    · rw [List.foldlM_cons, hadd]
      exact hg'
    · rw [hn, hnodes, List.append_assoc]
      rfl
    · rw [hm, hmetadata, List.append_assoc]
      rfl

namespace Pipeline

variable {p : Pipeline S}

theorem names_eq_cons : ∃ rest, p.names = (p.stages.head p.nonempty).name :: rest := by
  obtain ⟨stages, hne, hdistinct⟩ := p
  cases stages with
  | nil => exact absurd rfl hne
  | cons stage stages => exact ⟨stages.map Stage.name, rfl⟩

/-- **The builder accepts every pipeline.** -/
theorem exists_built (p : Pipeline S) : ∃ g, p.build = .ok g ∧ p.Built g := by
  obtain ⟨g, hg, hnodes, hmetadata, hedges, hentry, hfinish⟩ :=
    foldlM_add p.stages {} rfl (by
      show ([] ++ p.stages.map Stage.name).Nodup
      exact p.distinct)
  obtain ⟨rest, hnames⟩ := p.names_eq_cons
  have hregistered : (p.names.find? fun name => !g.nodes.containsKey name) = none := by
    rw [List.find?_eq_none]
    intro name hname
    have hmem : name ∈ g.nodes := by
      show name ∈ g.nodes.entries.map Sigma.fst
      rw [hnodes]
      simpa [names] using hname
    simp [Dict.containsKey_iff.2 hmem]
  have hwindows : ∀ (windows : List (String × String)) (k : StateGraph S),
      windows.foldl (fun g window => g.addEdge window.1 window.2) k =
        { k with edges := k.edges ++ windows.map fun window => .fixed window.1 window.2 } := by
    intro windows
    induction windows with
    | nil => intro k; simp
    | cons window windows ih =>
      intro k
      rw [List.foldl_cons, ih]
      simp [StateGraph.addEdge]
  have hsequence : g.addSequence p.names = .ok { g with
      entryPoint := some (p.stages.head p.nonempty).name
      edges := .fixed START (p.stages.head p.nonempty).name ::
        (p.names.zip p.names.tail).map (fun window => .fixed window.1 window.2) } := by
    unfold StateGraph.addSequence
    rw [hregistered, hentry]
    rw [hnames]
    dsimp only
    rw [hwindows]
    simp [StateGraph.setEntryPoint, hedges]
  refine ⟨_, ExceptFold.bind_eq_ok_iff.2 ⟨g, hg, ExceptFold.bind_eq_ok_iff.2 ⟨_, hsequence, rfl⟩⟩, ?_⟩
  refine ⟨hnodes, hmetadata, rfl, rfl, ?_⟩
  show g.finishPoints ++ _ = _
  rw [hfinish]
  rfl

/-! ### Compiling it -/

theorem named {name : String} (h : name ∈ p.names) :
    StateGraph.nodeNameError name = none ∧ name ≠ START ∧ name ≠ END := by
  obtain ⟨stage, -, rfl⟩ := List.mem_map.1 h
  exact stage.named

theorem head_mem (p : Pipeline S) : (p.stages.head p.nonempty).name ∈ p.names :=
  List.mem_map_of_mem (List.head_mem _)

theorem last_mem (p : Pipeline S) : (p.stages.getLast p.nonempty).name ∈ p.names :=
  List.mem_map_of_mem (List.getLast_mem _)

theorem windows_mem {x y : String} (h : (x, y) ∈ p.names.zip p.names.tail) :
    x ∈ p.names ∧ y ∈ p.names :=
  ⟨(List.of_mem_zip h).1, List.mem_of_mem_tail (List.of_mem_zip h).2⟩

namespace Built

variable {g : StateGraph S}

theorem keys (hb : p.Built g) : g.nodes.keys = p.names := by
  rw [AList.keys, hb.nodes, List.keys, List.map_map]
  rfl

theorem isNode (hb : p.Built g) {name : String} :
    g.nodes.containsKey name = true ↔ name ∈ p.names := by
  rw [Dict.containsKey_iff, ← hb.keys]
  rfl

theorem mem_edges (hb : p.Built g) {e : Edge S} : e ∈ g.edges ↔
    e = .fixed START (p.stages.head p.nonempty).name ∨
      (∃ x y, (x, y) ∈ p.names.zip p.names.tail ∧ e = .fixed x y) ∨
      e = .fixed (p.stages.getLast p.nonempty).name END := by
  rw [hb.edges]
  simp only [List.cons_append, List.mem_cons, List.mem_append, List.mem_map, Prod.exists,
    List.not_mem_nil, or_false]
  constructor
  · rintro (h | ⟨x, y, hw, rfl⟩ | h)
    · exact .inl h
    · exact .inr (.inl ⟨x, y, hw, rfl⟩)
    · exact .inr (.inr h)
  · rintro (h | ⟨x, y, hw, rfl⟩ | h)
    · exact .inl h
    · exact .inr (.inl ⟨x, y, hw, rfl⟩)
    · exact .inr (.inr h)

/-- An edge leads from a node to its neighbour. -/
theorem leads_iff (hb : p.Built g) {x y : String} :
    (∃ edge ∈ g.edges, edge.Leads x y) ↔ (x, y) ∈ p.names.zip p.names.tail := by
  constructor
  · rintro ⟨edge, hedge, hleads⟩
    obtain rfl | ⟨x', y', hw, rfl⟩ | rfl := hb.mem_edges.1 hedge
    · exact absurd rfl hleads.2.2.1
    · obtain ⟨rfl, rfl, -⟩ := hleads
      exact hw
    · exact absurd rfl hleads.2.2.2
  · intro hw
    obtain ⟨hx, hy⟩ := windows_mem hw
    exact ⟨_, hb.mem_edges.2 (.inr (.inl ⟨x, y, hw, rfl⟩)), rfl, rfl, (named hx).2.1, (named hy).2.2⟩

/-- Along the edges, the position in the pipeline goes up. -/
theorem idxOf_le (hb : p.Built g) {x y : String} (h : Reaches g.edges x y) :
    p.names.idxOf x ≤ p.names.idxOf y ∧ (p.names.idxOf x = p.names.idxOf y → x = y) := by
  induction h with
  | refl => exact ⟨Nat.le_refl _, fun _ => rfl⟩
  | tail _ hedge ih =>
    obtain ⟨i, hi, rfl, rfl⟩ := mem_windows_iff.1 (hb.leads_iff.1 hedge)
    have hdistinct : p.names.Nodup := p.distinct
    rw [hdistinct.idxOf_getElem i (by omega)] at ih
    rw [hdistinct.idxOf_getElem (i + 1) hi]
    exact ⟨by omega, fun heq => by omega⟩

/-- No node can be reached from a later one. -/
theorem checkInfiniteLoops (hb : p.Built g) : checkInfiniteLoops g.nodes g.edges = .ok () := by
  refine checkInfiniteLoops_eq_ok_iff.2 fun x _ hnontrivial => ?_
  obtain ⟨y, ⟨hxy, hyx⟩, z, ⟨hxz, hzx⟩, hne⟩ := hnontrivial
  have hsame : ∀ {w}, Reaches g.edges x w → Reaches g.edges w x → x = w := fun h h' =>
    (hb.idxOf_le h).2 (Nat.le_antisymm (hb.idxOf_le h).1 (hb.idxOf_le h').1)
  exact absurd ((hsame hxy hyx).symm.trans (hsame hxz hzx)) hne

/-- Every node can be reached from the first one. -/
theorem reaches (hb : p.Built g) {i : ℕ} (hi : i < p.names.length) :
    Relation.ReflTransGen (Follows g.edges g.builderMetadata) (p.stages.head p.nonempty).name
      p.names[i] := by
  induction i with
  | zero =>
    obtain ⟨rest, hnames⟩ := p.names_eq_cons
    have hfirst : p.names[0] = (p.stages.head p.nonempty).name := by simp [hnames]
    rw [hfirst]
  | succ i ih =>
    exact (ih (by omega)).tail (.inl (hb.leads_iff.2 (mem_windows_iff.2 ⟨i, hi, rfl, rfl⟩)))

theorem edgeTargets (hb : p.Built g) : validateEdgeTargets g.nodes g.edges = .ok () := by
  rw [validateEdgeTargets, StateGraph.reject_eq_ok_iff, List.findSome?_eq_none_iff]
  intro e he
  have hnode : ∀ {name}, name ∈ p.names → g.nodes.containsKey name = true := hb.isNode.2
  obtain rfl | ⟨x, y, hw, rfl⟩ | rfl := hb.mem_edges.1 he
  · simp [edgeTargetError, hnode p.head_mem]
  · obtain ⟨hx, hy⟩ := windows_mem hw
    simp [edgeTargetError, hnode hx, hnode hy]
  · simp [edgeTargetError, hnode p.last_mem]

theorem isolatedNodes (hb : p.Built g) : checkIsolatedNodes g.nodes g.edges = .ok () := by
  rw [checkIsolatedNodes, StateGraph.reject_eq_ok_iff, Option.map_eq_none_iff, List.find?_eq_none]
  intro name hname
  rw [hb.keys] at hname
  -- an edge leads to every node
  have henters : g.edges.any (enters name) = true := by
    obtain ⟨i, hi, rfl⟩ := List.mem_iff_getElem.1 hname
    have hend : p.names[i] ≠ END := (named hname).2.2
    rw [List.any_eq_true]
    cases i with
    | zero =>
      obtain ⟨rest, hnames⟩ := p.names_eq_cons
      have hfirst : p.names[0] = (p.stages.head p.nonempty).name := by simp [hnames]
      rw [hfirst] at hend ⊢
      exact ⟨_, hb.mem_edges.2 (.inl rfl), by simp [enters, hend]⟩
    | succ i =>
      exact ⟨_, hb.mem_edges.2 (.inr (.inl ⟨_, _, mem_windows_iff.2 ⟨i, hi, rfl, rfl⟩, rfl⟩)),
        by simp [enters, hend]⟩
  simp [henters]

/-- **The graph of a pipeline compiles.** -/
theorem compileInner (hb : p.Built g) (hfields : FieldsInRange S) (config : CompileConfig)
    (checkpointer : Option (CheckpointSaver σ)) :
    g.compileInner config checkpointer = .ok (g.compiled config checkpointer) := by
  have hnames : g.nodes.keys.findSome? StateGraph.nodeNameError = none := by
    rw [List.findSome?_eq_none_iff, hb.keys]
    exact fun name hname => (named hname).1
  have hfinish : (g.finishPoints.find? fun finish => !g.nodes.containsKey finish) = none := by
    rw [hb.finishPoints]
    simp [hb.isNode.2 p.last_mem]
  refine StateGraph.compileInner_eq_ok_iff.2 ⟨⟨⟨hb.edgeTargets, hb.isolatedNodes,
    hb.checkInfiniteLoops, ?_⟩, _, hb.entryPoint, hb.isNode.2 p.head_mem, ?_⟩, rfl⟩
  · unfold StateGraph.validateKeys
    simp only [StateGraph.seq_eq_ok_iff, StateGraph.reject_eq_ok_iff, Option.map_eq_none_iff]
    exact ⟨hnames, rfl, hfinish, hfields.replace, hfields.replaceAfterFinish⟩
  · refine checkReachability_eq_ok_iff.2 ⟨_, hb.entryPoint, fun node hnode => ?_⟩
    rw [hb.keys] at hnode
    obtain ⟨i, hi, rfl⟩ := List.mem_iff_getElem.1 hnode
    exact hb.reaches hi

/-! ### Running it -/

variable {config : CompileConfig} {checkpointer : Option (CheckpointSaver σ)}

/-- After a node comes its neighbour. -/
theorem edgesOf (hb : p.Built g) {i : ℕ} (hi : i < p.names.length) :
    (buildTriggerTable g.edges).edgesOf p.names[i] = (p.names[i + 1]?.map .fixed).toList := by
  have hname := named (List.getElem_mem hi)
  have hwindow : ∀ w ∈ p.names.zip p.names.tail,
      (Edge.fixed w.1 w.2 : Edge S).compiledAt p.names[i] =
        (if w.1 = p.names[i] then some w.2 else none).map CompiledEdge.fixed := by
    rintro ⟨x, y⟩ hw
    have hy := named (windows_mem hw).2
    simp only [Edge.compiledAt, ne_eq, hname.2.1, hy.2.2, not_false_eq_true, and_true]
    split_ifs <;> rfl
  have hwindows : (p.names.zip p.names.tail).filterMap
      (Edge.compiledAt p.names[i] ∘ fun w => (Edge.fixed w.1 w.2 : Edge S)) =
        (p.names[i + 1]?.map CompiledEdge.fixed).toList := by
    have hdistinct : p.names.Nodup := p.distinct
    rw [show (p.names[i + 1]?.map (CompiledEdge.fixed (S := S))).toList =
      p.names[i + 1]?.toList.map CompiledEdge.fixed by cases p.names[i + 1]? <;> rfl,
      ← filterMap_windows hdistinct hi, List.map_filterMap]
    exact List.filterMap_congr fun w hw => hwindow w hw
  have hlast : (Edge.fixed (p.stages.getLast p.nonempty).name END : Edge S).compiledAt p.names[i] =
      none := by
    simp [Edge.compiledAt]
  rw [edgesOf_buildTriggerTable, hb.edges, List.cons_append, List.filterMap_cons_none,
    List.filterMap_append, List.filterMap_map, hwindows, List.filterMap_cons_none hlast,
    List.filterMap_nil, List.append_nil]
  simp [Edge.compiledAt, Ne.symm hname.2.1]

/-- What is not a node of the pipeline has no edge. -/
theorem edgesOf_eq_nil (hb : p.Built g) {node : String} (h : node ∉ p.names) :
    (buildTriggerTable g.edges).edgesOf node = [] := by
  rw [edgesOf_buildTriggerTable, List.filterMap_eq_nil_iff]
  intro e he
  obtain rfl | ⟨x, y, hw, rfl⟩ | rfl := hb.mem_edges.1 he
  · refine if_neg ?_
    rintro ⟨rfl, hstart, -⟩
    exact hstart rfl
  · refine if_neg ?_
    rintro ⟨rfl, -⟩
    exact h (windows_mem hw).1
  · exact if_neg fun hc => hc.2.2 rfl

/-- The stage of a name. -/
theorem lookup (hb : p.Built g) {i : ℕ} (hi : i < p.stages.length) :
    g.nodes.lookup (p.stages[i]).name = some (p.stages[i]).node := by
  refine AList.mem_lookup_iff.2 ?_
  rw [hb.nodes]
  exact List.mem_map_of_mem (List.getElem_mem hi)

/-- **The graph of a pipeline is sequential.** -/
theorem sequential (hb : p.Built g) : (g.compiled config checkpointer).Sequential where
  edges node := by
    show ((buildTriggerTable g.edges).edgesOf node).length ≤ 1
    by_cases hnode : node ∈ p.names
    · obtain ⟨i, hi, rfl⟩ := List.mem_iff_getElem.1 hnode
      rw [hb.edgesOf hi]
      cases p.names[i + 1]? <;> simp
    · rw [hb.edgesOf_eq_nil hnode]
      exact Nat.zero_le _
  routers node router pathMap h := by
    have hmem : .conditional router pathMap ∈ (buildTriggerTable g.edges).edgesOf node := h
    by_cases hnode : node ∈ p.names
    · obtain ⟨i, hi, rfl⟩ := List.mem_iff_getElem.1 hnode
      rw [hb.edgesOf hi] at hmem
      cases hnext : p.names[i + 1]? with
      | none => simp [hnext] at hmem
      | some next => simp [hnext] at hmem
    · rw [hb.edgesOf_eq_nil hnode] at hmem
      cases hmem
  commands name node h state runConfig command hrun := by
    have hmem : ⟨name, node⟩ ∈ g.nodes.entries := AList.mem_lookup_iff.1 h
    rw [hb.nodes] at hmem
    obtain ⟨stage, -, heq⟩ := List.mem_map.1 hmem
    cases heq
    exact .inl (stage.straight state runConfig command hrun)
  plain kv h := by
    have hmem : kv ∈ g.builderMetadata.entries := h
    rw [hb.metadata] at hmem
    obtain ⟨stage, -, rfl⟩ := List.mem_map.1 hmem
    exact ⟨rfl, rfl, rfl, rfl, rfl⟩

/-- Every run of a pipeline starts with its first node. -/
theorem enters (hb : p.Built g) :
    (g.compiled config checkpointer).Enters (p.stages.head p.nonempty).name := by
  have hsources : ∀ {node}, .edge START ∈ (buildTriggerTable g.edges).sourcesOf node ↔
      node = (p.stages.head p.nonempty).name := by
    intro node
    rw [mem_sourcesOf_buildTriggerTable]
    constructor
    · rintro ⟨e, he, htriggers⟩
      obtain rfl | ⟨x, y, hw, rfl⟩ | rfl := hb.mem_edges.1 he
      · exact htriggers.2.1.symm
      · exact absurd htriggers.1 (named (windows_mem hw).1).2.1
      · exact absurd htriggers.1 (named p.last_mem).2.1
    · rintro rfl
      exact ⟨_, hb.mem_edges.2 (.inl rfl), rfl, rfl, .inl rfl⟩
  show ((buildTriggerTable g.edges).incoming.entries.filter _).map Sigma.fst = _
  refine List.perm_singleton.1 ((List.perm_ext_iff_of_nodup ?_ (List.nodup_singleton _)).2 ?_)
  · exact (AList.nodupKeys _).sublist List.filter_sublist
  · intro node
    rw [List.mem_singleton, ← hsources, List.mem_map]
    unfold TriggerTable.sourcesOf
    constructor
    · rintro ⟨⟨_, sources⟩, hkv, rfl⟩
      obtain ⟨hkv, hstart⟩ := List.mem_filter.1 hkv
      rw [AList.mem_lookup_iff.2 hkv]
      simpa using hstart
    · intro hstart
      cases hl : (buildTriggerTable g.edges).incoming.lookup node with
      | none =>
        rw [hl] at hstart
        cases hstart
      | some sources =>
        rw [hl] at hstart
        exact ⟨⟨node, sources⟩, List.mem_filter.2 ⟨AList.mem_lookup_iff.1 hl, by simpa using hstart⟩,
          rfl⟩

/-- **What a node does**: what its stage does, and then it is the turn of the next one. -/
theorem chart_eq (hb : p.Built g) (runConfig : RunnableConfig) {i : ℕ} (hi : i < p.stages.length)
    (store : FlowStore S) :
    (g.compiled config checkpointer).chart runConfig (p.stages[i]).name store =
      (Stage.run runConfig store p.stages[i]).map fun store' =>
        (store', p.stages[i + 1]?.map Stage.name) := by
  have hexit : ∀ command state, command.goto = .none →
      (g.compiled config checkpointer).exit (p.stages[i]).name command state =
        .ok (p.stages[i + 1]?.map Stage.name) := by
    intro command state hgoto
    have hlen : i < p.names.length := by simpa [names] using hi
    have hname : p.names[i] = (p.stages[i]).name := List.getElem_map _
    have hedges : (buildTriggerTable g.edges).edgesOf (p.stages[i]).name =
        (p.stages[i + 1]?.map fun stage => .fixed stage.name).toList := by
      rw [← hname, hb.edgesOf hlen, names, List.getElem?_map, Option.map_map]
      rfl
    unfold CompiledGraph.exit computeNextTasks
    simp only [List.foldlM_cons, List.foldlM_nil, routeOutput, successOutput, PendingTask.pull, hgoto]
    rw [show (g.compiled config checkpointer).triggerTable = buildTriggerTable g.edges from rfl, hedges]
    cases hnext : p.stages[i + 1]? with
    | none => rfl
    | some next =>
      have hmem : next.name ∈ p.names := List.mem_map_of_mem (List.mem_of_getElem? hnext)
      have htriggered : ((TriggerToNodes.fromTriggerTable
          (buildTriggerTable g.edges)).triggeredNodes [(p.stages[i]).name]).contains next.name &&
            next.name != END := by
        obtain ⟨hi', heq⟩ := List.getElem?_eq_some_iff.1 hnext
        have hwindow : ((p.stages[i]).name, next.name) ∈ p.names.zip p.names.tail :=
          mem_windows_iff.2 ⟨i, by simpa [names] using hi', hname, by simp [names, heq]⟩
        have hsource : .edge (p.stages[i]).name ∈ (buildTriggerTable g.edges).sourcesOf next.name :=
          mem_sourcesOf_buildTriggerTable.2 ⟨_, hb.mem_edges.2 (.inr (.inl ⟨_, _, hwindow, rfl⟩)),
            rfl, rfl, .inr (named hmem).2.2⟩
        have htriggered : next.name ∈ (TriggerToNodes.fromTriggerTable
            (buildTriggerTable g.edges)).triggeredNodes [(p.stages[i]).name] :=
          TriggerToNodes.mem_triggeredNodes_iff.2 ⟨_, hsource, rfl⟩
        simpa [(named hmem).2.2] using htriggered
      simp only [Option.map_some, Option.toList_some, List.foldlM_cons, List.foldlM_nil, processEdge,
        htriggered, if_true]
      rfl
  have hnode : (g.compiled config checkpointer).nodes.lookup (p.stages[i]).name =
      some (p.stages[i]).node := hb.lookup hi
  unfold CompiledGraph.chart CompiledGraph.absorb Stage.run
  rw [hnode]
  dsimp only
  cases hrun : (p.stages[i].node.call store.state runConfig).runInline with
  | error e => rfl
  | ok command =>
    simp only [bind, Except.bind]
    rcases updated store.state command.update with e | ⟨state, changed⟩
    · rfl
    · dsimp only
      rcases sizeCheck runConfig state changed with e | ⟨⟩
      · rfl
      · simp only [hexit command _ (p.stages[i].straight _ _ _ hrun)]
        rfl

/-- What holds at each node of a pipeline: control gets to it once, when all the stages before it have
been run. -/
theorem verified (hb : p.Built g) (config : CompileConfig) (checkpointer : Option (CheckpointSaver σ))
    (runConfig : RunnableConfig) (input : S) :
    Verified ((g.compiled config checkpointer).chart runConfig)
      (fun n name store => ∃ h : n < p.stages.length, name = (p.stages[n]).name ∧
        p.compute runConfig n input = .ok store)
      (fun n store => n = p.stages.length ∧ p.compute runConfig n input = .ok store)
      (fun n e => p.compute runConfig (n + 1) input = .error e) := by
  have hcompute : ∀ {n store}, (h : n < p.stages.length) → p.compute runConfig n input = .ok store →
      p.compute runConfig (n + 1) input = Stage.run runConfig store p.stages[n] := by
    intro n store h hstore
    unfold compute at hstore ⊢
    rw [List.take_succ_eq_append_getElem h, List.foldlM_append, hstore]
    show (Stage.run runConfig store p.stages[n] >>= pure) = _
    exact bind_pure _
  constructor
  · rintro n name store store' next ⟨h, rfl, hstore⟩ hblock
    rw [hb.chart_eq runConfig h] at hblock
    obtain ⟨t, ht, heq⟩ := ExceptFold.map_eq_ok_iff.1 hblock
    obtain ⟨rfl, hnext⟩ := Prod.mk.inj heq
    obtain ⟨stage, hstage, rfl⟩ := Option.map_eq_some_iff.1 hnext
    obtain ⟨hlen, rfl⟩ := List.getElem?_eq_some_iff.1 hstage
    exact ⟨hlen, rfl, (hcompute h hstore).trans ht⟩
  · rintro n name store store' ⟨h, rfl, hstore⟩ hblock
    rw [hb.chart_eq runConfig h] at hblock
    obtain ⟨t, ht, heq⟩ := ExceptFold.map_eq_ok_iff.1 hblock
    obtain ⟨rfl, hnone⟩ := Prod.mk.inj heq
    have hlen := List.getElem?_eq_none_iff.1 (Option.map_eq_none_iff.1 hnone)
    exact ⟨by omega, (hcompute h hstore).trans ht⟩
  · rintro n name store e ⟨h, rfl, hstore⟩ hblock
    rw [hb.chart_eq runConfig h] at hblock
    rw [hcompute h hstore]
    cases hrun : Stage.run runConfig store p.stages[n] with
    | error e' =>
      rw [hrun] at hblock
      cases hblock
      rfl
    | ok t =>
      rw [hrun] at hblock
      cases hblock

end Built

/-- A pipeline stops with the first stage that fails. -/
theorem compute_error {runConfig : RunnableConfig} {m n : ℕ} {input : S} {e : JunctureError}
    (h : p.compute runConfig (m + 1) input = .error e) (hn : m < n) :
    p.compute runConfig n input = .error e := by
  obtain ⟨k, rfl⟩ := Nat.exists_eq_add_of_lt hn
  unfold compute at h ⊢
  rw [Nat.add_right_comm, List.take_add, List.foldlM_append, h]
  rfl

/-- **A pipeline runs its nodes one after the other.**  The builder accepts it, it compiles, and a call
returns what all of its stages make of the input, or the error of the first one that fails. -/
theorem build_invoke [InterruptHash] (p : Pipeline S) (hfields : FieldsInRange S)
    (config : CompileConfig) (checkpointer : Option (CheckpointSaver σ)) :
    ∃ b g, p.build = .ok b ∧ b.compileInner config checkpointer = .ok g ∧
      ∀ (call : InvokeCall S σ) (rounds : ℕ → Round S), g.Undisturbed call rounds →
        ∀ r, g.Yields call rounds r ↔ r = p.result (g.invokeConfig call).2 call := by
  obtain ⟨b, hbuild, hb⟩ := p.exists_built
  refine ⟨b, _, hbuild, hb.compileInner hfields config checkpointer, fun call rounds hcall r => ?_⟩
  obtain ⟨n, l, e, hend, hreport⟩ := CompiledGraph.exists_endsAt hb.sequential hb.enters hcall
  rw [CompiledGraph.yields_iff hcall.uncached hend, hreport]
  refine Eq.congr_right ?_
  have hlen : 0 < p.stages.length := List.length_pos_iff.2 p.nonempty
  have hfirst : (p.stages.head p.nonempty).name = (p.stages[0]).name := by
    rw [List.head_eq_getElem]
  have hsat := (hb.verified config checkpointer
    ((b.compiled config checkpointer).invokeConfig call).2 call.input).run
    ⟨hlen, hfirst, rfl⟩ call.config.recursionLimit
  generalize ((b.compiled config checkpointer).invokeConfig call).2 = runConfig at hsat ⊢
  unfold result
  dsimp only
  cases hrun : run ((b.compiled config checkpointer).chart runConfig)
      (p.stages.head p.nonempty).name ⟨call.input, .none⟩ call.config.recursionLimit with
  | halted m store =>
    rw [hrun] at hsat
    obtain ⟨hm, rfl, hstore⟩ := hsat
    have hall : p.compute runConfig call.config.recursionLimit call.input = .ok store := by
      rw [← hstore, compute, compute, List.take_of_length_le hm, List.take_length]
    rw [hall]
    rfl
  | failed m e =>
    rw [hrun] at hsat
    obtain ⟨hm, herror⟩ := hsat
    rw [compute_error herror hm]
    rfl
  | going name store =>
    rw [hrun] at hsat
    obtain ⟨hlt, -, hstore⟩ := hsat
    rw [hstore]
    exact (if_neg (by omega)).symm

end Pipeline

/-! ### Two stages -/

/-- A stage that notes its number. -/
def Stage.noting (name : String) (n : ℕ)
    (named : StateGraph.nodeNameError name = none ∧ name ≠ START ∧ name ≠ END) : Stage Transcript where
  name
  node := appending n
  named
  straight state config command h := by
    cases h
    rfl

/-- `a`, then `b`. -/
def twoStages : Pipeline Transcript where
  stages := [.noting "a" 1 (by decide), .noting "b" 2 (by decide)]
  nonempty := List.cons_ne_nil _ _
  distinct := by decide

/-- A call of them. -/
theorem build_invoke_twoStages :
    ∃ b g, twoStages.build = .ok b ∧
      b.compileInner {} (none : Option (CheckpointSaver MemoryStore)) = .ok g ∧
      ∀ r, g.Yields (chainCall none) undisturbed r ↔ r = .ok {
        value := { log := [1, 2] }
        interrupts := []
        steps := 2
        runId := 1
        checkpointId := none } := by
  obtain ⟨b, g, hbuild, hcompile, h⟩ :=
    Pipeline.build_invoke twoStages ⟨rfl, rfl⟩ {} (none : Option (CheckpointSaver MemoryStore))
  obtain ⟨-, rfl⟩ := StateGraph.compileInner_eq_ok_iff.1 hcompile
  exact ⟨b, _, hbuild, hcompile, h (chainCall none) undisturbed
    ⟨rfl, rfl, rfl, rfl, fun _ => ⟨rfl, rfl⟩⟩⟩

end Juncture
