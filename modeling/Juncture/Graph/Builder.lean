import Juncture.Graph.Topology

/-!
# Building a graph

`StateGraph` collects nodes and edges; `compileInner` validates them and turns the edges into a
trigger table.  The entry point is kept apart from the edges and only validation looks at it.
-/

namespace Juncture

variable {S σ : Type} [State S]

/-- `StateGraph<S>`. -/
structure StateGraph (S : Type) [State S] where
  /-- Nodes, in registration order. -/
  nodes : Dict (Node S) := ∅
  /-- Edges. -/
  edges : List (Edge S) := []
  /-- Entry point. -/
  entryPoint : Option String := none
  /-- Finish points. -/
  finishPoints : List String := []
  /-- Metadata of the nodes. -/
  builderMetadata : Dict NodeMetadata := ∅

/-- `CompileConfig`. -/
structure CompileConfig where
  /-- Nodes to stop before. -/
  interruptBefore : List String := []
  /-- Nodes to stop after. -/
  interruptAfter : List String := []
  /-- Cache of results. -/
  cachePolicy : Option ResultCachePolicy := none

namespace StateGraph

variable (g : StateGraph S)

/-- `add_edge`. -/
def addEdge (source target : String) : StateGraph S :=
  { g with edges := g.edges ++ [.fixed source target] }

/-- `add_conditional_edges`. -/
def addConditionalEdges (source : String) (router : Router S) (pathMap : PathMap) : StateGraph S :=
  { g with edges := g.edges ++ [.conditional source router pathMap] }

/-- `set_entry_point`. -/
def setEntryPoint (node : String) : StateGraph S :=
  { g with entryPoint := some node, edges := g.edges ++ [.fixed START node] }

/-- `set_finish_point`. -/
def setFinishPoint (node : String) : StateGraph S :=
  { g with finishPoints := g.finishPoints ++ [node], edges := g.edges ++ [.fixed node END] }

/-! ### Compilation -/

/-- What `validate_keys` finds wrong with the name of a node. -/
def nodeNameError (name : String) : Option TopologyError :=
  if name.isEmpty then some (.invalidNodeName name "node name cannot be empty")
  else if name.toList.any [':', '/', '\\'].contains then
    some (.invalidNodeName name "node name cannot contain ':', '/', or '\\'")
  else none

/-- What `validate_keys` finds wrong with a list of field indices of the state. -/
def fieldIndexError (S : Type) [State S] (context : String) (indices : List ℕ) :
    Option TopologyError :=
  (indices.find? fun i => decide (State.fieldCount S ≤ i)).map fun i =>
    .invalidFieldReference i (State.fieldCount S) (State.fieldNames S) context

/-- `validate_keys`. -/
def validateKeys : Except TopologyError Unit := do
  reject (g.nodes.keys.findSome? nodeNameError)
  reject ((g.entryPoint.filter fun entry => !g.nodes.containsKey entry).map .nodeNotFound)
  reject ((g.finishPoints.find? fun finish => !g.nodes.containsKey finish).map .nodeNotFound)
  reject (fieldIndexError S "replace_field_indices" (State.replaceFieldIndices S))
  reject (fieldIndexError S "replace_after_finish_field_indices"
    (State.replaceAfterFinishFieldIndices S))

/-- What an accepted graph is compiled to. -/
def compiled (config : CompileConfig) (checkpointer : Option (CheckpointSaver σ)) :
    CompiledGraph S σ where
  nodes := g.nodes
  triggerTable := buildTriggerTable g.edges
  builderMetadata := g.builderMetadata
  checkpointer
  interruptBefore := config.interruptBefore
  interruptAfter := config.interruptAfter
  cachePolicy := config.cachePolicy

/-- `compile_inner`, behind all the public compile methods. -/
def compileInner (config : CompileConfig) (checkpointer : Option (CheckpointSaver σ)) :
    Except TopologyError (CompiledGraph S σ) := do
  validate g.nodes g.edges g.entryPoint g.builderMetadata
  g.validateKeys
  pure (g.compiled config checkpointer)

end StateGraph

end Juncture
