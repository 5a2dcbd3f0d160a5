import Juncture.Core.Derived
import Juncture.Graph.Drivers

/-!
# Subgraphs

A compiled graph is mounted as a node of another graph: a call of the node runs the subgraph, from an
input made of the state of the parent, or resumes it from a checkpoint of an interrupt that is found
under the configuration of the call, and makes an update of the parent of what the run returns.

* `computeChildNamespace` : the namespace the subgraph is run in.
* `SubgraphNode.start` : which run a call leads to.
* `SubgraphRun.Returns` : what that run returns, and the store it leaves behind.
* `SubgraphNode.finish` : what the call returns then.
* `sharedSubgraphNode` : the node of `add_subgraph_node`.

A fresh identifier is part of the call.
-/

namespace Juncture

/-- `SubgraphPersistence`. -/
inductive SubgraphPersistence where
  | inherit
  | perThread
  | stateless
deriving DecidableEq

/-- `CheckpointNamespace::child`, on the text of a namespace. -/
def childNamespace (base nodeName invocationId : String) : String :=
  base ++ "|" ++ nodeName ++ ":" ++ invocationId

/-- `compute_child_namespace`. -/
def computeChildNamespace (persistence : SubgraphPersistence) (name : String)
    (parentNs threadId : Option String) (invocationId : String) : Option String :=
  match persistence with
  | .stateless => none
  | .perThread => some (childNamespace (parentNs.getD "") name (threadId.getD "default"))
  | .inherit => some (childNamespace (parentNs.getD "") name invocationId)

section Node

variable {S Sub σ : Type} [State S] [State Sub]

/-- `SubgraphNode<S, Sub>`. -/
structure SubgraphNode (S Sub σ : Type) [State S] [State Sub] where
  /-- The subgraph. -/
  subgraph : CompiledGraph Sub σ
  /-- Its name. -/
  name : String
  /-- Makes the input of the subgraph. -/
  inputMap : S → Sub
  /-- Makes an update of the parent of what the subgraph returns. -/
  outputMap : Sub → Update S
  /-- Where the subgraph keeps its checkpoints. -/
  persistence : SubgraphPersistence := .inherit

/-- The arguments of a call of a subgraph node, with what it reaches outside the node. -/
structure SubgraphCall (S σ : Type) where
  /-- State of the parent. -/
  state : S
  /-- Configuration of the parent's run. -/
  config : RunnableConfig
  /-- A fresh `Uuid::new_v4`, as text. -/
  invocationId : String
  /-- The store behind the checkpointer. -/
  store : σ
  /-- The cached results of the subgraph. -/
  results : ResultStore := ∅
  /-- Next fresh identifier of the model. -/
  nextUuid : Uuid
  /-- Time of the call. -/
  now : ℕ := 0

/-- The run of the subgraph that a call leads to. -/
inductive SubgraphRun (Sub σ : Type) where
  /-- `resume`. -/
  | resumed (call : CompiledGraph.ResumeCall σ)
  /-- `invoke_async`. -/
  | invoked (call : InvokeCall Sub σ)

namespace SubgraphNode

variable (node : SubgraphNode S Sub σ) (call : SubgraphCall S σ)

/-- The namespace of the call. -/
def namespace_ : Option String :=
  computeChildNamespace node.persistence node.name call.config.checkpointNs call.config.threadId
    call.invocationId

/-- The configuration of the run. -/
def childConfig : RunnableConfig :=
  { call.config with
    checkpointNs := node.namespace_ call
    resumeValue := if node.persistence = .stateless then none else call.config.resumeValue }

/-- Is there a checkpoint of an interrupt under this configuration? -/
def shouldResume : σ × Except JunctureError Bool :=
  match node.subgraph.checkpointer with
  | none => (call.store, .ok false)
  | some cp =>
    match cp.getTuple call.store (node.childConfig call) with
    | (store, .error e) => (store, .error (.ofCheckpointError e))
    | (store, .ok none) => (store, .ok false)
    | (store, .ok (some tuple)) => (store, .ok (match tuple.metadata.source with
      | .interrupt _ => true
      | _ => false))

/-- `call`, up to the run of the subgraph. -/
def start : σ × Except JunctureError (SubgraphRun Sub σ) :=
  match node.shouldResume call with
  | (store, .error e) => (store, .error e)
  | (store, .ok true) => (store, .ok (.resumed {
      config := node.childConfig call
      value := (node.childConfig call).resumeValue.getD (.single .null)
      store
      nextUuid := call.nextUuid }))
  | (store, .ok false) => (store, .ok (.invoked {
      input := node.inputMap call.state
      config := node.childConfig call
      store
      results := call.results
      nextUuid := call.nextUuid
      now := call.now }))

variable {node call}

/-- **The runs that a call leads to.** -/
theorem start_eq_ok {store : σ} {run : SubgraphRun Sub σ} (h : node.start call = (store, .ok run)) :
    (node.shouldResume call = (store, .ok true) ∧ run = .resumed {
      config := node.childConfig call
      value := (node.childConfig call).resumeValue.getD (.single .null)
      store
      nextUuid := call.nextUuid }) ∨
    node.shouldResume call = (store, .ok false) ∧ run = .invoked {
      input := node.inputMap call.state
      config := node.childConfig call
      store
      results := call.results
      nextUuid := call.nextUuid
      now := call.now } := by
  unfold start at h
  rcases hresume : node.shouldResume call with ⟨store', e | b⟩
  · simp only [hresume] at h
    cases h
  · cases b with
    | true =>
      simp only [hresume] at h
      cases h
      exact .inl ⟨rfl, rfl⟩
    | false =>
      simp only [hresume] at h
      cases h
      exact .inr ⟨rfl, rfl⟩

theorem start_fst (node : SubgraphNode S Sub σ) (call : SubgraphCall S σ) :
    (node.start call).1 = (node.shouldResume call).1 := by
  unfold start
  rcases node.shouldResume call with ⟨store, e | b⟩
  · rfl
  · cases b <;> rfl

variable (node)

/-- What `call` makes of what the run returns. -/
def finish : Except JunctureError (GraphOutput Sub) → Except JunctureError (Command S)
  | .ok output => .ok (.ofUpdate (node.outputMap output.value))
  | .error (.parentCommand target) => .ok { goto := .next target }
  | .error e =>
    if e.isInterrupt then .error e else .error (.subgraph s!"{node.name}: {e.display}")

end SubgraphNode

variable [InterruptHash]

/-- What a run of the subgraph returns when the outside world behaves as `rounds` says, and the store
it leaves behind. -/
inductive SubgraphRun.Returns (g : CompiledGraph Sub σ) (rounds : ℕ → Round Sub) :
    SubgraphRun Sub σ → Except JunctureError (GraphOutput Sub) → σ → Prop
  /-- The subgraph cannot be resumed. -/
  | refused {call : CompiledGraph.ResumeCall σ} {store : σ} {e : JunctureError}
    (h : g.resume call = (store, .error e)) : Returns g rounds (.resumed call) (.error e) store
  /-- The resumed run has ended. -/
  | resumed {call : CompiledGraph.ResumeCall σ} {store : σ} {l₀ l : PregelLoop Sub σ} {n : ℕ}
    {e : Ending} (h : g.resume call = (store, .ok l₀)) (hend : l₀.EndsAt rounds n l e) :
    Returns g rounds (.resumed call) (CompiledGraph.resumeEnd call l e).1
      (CompiledGraph.resumeEnd call l e).2
  /-- There is a cached result. -/
  | cached {call : InvokeCall Sub σ} {json : Json} (h : (g.cachedResult call).2 = some json) :
    Returns g rounds (.invoked call) (CompiledGraph.cachedOutput call json) call.store
  /-- The run has ended. -/
  | invoked {call : InvokeCall Sub σ} {l : PregelLoop Sub σ} {n : ℕ} {e : Ending}
    (h : (g.cachedResult call).2 = none) (hend : (g.invokeLoop call).EndsAt rounds n l e) :
    Returns g rounds (.invoked call) (g.invokeEnd call l e).1 (g.invokeEnd call l e).2.1

/-- A call of the node leads to a run of the subgraph that returns `r`. -/
def SubgraphNode.Runs (node : SubgraphNode S Sub σ) (call : SubgraphCall S σ) (rounds : ℕ → Round Sub)
    (run : SubgraphRun Sub σ) (r : Except JunctureError (GraphOutput Sub)) : Prop :=
  ∃ store store', node.start call = (store, .ok run) ∧ run.Returns node.subgraph rounds r store'

/-- The node of `add_subgraph_node`. -/
def sharedSubgraphNode [StateSubset Sub S] [Inhabited (Update Sub)] (name : String)
    (subgraph : CompiledGraph Sub σ) : SubgraphNode S Sub σ where
  subgraph
  name
  inputMap parent := StateSubset.extract parent
  outputMap _ := StateSubset.mapUpdate (default : Update Sub)

end Node

end Juncture
