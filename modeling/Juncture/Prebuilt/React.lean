import Juncture.Graph.EntryPoints
import Juncture.Llm.AgentUsage
import Juncture.Llm.MessagesReducer
import Juncture.Tools.Node

/-!
# The prebuilt agent

`create_agent_with_config` builds a graph of two nodes: `agent` asks the model, and `tools` runs the
tools that the last message requests, as long as there is such a request.

* `MessagesState` : its state, with `messages_reducer`.
* `createAgentWithConfig` : the graph.

What the model and the tools do depends on the outside world.  A run meets it anew in every
superstep, so the nodes are given for one superstep (`AgentRound`).
-/

namespace Juncture

/-! ### The state -/

/-- The serde instances of the state and its update. -/
class MessagesSerde where
  /-- `to_value` of a state. -/
  toValue : MessagesState → Except String Json
  /-- `from_value`. -/
  fromValue : Json → Except String MessagesState
  /-- `to_value` of an update. -/
  updateToValue : MessagesStateUpdate → Except String Json

/-- `apply`. -/
def MessagesState.apply (s : MessagesState) (u : MessagesStateUpdate) :
    MessagesState × FieldsChanged :=
  match u.messages with
  | some messages => ({ messages := messagesReducer s.messages messages }, FieldsChanged.none.setField 0)
  | none => (s, .none)

instance [MessagesSerde] : State MessagesState where
  Update := MessagesStateUpdate
  default := {}
  apply := MessagesState.apply
  resetEphemeral s := s
  fieldIsSet u i := i == 0 && u.messages.isSome
  fieldCount := 1
  fieldNames := ["messages"]
  toValue := MessagesSerde.toValue
  fromValue := MessagesSerde.fromValue
  updateToValue := MessagesSerde.updateToValue

/-! ### The nodes -/

/-- A `ChatModel` with `bind_tools`. -/
class ToolModel (M : Type) extends ChatModel M where
  /-- `bind_tools`. -/
  bindTools : M → List ToolDefinition → M

/-- A `Tool` with its description. -/
structure DescribedTool (W : Type) extends Tool W where
  /-- `description`. -/
  description : String

/-- `definition`. -/
def DescribedTool.definition {W : Type} (tool : DescribedTool W) : ToolDefinition where
  name := tool.name
  description := tool.description
  parameters := tool.schema

/-- `ToolNode::new`. -/
def ToolNode.new {S W : Type} (tools : List (DescribedTool W)) : ToolNode S W where
  tools := Dict.ofList (tools.map fun tool => (tool.name, .stateless tool.toTool))

/-- `ReactAgentConfig`. -/
structure ReactAgentConfig where
  /-- System message. -/
  systemMessage : Option String := none
  /-- How often the model may be called. -/
  maxIterations : Option ℕ := none
  /-- Stop before the tools are run. -/
  interruptBeforeTools : Bool := false
  /-- Called before the model. -/
  preModelHook : Option (MessagesState → MessagesState) := none
  /-- Called after the model. -/
  postModelHook : Option (MessagesState → Message → Message) := none
  /-- Chooses the options of a call. -/
  modelSelector : Option (MessagesState → CallOptions) := none

/-- What the nodes of the agent meet in one superstep. -/
structure AgentRound (M W : Type) [ChatModel M] where
  /-- What the runner has in scope. -/
  scope : Scope
  /-- Identifier of the system message. -/
  promptId : String
  /-- What comes from outside during the call of the model. -/
  outside : ChatModel.Outside M
  /-- Identifiers of the tool messages. -/
  newId : ℕ → String
  /-- The world that each tool call meets. -/
  world : ℕ → W
  /-- The order in which the tool calls complete. -/
  joined : List (ℕ × SpawnedCall MessagesState W)

/-- `AgentRouter`. -/
def agentRouter : Router MessagesState := fun state =>
  .ok (.one (match state.messages.getLast? with
    | some m => if m.hasToolCalls then "tools" else END
    | none => END))

/-- The path map after `agent`. -/
def agentPathMap : PathMap := Dict.ofList [("tools", "tools"), (END, END)]

/-! ### The graph -/

section Graph

/-- `add_node_simple`. -/
def StateGraph.addNodeSimple {S : Type} [State S] (g : StateGraph S) (name : String)
    (node : Node S) : Except TopologyError (StateGraph S) :=
  if g.nodes.containsKey name then .error (.duplicateNode name)
  else .ok { g with
    nodes := g.nodes ∪ AList.singleton name node
    builderMetadata := g.builderMetadata ∪ AList.singleton name {} }

/-- The edges of the agent. -/
def agentEdges : List (Edge MessagesState) :=
  [.fixed START "agent", .conditional "agent" agentRouter agentPathMap, .fixed "tools" "agent"]

/-- The trigger table of the agent. -/
def agentTable : TriggerTable MessagesState := buildTriggerTable agentEdges

theorem edgesOf_agent :
    agentTable.edgesOf "agent" = [.conditional agentRouter agentPathMap] := rfl

theorem edgesOf_tools : agentTable.edgesOf "tools" = [.fixed "agent"] := rfl

variable {M W σ : Type} [ToolModel M] [MessagesSerde]

/-- The `AgentNode` of `create_agent_with_config`. -/
def agentNode (model : M) (tools : List (DescribedTool W)) (config : ReactAgentConfig) :
    AgentNode M where
  model := ToolModel.bindTools model (tools.map DescribedTool.definition)
  prompt := config.systemMessage.map PromptSource.static
  preModelHook := config.preModelHook
  postModelHook := config.postModelHook
  modelSelector := config.modelSelector

/-- `AgentNode` as a node. -/
def AgentNode.toNode (node : AgentNode M) (round : AgentRound M W) : Node MessagesState where
  call state _ := .done ((node.call round.scope state round.promptId round.outside).2.map
    Command.ofUpdate)

/-- `ToolNodeAdapter`. -/
def toolNodeAdapter (toolNode : ToolNode MessagesState W) (round : AgentRound M W) :
    Node MessagesState where
  call state _ := .done (match toolNode.executeWithState round.newId round.world round.joined
      state.messages (some state) with
    | .ok results => .ok (.ofUpdate ({ messages := some results } : MessagesStateUpdate))
    | .error e => .error (.execution e.display))

/-- `create_agent_with_config`.  `max_iterations` and `interrupt_before_tools` are not read. -/
def createAgentWithConfig (model : M) (tools : List (DescribedTool W)) (config : ReactAgentConfig)
    (round : AgentRound M W) : Except TopologyError (CompiledGraph MessagesState σ) := do
  let graph ← StateGraph.addNodeSimple {} "agent" ((agentNode model tools config).toNode round)
  let graph ← graph.addNodeSimple "tools" (toolNodeAdapter (.new tools) round)
  let graph := graph.setEntryPoint "agent"
  let graph := graph.addConditionalEdges "agent" agentRouter agentPathMap
  let graph := graph.addEdge "tools" "agent"
  graph.compileInner {} none

/-- The nodes of the agent. -/
def agentNodes (model : M) (tools : List (DescribedTool W)) (config : ReactAgentConfig)
    (round : AgentRound M W) : Dict (Node MessagesState) :=
  AList.singleton "agent" ((agentNode model tools config).toNode round) ∪
    AList.singleton "tools" (toolNodeAdapter (.new tools) round)

/-- Two nodes with these names and edges pass the checks of the topology. -/
theorem validate_agent (agent tools : Node MessagesState) (metadata : Dict NodeMetadata)
    (hmetadata : metadata = AList.singleton "agent" {} ∪ AList.singleton "tools" {}) :
    validate (AList.singleton "agent" agent ∪ AList.singleton "tools" tools) agentEdges
      (some "agent") metadata = .ok () := by
  have hkeys : (AList.singleton "agent" agent ∪ AList.singleton "tools" tools :
    Dict (Node MessagesState)).keys = ["agent", "tools"] := rfl
  have hreach : checkReachability
      (AList.singleton "agent" agent ∪ AList.singleton "tools" tools : Dict (Node MessagesState))
      agentEdges (some "agent") metadata = .ok () := by
    unfold checkReachability reachAdjacency
    rw [hkeys, hmetadata]
    exact StateGraph.reject_eq_ok_iff.2 (Option.map_eq_none_iff.2 (by decide +kernel))
  have hloops : checkInfiniteLoops
      (AList.singleton "agent" agent ∪ AList.singleton "tools" tools : Dict (Node MessagesState))
      agentEdges = .ok () := by
    unfold checkInfiniteLoops TarjanSCC.findSccs
    rw [hkeys]
    exact StateGraph.reject_eq_ok_iff.2 (Option.map_eq_none_iff.2 (by decide +kernel))
  unfold validate
  simp only [StateGraph.seq_eq_ok_iff]
  exact ⟨rfl, rfl, hreach, rfl, hloops⟩

/-- **The agent compiles**, to the two nodes and the three edges. -/
theorem createAgentWithConfig_eq (model : M) (tools : List (DescribedTool W))
    (config : ReactAgentConfig) (round : AgentRound M W) :
    createAgentWithConfig (σ := σ) model tools config round = .ok {
      nodes := agentNodes model tools config round
      triggerTable := agentTable
      builderMetadata := AList.singleton "agent" {} ∪ AList.singleton "tools" {} } := by
  have hagent : StateGraph.addNodeSimple ({} : StateGraph MessagesState) "agent"
      ((agentNode model tools config).toNode round) = .ok {
        nodes := AList.singleton "agent" ((agentNode model tools config).toNode round)
        builderMetadata := AList.singleton "agent" {} } := rfl
  have htools : StateGraph.addNodeSimple {
        nodes := AList.singleton "agent" ((agentNode model tools config).toNode round)
        builderMetadata := AList.singleton "agent" {} } "tools"
      (toolNodeAdapter (.new tools) round) = .ok {
        nodes := agentNodes model tools config round
        builderMetadata := AList.singleton "agent" {} ∪ AList.singleton "tools" {} } := rfl
  unfold createAgentWithConfig
  refine ExceptFold.bind_eq_ok_iff.2 ⟨_, hagent, ExceptFold.bind_eq_ok_iff.2 ⟨_, htools, ?_⟩⟩
  unfold StateGraph.compileInner
  refine StateGraph.seq_eq_ok_iff.2 ⟨validate_agent _ _ _ rfl, StateGraph.seq_eq_ok_iff.2 ⟨?_, rfl⟩⟩
  have hnames : ["agent", "tools"].findSome? StateGraph.nodeNameError = none := by rfl
  unfold StateGraph.validateKeys
  simp only [StateGraph.seq_eq_ok_iff]
  exact ⟨StateGraph.reject_eq_ok_iff.2 hnames, rfl, rfl, rfl, rfl⟩

end Graph

end Juncture
