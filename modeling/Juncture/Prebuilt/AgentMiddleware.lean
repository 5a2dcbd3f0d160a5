import Juncture.Prebuilt.Answered
import Juncture.Prebuilt.LoopDetection

/-!
# Agents with middleware

`create_agent_with_middleware` builds the graph of an agent whose nodes call the hooks of a chain.  A hook
before a step can skip it, and then the hooks after that step are not called either.

* `AgentMiddlewareChain` : the hooks of a chain, one after another.
* `createAgentWithMiddleware` : the graph.
* `createAgentWithMiddleware_eq` : it compiles to the nodes and edges of an agent.
* `MiddlewareRun.agrees_of_neutral` : with hooks that do nothing the same is said as without them, but the
  usage of the model is not reported.
-/

namespace Juncture

/-! ### Hooks -/

/-- What a hook meets when it is called. -/
structure HookCall (X : Type) where
  /-- The identifier of the message that it makes, if it makes one. -/
  newId : String
  /-- What it gets from outside. -/
  outside : X

variable {X : Type}

/-- `AgentMiddleware`. -/
structure AgentMiddleware (X : Type) where
  /-- `before_model`. -/
  beforeModel : HookCall X → MessagesState → MiddlewareAction := fun _ _ => .proceed
  /-- `after_model`. -/
  afterModel : HookCall X → MessagesState → Message → Message := fun _ _ response => response
  /-- `before_tool`. -/
  beforeTool : HookCall X → String → Json → MiddlewareAction := fun _ _ _ => .proceed
  /-- `after_tool`. -/
  afterTool : HookCall X → String → Message → Message := fun _ _ result => result
  /-- `on_error`. -/
  onError : HookCall X → String → Option Message := fun _ _ => none

/-- `NopMiddleware`. -/
def NopMiddleware : AgentMiddleware X := {}

/-- What `after_tool` makes of the text of a result. -/
def failureText (toolName text : String) : Option String :=
  if "Error:".toList.isPrefixOf text.toList || "error:".toList.isPrefixOf text.toList then
    some s!"Tool '{toolName}' failed: {text}\nPlease try a different approach or tool."
  else none

/-- `ToolErrorHandlingMiddleware`. -/
def ToolErrorHandlingMiddleware : AgentMiddleware X where
  afterTool call toolName result :=
    match result.content with
    | .text text =>
      match failureText toolName text with
      | some failed => .toolResult call.newId (result.toolCallId.getD "") failed
      | none => result
    | .multiPart _ => result
  onError call error :=
    some (.ai call.newId s!"An error occurred: {error}\nLet me try a different approach.")

/-- A `LoopDetectionMiddleware` whose hook does not panic. -/
structure SafeLoopDetection extends LoopDetectionMiddleware where
  /-- A call may be made once. -/
  pos : 1 ≤ maxRepetitions
  /-- The size of the window does not overflow. -/
  small : maxRepetitions * 2 < 2 ^ 64

namespace SafeLoopDetection

variable (mw : SafeLoopDetection)

theorem mulUsize_eq : mulUsize true mw.maxRepetitions 2 = some (mw.maxRepetitions * 2) := if_pos mw.small

theorem isSome_beforeModel (newId : String) (state : MessagesState) :
    (mw.beforeModel true newId state).isSome = true := by
  obtain ⟨action, h, -⟩ := LoopDetectionMiddleware.beforeModel_spec newId state mw.pos mw.mulUsize_eq
  rw [h]
  rfl

/-- The middleware. -/
def toMiddleware : AgentMiddleware X where
  beforeModel call state := (mw.beforeModel true call.newId state).get (mw.isSome_beforeModel _ _)

end SafeLoopDetection

/-! ### Chains -/

/-- `AgentMiddlewareChain`. -/
structure AgentMiddlewareChain (X : Type) where
  /-- The middlewares, in the order in which they were added. -/
  middlewares : List (AgentMiddleware X) := []

namespace AgentMiddlewareChain

variable (chain : AgentMiddlewareChain X)

/-- `with`. -/
def withMiddleware (middleware : AgentMiddleware X) : AgentMiddlewareChain X where
  middlewares := chain.middlewares ++ [middleware]

/-- The first action that skips a step, with hook `i` of the chain called in `call i`. -/
def firstAction (hook : HookCall X → AgentMiddleware X → MiddlewareAction) (call : ℕ → HookCall X) :
    List (AgentMiddleware X) → MiddlewareAction
  | [] => .proceed
  | mw :: middlewares =>
    match hook (call 0) mw with
    | .proceed => firstAction hook (fun i => call (i + 1)) middlewares
    | .shortCircuit message => .shortCircuit message

/-- What the hooks make of a message, the last one first. -/
def passBack (hook : HookCall X → AgentMiddleware X → Message → Message) (call : ℕ → HookCall X)
    (message : Message) : Message :=
  chain.middlewares.zipIdx.foldr (fun (mw, i) message => hook (call i) mw message) message

/-- `run_before_model`. -/
def runBeforeModel (call : ℕ → HookCall X) (state : MessagesState) : MiddlewareAction :=
  firstAction (fun call mw => mw.beforeModel call state) call chain.middlewares

/-- `run_after_model`. -/
def runAfterModel (call : ℕ → HookCall X) (state : MessagesState) (response : Message) : Message :=
  chain.passBack (fun call mw => mw.afterModel call state) call response

/-- `run_before_tool`. -/
def runBeforeTool (call : ℕ → HookCall X) (toolName : String) (arguments : Json) : MiddlewareAction :=
  firstAction (fun call mw => mw.beforeTool call toolName arguments) call chain.middlewares

/-- `run_after_tool`. -/
def runAfterTool (call : ℕ → HookCall X) (toolName : String) (result : Message) : Message :=
  chain.passBack (fun call mw => mw.afterTool call toolName) call result

/-- `run_on_error`. -/
def runOnError (call : ℕ → HookCall X) (error : String) : Option Message :=
  chain.middlewares.zipIdx.findSome? fun (mw, i) => mw.onError (call i) error

end AgentMiddlewareChain

/-! ### The nodes -/

/-- `AgentConfig`. -/
structure AgentConfig (X : Type) where
  /-- System message. -/
  systemMessage : Option String := none
  /-- The chain. -/
  middleware : AgentMiddlewareChain X := {}
  /-- How often the model may be called. -/
  maxIterations : Option ℕ := none
  /-- Stop before the tools are run. -/
  interruptBeforeTools : Bool := false
  /-- Called before the model. -/
  preModelHook : Option (MessagesState → MessagesState) := none
  /-- Called after the model. -/
  postModelHook : Option (MessagesState → Message → Message) := none
  /-- Chooses the options of a call. -/
  modelSelector : Option (MessagesState → CallOptions) := none

/-- The configuration without the chain. -/
def AgentConfig.toReact (config : AgentConfig X) : ReactAgentConfig where
  systemMessage := config.systemMessage
  maxIterations := config.maxIterations
  interruptBeforeTools := config.interruptBeforeTools
  preModelHook := config.preModelHook
  postModelHook := config.postModelHook
  modelSelector := config.modelSelector

section Nodes

variable {M W σ : Type} [ToolModel M]

/-- What the nodes meet in one superstep. -/
structure MiddlewareRound (X M W : Type) [ChatModel M] extends AgentRound M W where
  /-- Before the model. -/
  beforeModel : ℕ → HookCall X
  /-- After it. -/
  afterModel : ℕ → HookCall X
  /-- Before the tool of each call. -/
  beforeTool : ℕ → ℕ → HookCall X
  /-- After each result. -/
  afterTool : ℕ → ℕ → HookCall X

/-- The closure `agent_node`.  In contrast to an `AgentNode` it does not report the usage of its model. -/
def middlewareAgent (node : AgentNode M) (chain : AgentMiddlewareChain X) (round : MiddlewareRound X M W)
    (state : MessagesState) : Scope × Except JunctureError MessagesStateUpdate :=
  match chain.runBeforeModel round.beforeModel (node.hooked state) with
  | .shortCircuit message => (round.scope, .ok { messages := some [message] })
  | .proceed =>
    let (scope, result) := node.ask round.scope state round.promptId round.outside
    match result with
    | .error e => (scope, .error (.execution e.display))
    | .ok message =>
      let response := chain.runAfterModel round.afterModel (node.hooked state)
        (node.response state message)
      (scope, .ok { messages := some [response] })

/-- The first action that skips the calls of the last message. -/
def firstVeto (chain : AgentMiddlewareChain X) (beforeTool : ℕ → ℕ → HookCall X) :
    List ToolCall → MiddlewareAction
  | [] => .proceed
  | call :: calls =>
    match chain.runBeforeTool (beforeTool 0) call.name call.arguments with
    | .proceed => firstVeto chain (fun i => beforeTool (i + 1)) calls
    | .shortCircuit message => .shortCircuit message

/-- The calls of the last message. -/
def lastCalls (state : MessagesState) : List ToolCall :=
  (state.messages.getLast?.map Message.toolCalls).getD []

/-- The closure `tool_node_fn`. -/
def middlewareTools (toolNode : ToolNode MessagesState W) (chain : AgentMiddlewareChain X)
    (round : MiddlewareRound X M W) (state : MessagesState) : Except JunctureError MessagesStateUpdate :=
  match firstVeto chain round.beforeTool (lastCalls state) with
  | .shortCircuit message => .ok { messages := some [message] }
  | .proceed =>
    match toolNode.executeWithState round.newId round.world round.joined state.messages (some state) with
    | .error e => .error (.execution e.display)
    | .ok results => .ok { messages := some (results.zipIdx.map fun (message, i) =>
        chain.runAfterTool (round.afterTool i) (message.toolCallId.getD "unknown") message) }

/-- `MiddlewareAgentRouter`, which routes as `AgentRouter` does. -/
def middlewareAgentRouter : Router MessagesState := agentRouter

/-- The two nodes of the agent. -/
def middlewareSpeakers (model : M) (tools : List (DescribedTool W)) (config : AgentConfig X)
    (round : MiddlewareRound X M W) : Speakers where
  agent state := (middlewareAgent (agentNode model tools config.toReact) config.middleware round state).2
  tools := middlewareTools (.new tools) config.middleware round

variable [MessagesSerde]

/-- `create_agent_with_middleware`.  `max_iterations` and `interrupt_before_tools` are not read. -/
def createAgentWithMiddleware (model : M) (tools : List (DescribedTool W)) (config : AgentConfig X)
    (round : MiddlewareRound X M W) : Except TopologyError (CompiledGraph MessagesState σ) := do
  let speakers := middlewareSpeakers model tools config round
  let graph ← StateGraph.addNodeSimple {} "agent" (nodeFnUpdate speakers.agent)
  let graph ← graph.addNodeSimple "tools" (nodeFnUpdate speakers.tools)
  let graph := graph.setEntryPoint "agent"
  let graph := graph.addConditionalEdges "agent" middlewareAgentRouter agentPathMap
  let graph := graph.addEdge "tools" "agent"
  graph.compileInner {} none

/-- **The agent compiles**, to the two nodes and the edges of an agent. -/
theorem createAgentWithMiddleware_eq (model : M) (tools : List (DescribedTool W)) (config : AgentConfig X)
    (round : MiddlewareRound X M W) :
    createAgentWithMiddleware (σ := σ) model tools config round = .ok {
      nodes := (middlewareSpeakers model tools config round).nodes
      triggerTable := agentTable
      builderMetadata := AList.singleton "agent" {} ∪ AList.singleton "tools" {} } := by
  generalize hspeakers : middlewareSpeakers model tools config round = speakers
  have hagent : StateGraph.addNodeSimple ({} : StateGraph MessagesState) "agent"
      (nodeFnUpdate speakers.agent) = .ok {
        nodes := AList.singleton "agent" (nodeFnUpdate speakers.agent)
        builderMetadata := AList.singleton "agent" {} } := rfl
  have htools : StateGraph.addNodeSimple {
        nodes := AList.singleton "agent" (nodeFnUpdate speakers.agent)
        builderMetadata := AList.singleton "agent" {} } "tools" (nodeFnUpdate speakers.tools) = .ok {
        nodes := speakers.nodes
        builderMetadata := AList.singleton "agent" {} ∪ AList.singleton "tools" {} } := rfl
  unfold createAgentWithMiddleware
  rw [hspeakers]
  refine ExceptFold.bind_eq_ok_iff.2 ⟨_, hagent, ExceptFold.bind_eq_ok_iff.2 ⟨_, htools, ?_⟩⟩
  unfold StateGraph.compileInner
  refine StateGraph.seq_eq_ok_iff.2 ⟨validate_agent _ _ _ rfl, StateGraph.seq_eq_ok_iff.2 ⟨?_, rfl⟩⟩
  have hnames : ["agent", "tools"].findSome? StateGraph.nodeNameError = none := by rfl
  unfold StateGraph.validateKeys
  simp only [StateGraph.seq_eq_ok_iff]
  exact ⟨StateGraph.reject_eq_ok_iff.2 hnames, rfl, rfl, rfl, rfl⟩

end Nodes

/-! ### Hooks that do nothing -/

/-- None of the hooks around the model and the tools does anything. -/
structure AgentMiddleware.Neutral (mw : AgentMiddleware X) : Prop where
  beforeModel : ∀ call state, mw.beforeModel call state = .proceed
  afterModel : ∀ call state response, mw.afterModel call state response = response
  beforeTool : ∀ call toolName arguments, mw.beforeTool call toolName arguments = .proceed
  afterTool : ∀ call toolName result, mw.afterTool call toolName result = result

theorem neutral_nop : (NopMiddleware : AgentMiddleware X).Neutral :=
  ⟨fun _ _ => rfl, fun _ _ _ => rfl, fun _ _ _ => rfl, fun _ _ _ => rfl⟩

namespace AgentMiddlewareChain

variable {chain : AgentMiddlewareChain X}

/-- A chain of such middlewares. -/
def Neutral (chain : AgentMiddlewareChain X) : Prop := ∀ mw ∈ chain.middlewares, mw.Neutral

theorem firstAction_eq_proceed {hook : HookCall X → AgentMiddleware X → MiddlewareAction}
    {middlewares : List (AgentMiddleware X)} (h : ∀ mw ∈ middlewares, ∀ call, hook call mw = .proceed)
    (call : ℕ → HookCall X) : firstAction hook call middlewares = .proceed := by
  induction middlewares generalizing call with
  | nil => rfl
  | cons mw middlewares ih =>
    rw [firstAction, h mw List.mem_cons_self]
    exact ih (fun mw hmw => h mw (List.mem_cons_of_mem _ hmw)) _

/-- What each hook of the chain keeps, the chain keeps. -/
theorem passBack_induction {hook : HookCall X → AgentMiddleware X → Message → Message} {P : Message → Prop}
    (h : ∀ mw ∈ chain.middlewares, ∀ call message, P message → P (hook call mw message))
    (call : ℕ → HookCall X) {message : Message} (hmessage : P message) :
    P (chain.passBack hook call message) := by
  have hmem : ∀ p ∈ chain.middlewares.zipIdx, p.1 ∈ chain.middlewares := fun p hp =>
    List.fst_mem_of_mem_zipIdx hp
  unfold passBack
  generalize chain.middlewares.zipIdx = ps at hmem ⊢
  induction ps with
  | nil => exact hmessage
  | cons p ps ih =>
    rw [List.foldr_cons]
    exact h p.1 (hmem p List.mem_cons_self) _ _
      (ih fun q hq => hmem q (List.mem_cons_of_mem _ hq))

theorem passBack_eq {hook : HookCall X → AgentMiddleware X → Message → Message}
    (h : ∀ mw ∈ chain.middlewares, ∀ call message, hook call mw message = message)
    (call : ℕ → HookCall X) (message : Message) : chain.passBack hook call message = message :=
  chain.passBack_induction (P := (· = message)) (fun mw hmw call m hm => (h mw hmw call m).trans hm) call rfl

end AgentMiddlewareChain

/-! ### Runs -/

section Runs

variable {M W σ : Type} [ToolModel M] {chain : AgentMiddlewareChain X}

theorem middlewareAgent_of_neutral (node : AgentNode M) (hchain : chain.Neutral)
    (round : MiddlewareRound X M W) (state : MessagesState) :
    (middlewareAgent node chain round state).2 =
        (node.call round.scope state round.promptId round.outside).2 ∧
      ∀ message, (node.ask round.scope state round.promptId round.outside).2 = .ok message →
        (node.call round.scope state round.promptId round.outside).1 =
          (middlewareAgent node chain round state).1.reportUsage (node.response state message).usage := by
  have hbefore : chain.runBeforeModel round.beforeModel (node.hooked state) = .proceed :=
    AgentMiddlewareChain.firstAction_eq_proceed (fun mw hmw call => (hchain mw hmw).beforeModel call _) _
  have hafter : ∀ response,
      chain.runAfterModel round.afterModel (node.hooked state) response = response :=
    AgentMiddlewareChain.passBack_eq (fun mw hmw call => (hchain mw hmw).afterModel call _) _
  unfold middlewareAgent AgentNode.call
  simp only [hbefore, hafter]
  obtain ⟨scope, e | message⟩ := node.ask round.scope state round.promptId round.outside
  · refine ⟨rfl, fun message h => ?_⟩
    cases h
  · refine ⟨rfl, fun message' h => ?_⟩
    cases h
    rfl

theorem firstVeto_of_neutral (hchain : chain.Neutral) (beforeTool : ℕ → ℕ → HookCall X)
    (calls : List ToolCall) : firstVeto chain beforeTool calls = .proceed := by
  induction calls generalizing beforeTool with
  | nil => rfl
  | cons call calls ih =>
    have hbefore : chain.runBeforeTool (beforeTool 0) call.name call.arguments = .proceed :=
      AgentMiddlewareChain.firstAction_eq_proceed (fun mw hmw c => (hchain mw hmw).beforeTool c _ _) _
    rw [firstVeto, hbefore]
    exact ih _

theorem middlewareTools_of_neutral (toolNode : ToolNode MessagesState W) (hchain : chain.Neutral)
    (round : MiddlewareRound X M W) (state : MessagesState) :
    middlewareTools toolNode chain round state = toolsUpdate toolNode round.toAgentRound state := by
  have hafter : ∀ call toolName result, chain.runAfterTool call toolName result = result :=
    fun call toolName =>
      AgentMiddlewareChain.passBack_eq (fun mw hmw c => (hchain mw hmw).afterTool c _) call
  unfold middlewareTools toolsUpdate
  simp only [firstVeto_of_neutral hchain, hafter]
  cases toolNode.executeWithState round.newId round.world round.joined state.messages (some state) with
  | error e => rfl
  | ok results =>
    exact congrArg (fun results => Except.ok ({ messages := some results } : MessagesStateUpdate))
      (List.zipIdx_map_fst 0 results)

/-- What one superstep of an agent with middleware meets. -/
structure MiddlewareTurn (X M W : Type) [ToolModel M] [MessagesSerde] where
  /-- Around and during the calls of the nodes. -/
  agent : MiddlewareRound X M W
  /-- Around and during the superstep. -/
  round : Round MessagesState

/-- A run of an agent with middleware. -/
structure MiddlewareRun (X M W σ : Type) [ToolModel M] [MessagesSerde] where
  /-- The model. -/
  model : M
  /-- The tools. -/
  tools : List (DescribedTool W)
  /-- The configuration. -/
  config : AgentConfig X
  /-- The loop at the beginning. -/
  start : PregelLoop MessagesState σ
  /-- What each superstep meets. -/
  turns : ℕ → MiddlewareTurn X M W
  /-- No subgraph is mounted, so none reports. -/
  quiet : ∀ n, (turns n).round.bubbleUps = []

namespace MiddlewareRun

variable [MessagesSerde] (run : MiddlewareRun X M W σ)

/-- What the nodes of the agent do in superstep `n`. -/
def speakers (n : ℕ) : Speakers := middlewareSpeakers run.model run.tools run.config (run.turns n).agent

/-- What is said in the run. -/
def talk : Talk σ where
  start := run.start
  turns n := (run.speakers n, (run.turns n).round)
  quiet := run.quiet

/-- The same agent without the chain. -/
def plain : AgentRun M W σ where
  model := run.model
  tools := run.tools
  config := run.config.toReact
  start := run.start
  turns n := ⟨(run.turns n).agent.toAgentRound, (run.turns n).round⟩

/-- **A chain that does nothing** changes nothing of what is said.  But the usage of the model is not
reported. -/
theorem agrees_of_neutral (hchain : run.config.middleware.Neutral) :
    run.talk = run.plain.talk run.quiet ∧
      ∀ n state message, let node := agentNode run.model run.tools run.config.toReact
        let round := (run.turns n).agent
        (node.ask round.scope state round.promptId round.outside).2 = .ok message →
          (node.call round.scope state round.promptId round.outside).1 =
            (middlewareAgent node run.config.middleware round state).1.reportUsage
              (node.response state message).usage := by
  have hspeakers : ∀ n, run.speakers n = run.plain.speakers (run.plain.turns n).agent := by
    intro n
    unfold speakers middlewareSpeakers AgentRun.speakers
    congr 1
    · funext state
      exact (middlewareAgent_of_neutral _ hchain _ _).1
    · funext state
      exact middlewareTools_of_neutral _ hchain _ _
  refine ⟨?_, fun n state => (middlewareAgent_of_neutral _ hchain _ _).2⟩
  unfold talk AgentRun.talk
  congr 1
  funext n
  exact congrArg (·, (run.turns n).round) (hspeakers n)

end MiddlewareRun

end Runs

/-! ### A chain that does nothing -/

/-- A superstep in which the model says `m`. -/
def guardedRound (n : ℕ) (m : Message) : MiddlewareRound Unit ScriptedModel Unit where
  scope := {}
  promptId := "prompt"
  outside := m
  newId _ := String.ofList (List.replicate n 'a')
  world _ := ()
  joined := (ToolNode.new [echoTool]).spawned m
  beforeModel _ := ⟨"loop", ()⟩
  afterModel _ := ⟨"response", ()⟩
  beforeTool _ _ := ⟨"veto", ()⟩
  afterTool _ _ := ⟨"result", ()⟩

/-- An agent with the tool `echo` and a chain. -/
def guardedConfig (middleware : AgentMiddlewareChain Unit) : AgentConfig Unit := { middleware }

/-- Its graph. -/
def guardedGraph (chain : AgentMiddlewareChain Unit) : CompiledGraph MessagesState Unit where
  nodes := (middlewareSpeakers (⟨⟩ : ScriptedModel) [echoTool] (guardedConfig chain)
    (guardedRound 0 (callMessage "echo"))).nodes
  triggerTable := agentTable
  builderMetadata := AList.singleton "agent" {} ∪ AList.singleton "tools" {}

/-- A run in which the model says what the script says. -/
def guardedRun (chain : AgentMiddlewareChain Unit) (script : ℕ → Message) :
    MiddlewareRun Unit ScriptedModel Unit Unit where
  model := ⟨⟩
  tools := [echoTool]
  config := guardedConfig chain
  start := (guardedGraph chain).invokeLoop emptyCall
  turns n := ⟨guardedRound n (script n), {}⟩
  quiet _ := rfl

/-- Two calls at once, and then the model gives up. -/
def twoCalls (n : ℕ) : Message :=
  if n = 0 then .aiWithToolCalls "m" "" [⟨"call_1", "echo", .obj []⟩, ⟨"call_2", "echo", .obj []⟩]
  else .aiWithToolCalls "sorry" "Sorry" []

/-- The same is said with it. -/
theorem agrees_of_neutral_nop :
    (guardedRun ⟨[NopMiddleware, NopMiddleware]⟩ twoCalls).talk =
      (guardedRun ⟨[NopMiddleware, NopMiddleware]⟩ twoCalls).plain.talk fun _ => rfl := by
  refine (MiddlewareRun.agrees_of_neutral (guardedRun ⟨[NopMiddleware, NopMiddleware]⟩ twoCalls)
    fun mw hmw => ?_).1
  obtain rfl : mw = NopMiddleware := by
    obtain rfl | hmw := List.mem_cons.1 hmw
    · rfl
    · exact List.mem_singleton.1 hmw
  exact neutral_nop

end Juncture
