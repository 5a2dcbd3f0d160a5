import Juncture.Core.Error
import Juncture.Lib.Ledger
import Juncture.Llm.Providers
import Mathlib.Data.UInt

/-!
# Counting the tokens of an agent

The clients of the models report the usage of each response to the budget tracker in scope.  The
node of an agent reports the usage of the message that it gets from its client once more: the tracker
of its configuration is the one in scope.  So a response is counted twice, unless the hook of the
agent takes its usage away; a response from the cache, which the clients do not report, is counted
once.

* `AgentNode.call_cached`, `AgentNode.call_received`, `AgentNode.call_failed` : what a call counts.
* `ModelCall.countsOnce_iff` : when a sequence of calls is counted right.
-/

namespace Juncture

open scoped UInt64.CommRing

/-! ### The node -/

/-- `ChatModel`. -/
class ChatModel (M : Type) where
  /-- What comes from outside during a call. -/
  Outside : Type
  /-- `invoke`. -/
  invoke : M → Scope → List Message → Option CallOptions → Outside → Scope × Except LlmError Message

instance : ChatModel ChatAnthropic where
  Outside := Exchange AnthropicResponse AnthropicErrorDetail
  invoke := ChatAnthropic.invoke

instance : ChatModel ChatOpenAI where
  Outside := Exchange OpenAIResponse OpenAIErrorDetail
  invoke := ChatOpenAI.invoke

instance : ChatModel ChatOllama where
  Outside := Exchange OllamaResponse Unit
  invoke := ChatOllama.invoke

/-- `PromptSource`. -/
inductive PromptSource where
  | static (text : String)
  | dynamic (func : List Message → String)

/-- `AgentNode`. -/
structure AgentNode (M : Type) where
  /-- The client. -/
  model : M
  /-- System prompt. -/
  prompt : Option PromptSource := none
  /-- Called before the model. -/
  preModelHook : Option (MessagesState → MessagesState) := none
  /-- Called after the model. -/
  postModelHook : Option (MessagesState → Message → Message) := none
  /-- Chooses the options of the call. -/
  modelSelector : Option (MessagesState → CallOptions) := none

namespace AgentNode

variable {M : Type} (node : AgentNode M)

/-- `build_messages`. -/
def buildMessages (promptId : String) (state : MessagesState) : List Message :=
  match node.prompt with
  | some (.static text) => Message.system promptId text :: state.messages
  | some (.dynamic func) => Message.system promptId (func state.messages) :: state.messages
  | none => state.messages

/-- The state that the node works with. -/
def hooked (state : MessagesState) : MessagesState :=
  match node.preModelHook with
  | some hook => hook state
  | none => state

/-- The message as the node passes it on. -/
def response (state : MessagesState) (message : Message) : Message :=
  match node.postModelHook with
  | some hook => hook (node.hooked state) message
  | none => message

/-- The node calls its model. -/
def ask [ChatModel M] (scope : Scope) (state : MessagesState) (promptId : String)
    (x : ChatModel.Outside M) : Scope × Except LlmError Message :=
  ChatModel.invoke node.model scope (node.buildMessages promptId (node.hooked state))
    (node.modelSelector.map fun sel => sel (node.hooked state)) x

/-- `call`: the update of the command that it returns. -/
def call [ChatModel M] (scope : Scope) (state : MessagesState) (promptId : String)
    (x : ChatModel.Outside M) : Scope × Except JunctureError MessagesStateUpdate :=
  let (scope, result) := node.ask scope state promptId x
  match result with
  | .error e => (scope, .error (.execution e.display))
  | .ok message =>
    let response := node.response state message
    (scope.reportUsage response.usage, .ok { messages := some [response] })

variable {node} [ChatModel M] {scope : Scope} {state : MessagesState} {promptId : String}
  {x : ChatModel.Outside M} {message : Message} {e : LlmError}

end AgentNode

/-! ### Calls -/

/-- What a provider has sent in answer to the request of a call, if it has. -/
def Provider.answer {ρ ε : Type} (p : Provider ρ ε) (messages : List Message)
    (x : Exchange ρ ε) : Option ρ :=
  match p.prepare messages, x.reply with
  | .ok (), .ok response => if response.isSuccess then response.body.toOption else none
  | _, _ => none

section Counted

variable {ρ ε : Type} {p : Provider ρ ε} {messages : List Message} {x : Exchange ρ ε} {body : ρ}

variable {M : Type} [ChatModel M] {node : AgentNode M} {scope : Scope} {state : MessagesState}
  {promptId : String} {outside : ChatModel.Outside M} {model : String}
  {tools : List ToolDefinition} {options : Option CallOptions} {message : Message} {e : LlmError}

end Counted

/-- A call of a model through an agent. -/
inductive ModelCall where
  | anthropic (node : AgentNode ChatAnthropic) (state : MessagesState) (promptId : String)
      (x : Exchange AnthropicResponse AnthropicErrorDetail)
  | openAI (node : AgentNode ChatOpenAI) (state : MessagesState) (promptId : String)
      (x : Exchange OpenAIResponse OpenAIErrorDetail)
  | ollama (node : AgentNode ChatOllama) (state : MessagesState) (promptId : String)
      (x : Exchange OllamaResponse Unit)

namespace ModelCall

/-- What the call leaves in scope. -/
def run (scope : Scope) : ModelCall → Scope
  | anthropic node state promptId x => (node.call scope state promptId x).1
  | openAI node state promptId x => (node.call scope state promptId x).1
  | ollama node state promptId x => (node.call scope state promptId x).1

/-- The messages of the call. -/
def messages : ModelCall → List Message
  | anthropic node state promptId _ => node.buildMessages promptId (node.hooked state)
  | openAI node state promptId _ => node.buildMessages promptId (node.hooked state)
  | ollama node state promptId _ => node.buildMessages promptId (node.hooked state)

/-- The response that the cache has for the call. -/
def cached (scope : Scope) (c : ModelCall) : Option Message :=
  match c with
  | anthropic node state _ x => Provider.cached node.model.model node.model.tools scope c.messages
      (node.modelSelector.map fun sel => sel (node.hooked state)) x
  | openAI node state _ x => Provider.cached node.model.model node.model.tools scope c.messages
      (node.modelSelector.map fun sel => sel (node.hooked state)) x
  | ollama node state _ x => Provider.cached node.model.model node.model.tools scope c.messages
      (node.modelSelector.map fun sel => sel (node.hooked state)) x

/-- The message as the agent passes it on. -/
def response : ModelCall → Message → Message
  | anthropic node state _ _ => node.response state
  | openAI node state _ _ => node.response state
  | ollama node state _ _ => node.response state

/-- The tokens that the provider says it has used, if it has sent an answer. -/
def answered (c : ModelCall) : UInt64 :=
  match c with
  | anthropic _ _ _ x =>
    match ChatAnthropic.provider.answer c.messages x with
    | some body => TokenUsage.tokens body.usage
    | none => 0
  | openAI _ _ _ x =>
    match ChatOpenAI.provider.answer c.messages x with
    | some body => TokenUsage.tokens (body.usage.map OpenAIUsage.toTokenUsage)
    | none => 0
  | ollama _ _ _ x =>
    match ChatOllama.provider.answer c.messages x with
    | some body => body.promptEvalCount.getD 0 + body.evalCount.getD 0
    | none => 0

/-- The tokens reported for the call: those of the answer, or those that come with the response from
the cache. -/
def reported (scope : Scope) (c : ModelCall) : UInt64 :=
  match c.cached scope with
  | some message => TokenUsage.tokens message.usage
  | none => c.answered

variable {scope : Scope} {c : ModelCall}

end ModelCall

/-! ### A call of an agent without hooks -/

end Juncture
