import Juncture.Core.Json

/-!
# Messages and calls to a language model

What agents and providers pass to each other, and what the runner puts in scope around a node: the
counter of tokens of the budget tracker, and the cache of responses.  Numbers of type `f32` are kept
as their bits; nothing computes with them.

* `Message`, `CallOptions` : what a call is made with, and what it returns.
* `LlmCachePolicy` : the cache of responses.
* `Scope` : the task locals of a node.
-/

namespace Juncture

/-! ### Messages -/

/-- `Role`. -/
inductive Role where
  | system | human | ai | tool
deriving DecidableEq

/-- `ImageSource`. -/
inductive ImageSource where
  | base64 (data : String)
  | url (url : String)

/-- `ImageData`. -/
structure ImageData where
  /-- Media type. -/
  mediaType : String
  /-- Source. -/
  source : ImageSource

/-- `ContentPart`. -/
inductive ContentPart where
  | text (text : String)
  | image (data : ImageData)
  | thinking (text : String) (signature : Option String)

/-- `Content`. -/
inductive Content where
  | text (text : String)
  | multiPart (parts : List ContentPart)

/-- `ToolCall`. -/
structure ToolCall where
  /-- Identifier of the call. -/
  id : String
  /-- Name of the tool. -/
  name : String
  /-- Arguments. -/
  arguments : Json

/-- `TokenUsage`. -/
structure TokenUsage where
  /-- Tokens of the request. -/
  inputTokens : UInt64
  /-- Tokens of the response. -/
  outputTokens : UInt64
  /-- All of them. -/
  totalTokens : UInt64

/-- The tokens that a usage counts: none, if there is none. -/
def TokenUsage.tokens : Option TokenUsage → UInt64
  | some usage => usage.inputTokens + usage.outputTokens
  | none => 0

/-- `Message`. -/
structure Message where
  /-- Identifier. -/
  id : String
  /-- Role of its sender. -/
  role : Role
  /-- Content. -/
  content : Content
  /-- Tool calls it asks for. -/
  toolCalls : List ToolCall := []
  /-- Tool call it answers. -/
  toolCallId : Option String := none
  /-- Name of its sender. -/
  name : Option String := none
  /-- Tokens used for it. -/
  usage : Option TokenUsage := none

/-- `Message::ai_with_tool_calls`. -/
def Message.aiWithToolCalls (id content : String) (toolCalls : List ToolCall) : Message :=
  { id, role := .ai, content := .text content, toolCalls }

/-- `Message::system`. -/
def Message.system (id content : String) : Message :=
  { id, role := .system, content := .text content }

/-- `MessagesState`. -/
structure MessagesState where
  /-- Messages so far. -/
  messages : List Message := []

/-- `MessagesStateUpdate`. -/
structure MessagesStateUpdate where
  /-- New messages. -/
  messages : Option (List Message) := none

/-! ### Calls -/

/-- `ToolChoice`. -/
inductive ToolChoice where
  | auto | none | required
  | specific (name : String)

/-- `ResponseFormat`. -/
inductive ResponseFormat where
  | jsonObject
  | jsonSchema (name : String) (schema : Json) (strict : Bool)

/-- `CallOptions`. -/
structure CallOptions where
  /-- Temperature. -/
  temperature : Option UInt32 := none
  /-- Bound on the tokens of the response. -/
  maxTokens : Option UInt32 := none
  /-- Where to stop. -/
  stopSequences : Option (List String) := none
  /-- Nucleus sampling. -/
  topP : Option UInt32 := none
  /-- Another model. -/
  modelOverride : Option String := none
  /-- Which tools may be called. -/
  toolChoice : Option ToolChoice := none
  /-- Format of the response. -/
  responseFormat : Option ResponseFormat := none
  /-- Tags. -/
  tags : List String := []

/-- `ToolDefinition`. -/
structure ToolDefinition where
  /-- Name. -/
  name : String
  /-- Description. -/
  description : String
  /-- Schema of its parameters. -/
  parameters : Json

/-- `LlmError`, as far as the providers build it. -/
inductive LlmError where
  | authError (msg : String)
  | rateLimited
  | contextLengthExceeded (used limit : ℕ)
  | networkError (reason : String)
  | invalidResponse (msg : String)

/-- The `Display` text of an `LlmError`. -/
def LlmError.display : LlmError → String
  | .authError m => s!"authentication failed: {m}"
  | .rateLimited => "rate limited, retry after None"
  | .contextLengthExceeded used limit =>
    s!"context length exceeded: {used} tokens used, {limit} limit"
  | .networkError r => s!"network error: {r}"
  | .invalidResponse m => s!"invalid response: {m}"

/-! ### The cache of responses -/

/-- `CacheKeyInput`. -/
structure CacheKeyInput where
  /-- Name of the model. -/
  model : String
  /-- Messages. -/
  messages : List Message
  /-- Tools. -/
  tools : List ToolDefinition
  /-- Options of the call. -/
  config : Option CallOptions

/-- The `CachePolicy` for responses of models. -/
structure LlmCachePolicy where
  /-- A key function of its own. -/
  keyFunc : Option (CacheKeyInput → String) := none
  /-- `hash`: the algorithm of the standard hasher is not specified. -/
  hash : CacheKeyInput → UInt64
  /-- Milliseconds until a response expires. -/
  ttl : Option ℕ := none

/-- Responses by key, each with the time it was stored. -/
abbrev ResponseStore := Dict (Message × ℕ)

namespace LlmCachePolicy

/-- `generate_key`. -/
def generateKey (policy : LlmCachePolicy) (input : CacheKeyInput) : String :=
  match policy.keyFunc with
  | none => s!"{input.model}:{policy.hash input}"
  | some func => func input

/-- `get`: an expired response is removed. -/
def get (policy : LlmCachePolicy) (responses : ResponseStore) (now : ℕ) (key : String) :
    ResponseStore × Option Message :=
  match responses.lookup key with
  | none => (responses, none)
  | some (message, inserted) =>
    if policy.ttl.any fun ttl => decide (ttl < now - inserted) then (responses.erase key, none)
    else (responses, some message)

/-- `put`. -/
def put (responses : ResponseStore) (now : ℕ) (key : String) (message : Message) :
    ResponseStore :=
  responses.insert key (message, now)

end LlmCachePolicy

/-! ### Task locals -/

/-- What is in scope around a node: `BUDGET_TRACKER`, which is the tracker of the configuration, and
`LLM_CACHE_POLICY`. -/
structure Scope where
  /-- `tokens_used` of the budget tracker. -/
  tokensUsed : UInt64 := 0
  /-- The cache policy, if there is one. -/
  llmCachePolicy : Option LlmCachePolicy := none
  /-- The responses it keeps. -/
  responses : ResponseStore := ∅

namespace Scope

/-- `report_model_call`. -/
def reportModelCall (scope : Scope) (inputTokens outputTokens : UInt64) : Scope :=
  { scope with tokensUsed := scope.tokensUsed + (inputTokens + outputTokens) }

/-- A layer reports the usage that comes with a message, if any does. -/
def reportUsage (scope : Scope) : Option TokenUsage → Scope
  | some usage => scope.reportModelCall usage.inputTokens usage.outputTokens
  | none => scope

/-- `try_llm_cache_lookup`. -/
def tryLlmCacheLookup (scope : Scope) (now : ℕ) (input : CacheKeyInput) : Scope × Option Message :=
  match scope.llmCachePolicy with
  | none => (scope, none)
  | some policy =>
    let (responses, found) := policy.get scope.responses now (policy.generateKey input)
    ({ scope with responses }, found)

/-- `try_llm_cache_store`. -/
def tryLlmCacheStore (scope : Scope) (now : ℕ) (input : CacheKeyInput) (message : Message) :
    Scope :=
  match scope.llmCachePolicy with
  | none => scope
  | some policy =>
    { scope with
      responses := LlmCachePolicy.put scope.responses now (policy.generateKey input) message }

variable {scope : Scope} {now : ℕ} {input : CacheKeyInput} {message : Message}

end Scope

end Juncture
