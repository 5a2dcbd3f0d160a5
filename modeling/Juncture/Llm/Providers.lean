import Juncture.Llm.Messages
import Mathlib.Data.List.Infix

/-!
# The providers

The three clients of language models.  Each looks for a response in the cache, sends a request
otherwise, turns what comes back into a message, puts it in the cache and reports its usage to the
budget tracker in scope.  What the request comes to is an input: the status and the text, and what
`serde_json` makes of the text.

* `ChatAnthropic.invoke`, `ChatOpenAI.invoke`, `ChatOllama.invoke` : the clients.
* `Provider.invoke_hit`, `Provider.invoke_fresh`, `Provider.invoke_failed` : what the three have in
  common.
-/

namespace Juncture

/-! ### Exchanges -/

/-- The response to an HTTP request, and what `serde_json` makes of its text. -/
structure HttpResponse (ρ ε : Type) where
  /-- Status code. -/
  status : ℕ
  /-- Text. -/
  text : String
  /-- The text as a response. -/
  body : Except String ρ
  /-- The text as a report of an error. -/
  error : Option ε

/-- `StatusCode::is_success`. -/
def HttpResponse.isSuccess {ρ ε : Type} (r : HttpResponse ρ ε) : Bool :=
  decide (200 ≤ r.status ∧ r.status < 300)

/-- What comes from outside during a call of a model. -/
structure Exchange (ρ ε : Type) where
  /-- What the request comes to: the text of a network error, or a response. -/
  reply : Except String (HttpResponse ρ ε)
  /-- Identifier of the message. -/
  id : String
  /-- Time of the lookup in the cache. -/
  asked : ℕ := 0
  /-- Time at which the response is stored. -/
  answered : ℕ := 0

/-- What the clients do each in their own way. -/
structure Provider (ρ ε : Type) where
  /-- The messages of the request. -/
  prepare : List Message → Except LlmError Unit
  /-- The error for a response that is not a success. -/
  parseError : HttpResponse ρ ε → LlmError
  /-- The message for a response. -/
  convert : String → ρ → Except LlmError Message

namespace Provider

variable {ρ ε : Type} (p : Provider ρ ε)

/-- The message that a request comes to. -/
def receive (messages : List Message) (x : Exchange ρ ε) : Except LlmError Message := do
  p.prepare messages
  let response ← x.reply.mapError .networkError
  if response.isSuccess then
    match response.body with
    | .error e => .error (.invalidResponse s!"Failed to parse response: {e}")
    | .ok body => p.convert x.id body
  else .error (p.parseError response)

/-- `cache_key_input` for a call of the model, which the options may override. -/
def cacheKeyInput (model : String) (tools : List ToolDefinition) (messages : List Message)
    (options : Option CallOptions) : CacheKeyInput where
  model := (options.bind CallOptions.modelOverride).getD model
  messages := messages
  tools := tools
  config := options

/-- `invoke`. -/
def invoke (model : String) (tools : List ToolDefinition) (scope : Scope)
    (messages : List Message) (options : Option CallOptions) (x : Exchange ρ ε) :
    Scope × Except LlmError Message :=
  let input := cacheKeyInput model tools messages options
  let (scope, found) := scope.tryLlmCacheLookup x.asked input
  match found with
  | some cached => (scope, .ok cached)
  | none =>
    match p.receive messages x with
    | .error e => (scope, .error e)
    | .ok message =>
      ((scope.tryLlmCacheStore x.answered input message).reportUsage message.usage, .ok message)

/-- The response that the cache has for a call. -/
def cached (model : String) (tools : List ToolDefinition) (scope : Scope)
    (messages : List Message) (options : Option CallOptions) (x : Exchange ρ ε) :
    Option Message :=
  (scope.tryLlmCacheLookup x.asked (cacheKeyInput model tools messages options)).2

variable {p} {model : String} {tools : List ToolDefinition} {scope : Scope}
  {messages : List Message} {options : Option CallOptions} {x : Exchange ρ ε} {message : Message}
  {e : LlmError}

end Provider

/-! ### Anthropic -/

/-- `ResponseContentBlock`. -/
inductive ResponseContentBlock where
  | text (text : String)
  | toolUse (id name : String) (input : Json)

/-- `AnthropicResponse`. -/
structure AnthropicResponse where
  /-- Content. -/
  content : List ResponseContentBlock
  /-- Usage. -/
  usage : Option TokenUsage

/-- `AnthropicErrorDetail`. -/
structure AnthropicErrorDetail where
  /-- Kind of the error. -/
  type : Option String
  /-- Its text. -/
  message : String

/-- `ContentBlock`. -/
inductive ContentBlock where
  | text (text : String)
  | image (mediaType data : String)
  | toolUse (id name : String) (input : Json)
  | toolResult (toolUseId content : String)

/-- `AnthropicContent`. -/
inductive AnthropicContent where
  | text (text : String)
  | blocks (blocks : List ContentBlock)

/-- `ChatAnthropic`. -/
structure ChatAnthropic where
  /-- Name of the model. -/
  model : String
  /-- Tools. -/
  tools : List ToolDefinition := []

namespace ChatAnthropic

/-- One part of a message in `convert_content`. -/
def convertPart : ContentPart → Except LlmError ContentBlock
  | .text text => .ok (.text text)
  | .image img =>
    match img.source with
    | .base64 data => .ok (.image img.mediaType data)
    | .url _ => .error (.invalidResponse "URL images not supported for Anthropic API")
  | .thinking text _ => .ok (.text text)

/-- `convert_content`. -/
def convertContent (content : Content) (toolCalls : List ToolCall) :
    Except LlmError AnthropicContent :=
  if toolCalls.isEmpty then
    match content with
    | .text text => .ok (.text text)
    | .multiPart parts => .blocks <$> parts.mapM convertPart
  else .ok (.blocks (toolCalls.map fun tc => .toolUse tc.id tc.name tc.arguments))

/-- The messages of the request, without the system messages. -/
def convertedMessages (messages : List Message) : Except LlmError (List AnthropicContent) :=
  (messages.filter fun m => m.role ≠ .system).mapM fun m => convertContent m.content m.toolCalls

/-- `parse_anthropic_error`. -/
def parseError (r : HttpResponse AnthropicResponse AnthropicErrorDetail) : LlmError :=
  match r.error with
  | some { type := some "authentication_error", message } => .authError message
  | some { type := some "rate_limit_error", .. } => .rateLimited
  | some { type := some "invalid_request_error", message } =>
    if "context".toList <:+: message.toList then .contextLengthExceeded 0 0
    else .invalidResponse message
  | some { message, .. } => .invalidResponse message
  | none => .invalidResponse s!"HTTP {r.status}: {r.text}"

/-- `convert_api_response`. -/
def convertApiResponse (id : String) (response : AnthropicResponse) : Message :=
  let content := response.content.foldl (fun content block =>
    match block with
    | .text text => content ++ text
    | .toolUse .. => content) ""
  let toolCalls := response.content.filterMap fun block =>
    match block with
    | .text _ => none
    | .toolUse id name input => some { id, name, arguments := input }
  { Message.aiWithToolCalls id content toolCalls with usage := response.usage }

/-- How this client does it. -/
def provider : Provider AnthropicResponse AnthropicErrorDetail where
  prepare messages := do
    let _ ← convertedMessages messages
    return
  parseError := parseError
  convert id response := .ok (convertApiResponse id response)

/-- `ChatAnthropic::invoke`. -/
def invoke (m : ChatAnthropic) (scope : Scope) (messages : List Message)
    (options : Option CallOptions) (x : Exchange AnthropicResponse AnthropicErrorDetail) :
    Scope × Except LlmError Message :=
  provider.invoke m.model m.tools scope messages options x

end ChatAnthropic

/-! ### OpenAI -/

/-- `OpenAIResponseToolCall`, with what `serde_json` makes of the arguments. -/
structure OpenAIResponseToolCall where
  /-- Identifier. -/
  id : String
  /-- Name of the tool. -/
  name : String
  /-- Its arguments. -/
  arguments : Except String Json

/-- `OpenAIResponseMessage`. -/
structure OpenAIResponseMessage where
  /-- Content. -/
  content : Option String
  /-- Tool calls. -/
  toolCalls : Option (List OpenAIResponseToolCall)

/-- `OpenAIUsage`. -/
structure OpenAIUsage where
  /-- Tokens of the request. -/
  promptTokens : UInt64
  /-- Tokens of the response. -/
  completionTokens : UInt64
  /-- All of them. -/
  totalTokens : UInt64

/-- `OpenAIResponse`. -/
structure OpenAIResponse where
  /-- Messages to choose from. -/
  choices : List OpenAIResponseMessage
  /-- Usage. -/
  usage : Option OpenAIUsage

/-- `OpenAIErrorDetail`. -/
structure OpenAIErrorDetail where
  /-- Its text. -/
  message : String
  /-- Code of the error. -/
  code : Option String

/-- `From<OpenAIUsage> for TokenUsage`. -/
def OpenAIUsage.toTokenUsage (val : OpenAIUsage) : TokenUsage where
  inputTokens := val.promptTokens
  outputTokens := val.completionTokens
  totalTokens := val.totalTokens

/-- `ChatOpenAI`. -/
structure ChatOpenAI where
  /-- Name of the model. -/
  model : String
  /-- Tools. -/
  tools : List ToolDefinition := []

namespace ChatOpenAI

/-- `parse_openai_error`. -/
def parseError (r : HttpResponse OpenAIResponse OpenAIErrorDetail) : LlmError :=
  match r.error with
  | some { code := some "invalid_api_key", message } => .authError message
  | some { code := some "401", message } => .authError message
  | some { code := some "rate_limit", .. } => .rateLimited
  | some { code := some "429", .. } => .rateLimited
  | some { code := some "context_length_exceeded", .. } => .contextLengthExceeded 0 0
  | some { message, .. } => .invalidResponse message
  | none => .invalidResponse s!"HTTP {r.status}: {r.text}"

/-- One tool call in `convert_api_response`. -/
def convertToolCall (tc : OpenAIResponseToolCall) : Except LlmError ToolCall :=
  match tc.arguments with
  | .error e => .error (.invalidResponse s!"Failed to parse tool arguments: {e}")
  | .ok arguments => .ok { id := tc.id, name := tc.name, arguments }

/-- `convert_api_response`. -/
def convertApiResponse (id : String) (response : OpenAIResponse) : Except LlmError Message :=
  match response.choices.head? with
  | none => .error (.invalidResponse "No choices in response")
  | some choice => do
    let toolCalls ← (choice.toolCalls.getD []).mapM convertToolCall
    return { Message.aiWithToolCalls id (choice.content.getD "") toolCalls with
      usage := response.usage.map OpenAIUsage.toTokenUsage }

/-- How this client does it. -/
def provider : Provider OpenAIResponse OpenAIErrorDetail where
  prepare _ := .ok ()
  parseError := parseError
  convert := convertApiResponse

/-- `ChatOpenAI::invoke`. -/
def invoke (m : ChatOpenAI) (scope : Scope) (messages : List Message)
    (options : Option CallOptions) (x : Exchange OpenAIResponse OpenAIErrorDetail) :
    Scope × Except LlmError Message :=
  provider.invoke m.model m.tools scope messages options x

end ChatOpenAI

/-! ### Ollama -/

/-- `OllamaToolCall`. -/
structure OllamaToolCall where
  /-- Name of the tool. -/
  name : String
  /-- Its arguments. -/
  arguments : Json

/-- `OllamaResponse`. -/
structure OllamaResponse where
  /-- Content. -/
  content : String
  /-- Tool calls. -/
  toolCalls : Option (List OllamaToolCall)
  /-- Tokens of the request. -/
  promptEvalCount : Option UInt64
  /-- Tokens of the response. -/
  evalCount : Option UInt64

/-- `ChatOllama`. -/
structure ChatOllama where
  /-- Name of the model. -/
  model : String
  /-- Tools. -/
  tools : List ToolDefinition := []

namespace ChatOllama

/-- `From<OllamaToolCall> for ToolCall`. -/
def toToolCall (tc : OllamaToolCall) : ToolCall where
  id := s!"ollama-{tc.name}"
  name := tc.name
  arguments := tc.arguments

/-- `ollama_usage`: there is none without a count for the response. -/
def ollamaUsage (promptEvalCount evalCount : Option UInt64) : Option TokenUsage :=
  let input := promptEvalCount.getD 0
  evalCount.map fun output =>
    { inputTokens := input, outputTokens := output, totalTokens := input + output }

/-- The message that this client makes of a response. -/
def convertApiResponse (id : String) (response : OllamaResponse) : Message :=
  { Message.aiWithToolCalls id response.content
      ((response.toolCalls.getD []).map toToolCall) with
    usage := ollamaUsage response.promptEvalCount response.evalCount }

/-- How this client does it. -/
def provider : Provider OllamaResponse Unit where
  prepare _ := .ok ()
  parseError r := .invalidResponse s!"HTTP {r.status}: {r.text}"
  convert id response := .ok (convertApiResponse id response)

/-- `ChatOllama::invoke`.  It reports the usage before it stores the response, which makes no
difference. -/
def invoke (m : ChatOllama) (scope : Scope) (messages : List Message)
    (options : Option CallOptions) (x : Exchange OllamaResponse Unit) :
    Scope × Except LlmError Message :=
  provider.invoke m.model m.tools scope messages options x

end ChatOllama

end Juncture
