import Juncture.Lib.ExceptFold
import Juncture.Llm.Providers

/-!
# The request of `ChatAnthropic`

The interface takes the system prompt apart from the messages, and has blocks for what is not text: calls
of tools, and their results.

* `ChatAnthropic.buildRequest` : the request for a conversation.
* `Preserves` : everything in the conversation is in the request.
* `ChatAnthropic.preserves_iff` : of which conversations this is true.
-/

namespace Juncture

open ExceptFold

/-! ### Requests -/

/-- `AnthropicMessage`. -/
structure AnthropicMessage where
  /-- Role of its sender. -/
  role : String
  /-- Content. -/
  content : AnthropicContent

/-- `AnthropicToolChoice`. -/
inductive AnthropicToolChoice where
  | auto | none | any
  | tool (name : String)

/-- `AnthropicTool`. -/
structure AnthropicTool where
  /-- Name. -/
  name : String
  /-- Description. -/
  description : String
  /-- Schema of the arguments. -/
  inputSchema : Json

/-- `AnthropicRequest`. -/
structure AnthropicRequest where
  /-- Name of the model. -/
  model : String
  /-- Messages. -/
  messages : List AnthropicMessage
  /-- System prompt. -/
  system : Option String
  /-- Bound on the tokens of the response. -/
  maxTokens : UInt32
  /-- Temperature. -/
  temperature : Option UInt32
  /-- Nucleus sampling. -/
  topP : Option UInt32
  /-- Where to stop. -/
  stopSequences : Option (List String)
  /-- Tools. -/
  tools : Option (List AnthropicTool)
  /-- Which tools may be called. -/
  toolChoice : Option AnthropicToolChoice
  /-- The response is streamed. -/
  stream : Bool

/-- A `ChatAnthropic` with its defaults for the options of a call. -/
structure ChatAnthropicDefaults extends ChatAnthropic where
  /-- Bound on the tokens of a response. -/
  maxTokens : UInt32
  /-- Temperature. -/
  temperature : Option UInt32 := none
  /-- Nucleus sampling. -/
  topP : Option UInt32 := none

namespace ChatAnthropic

/-- `convert_tool_choice`. -/
def convertToolChoice : ToolChoice → AnthropicToolChoice
  | .auto => .auto
  | .none => .none
  | .required => .any
  | .specific name => .tool name

/-- `convert_role_to_anthropic`. -/
def convertRole : Role → String
  | .human => "user"
  | .ai => "assistant"
  | .tool => "user"
  | .system => "user"

/-- A message of the request. -/
def convertMessage (m : Message) : Except LlmError AnthropicMessage := do
  let content ← convertContent m.content m.toolCalls
  return { role := convertRole m.role, content }

/-- The system messages. -/
def systemMessages (messages : List Message) : List Message :=
  messages.filter fun m => m.role = .system

/-- The others. -/
def apiMessages (messages : List Message) : List Message :=
  messages.filter fun m => m.role ≠ .system

/-- The system prompt. -/
def systemPrompt (messages : List Message) : Option String :=
  ((systemMessages messages).head?.bind fun m => match m.content with
    | .text text => some text
    | .multiPart _ => none).or
  (if (systemMessages messages).isEmpty then none else some "")

/-- The request of `invoke` and `stream`. -/
def buildRequest (m : ChatAnthropicDefaults) (messages : List Message) (options : Option CallOptions)
    (stream : Bool) : Except LlmError AnthropicRequest := do
  let converted ← (apiMessages messages).mapM convertMessage
  return {
    model := (options.bind CallOptions.modelOverride).getD m.model
    messages := converted
    system := systemPrompt messages
    maxTokens := (options.bind CallOptions.maxTokens).getD m.maxTokens
    temperature := (options.bind CallOptions.temperature).or m.temperature
    topP := (options.bind CallOptions.topP).or m.topP
    stopSequences := options.bind CallOptions.stopSequences
    tools :=
      if m.tools.isEmpty then none
      else some (m.tools.map fun t =>
        { name := t.name, description := t.description, inputSchema := t.parameters })
    toolChoice := (options.bind CallOptions.toolChoice).map convertToolChoice
    stream }

end ChatAnthropic

/-! ### What a conversation consists of -/

/-- What is said in a conversation. -/
inductive MessagePiece where
  | text (role text : String)
  | image (role mediaType : String) (source : ImageSource)
  | toolUse (id name : String) (input : Json)
  | toolResult (id text : String)

/-- A text, unless it is empty. -/
def textPieces (role text : String) : List MessagePiece := if text = "" then [] else [.text role text]

/-- The parts of a content. -/
def Content.parts : Content → List ContentPart
  | .text t => [.text t]
  | .multiPart parts => parts

/-- The text of a part. -/
def ContentPart.text? : ContentPart → Option String
  | .text t | .thinking t _ => some t
  | .image _ => none

/-- The texts of a content. -/
def Content.texts (content : Content) : List String := content.parts.filterMap ContentPart.text?

/-- What a part says. -/
def ContentPart.pieces (role : String) : ContentPart → List MessagePiece
  | .text t | .thinking t _ => textPieces role t
  | .image img => [.image role img.mediaType img.source]

/-- What a content says. -/
def Content.pieces (role : String) (content : Content) : List MessagePiece :=
  content.parts.flatMap (ContentPart.pieces role)

/-- What a message says: one that answers a call says what the result of the call is, any other what its
content says, and which tools are to be called. -/
def Message.pieces (m : Message) : List MessagePiece :=
  if m.role = .tool then [.toolResult (m.toolCallId.getD "") (String.join m.content.texts)]
  else m.content.pieces (ChatAnthropic.convertRole m.role) ++
    m.toolCalls.map fun tc => .toolUse tc.id tc.name tc.arguments

/-- What a block says. -/
def ContentBlock.pieces (role : String) : ContentBlock → List MessagePiece
  | .text t => textPieces role t
  | .image mediaType data => [.image role mediaType (.base64 data)]
  | .toolUse id name input => [.toolUse id name input]
  | .toolResult toolUseId content => [.toolResult toolUseId content]

/-- What a message of a request says. -/
def AnthropicMessage.pieces (m : AnthropicMessage) : List MessagePiece :=
  match m.content with
  | .text text => textPieces m.role text
  | .blocks blocks => blocks.flatMap (ContentBlock.pieces m.role)

/-- The request has the text of each system message in its system prompt, and says everything that the
other messages say, in order. -/
structure Preserves (messages : List Message) (request : AnthropicRequest) : Prop where
  /-- The texts of system messages. -/
  system : ∀ m ∈ ChatAnthropic.systemMessages messages, ∀ text ∈ m.content.texts,
    text.toList <:+: (request.system.getD "").toList
  /-- What the other messages say. -/
  said : List.Sublist ((ChatAnthropic.apiMessages messages).flatMap Message.pieces)
    (request.messages.flatMap AnthropicMessage.pieces)

/-! ### What is kept -/

section Lists

variable {α β γ : Type} {f : α → List γ} {g : β → List γ}

/-- Two lists are compared item by item, where some items of the second have less, unless `C`. -/
theorem sublist_flatMap_iff {C : α → Prop} {l : List α} {l' : List β}
    (h : List.Forall₂ (fun a b => List.Sublist (g b) (f a) ∧ (g b = f a ↔ C a)) l l') :
    List.Sublist (l.flatMap f) (l'.flatMap g) ↔ ∀ a ∈ l, C a := by
  induction h with
  | nil => simp
  | @cons a b l l' hab hll' ih =>
    obtain ⟨hsub, heq⟩ := hab
    have hrest : List.Sublist (l'.flatMap g) (l.flatMap f) := by
      clear ih
      induction hll' with
      | nil => exact .slnil
      | cons hab' _ ih => simpa using hab'.1.append ih
    rw [List.flatMap_cons, List.flatMap_cons, List.forall_mem_cons, ← ih, ← heq]
    constructor
    · intro hall
      -- nothing can be left out anywhere, or the one would be shorter
      have hlength := hall.length_le
      have hhere := hsub.length_le
      have hthere := hrest.length_le
      simp only [List.length_append] at hlength
      have hb := hsub.eq_of_length_le (by omega)
      have hl' := hrest.eq_of_length_le (by omega)
      exact ⟨hb, hl' ▸ List.Sublist.refl _⟩
    · rintro ⟨hb, hall⟩
      rw [hb]
      exact (List.Sublist.refl _).append hall

end Lists

namespace ChatAnthropic

/-- An image that is only referred to. -/
def IsUrl : ContentPart → Prop
  | .image { source := .url _, .. } => True
  | _ => False

theorem convertPart_eq_ok {part : ContentPart} {block : ContentBlock} (h : convertPart part = .ok block)
    (role : String) : block.pieces role = part.pieces role := by
  cases part with
  | text t => cases h; rfl
  | image img =>
    cases hsource : img.source with
    | base64 data =>
      simp only [convertPart, hsource] at h
      cases h
      simp only [ContentBlock.pieces, ContentPart.pieces, hsource]
    | url url => simp [convertPart, hsource] at h
  | thinking t signature => cases h; rfl

theorem convertPart_ok_iff {part : ContentPart} :
    (∃ block, convertPart part = .ok block) ↔ ¬ IsUrl part := by
  cases part with
  | text t => simp [convertPart, IsUrl]
  | image img =>
    obtain ⟨mediaType, source⟩ := img
    cases source <;> simp [convertPart, IsUrl]
  | thinking t signature => simp [convertPart, IsUrl]

theorem convertContent_nil {content : Content} :
    (∃ c, convertContent content [] = .ok c) ↔ ∀ part ∈ content.parts, ¬ IsUrl part := by
  cases content with
  | text t => simp [convertContent, Content.parts, IsUrl]
  | multiPart parts =>
    simp only [Content.parts, ← convertPart_ok_iff, ← mapM_ok_iff_forall]
    constructor
    · rintro ⟨c, hc⟩
      obtain ⟨blocks, hblocks, -⟩ := map_eq_ok_iff.mp hc
      exact ⟨blocks, hblocks⟩
    · rintro ⟨blocks, hblocks⟩
      exact ⟨.blocks blocks, map_eq_ok_iff.mpr ⟨blocks, hblocks, rfl⟩⟩

theorem convertMessage_ok {m : Message} :
    (∃ am, convertMessage m = .ok am) ↔ ∃ c, convertContent m.content m.toolCalls = .ok c := by
  constructor
  · rintro ⟨am, ham⟩
    obtain ⟨c, hc, -⟩ := bind_eq_ok_iff.mp ham
    exact ⟨c, hc⟩
  · rintro ⟨c, hc⟩
    exact ⟨_, bind_eq_ok_iff.mpr ⟨c, hc, rfl⟩⟩

/-- Messages with calls are always converted, others unless they refer to images. -/
theorem convertMessage_ok_iff {m : Message} :
    (∃ am, convertMessage m = .ok am) ↔
      m.toolCalls ≠ [] ∨ ∀ part ∈ m.content.parts, ¬ IsUrl part := by
  rw [convertMessage_ok]
  cases hcalls : m.toolCalls with
  | cons tc tcs => simp [convertContent]
  | nil => simp [convertContent_nil]

/-- The request of `provider` is built where this one is. -/
theorem prepare_ok_iff {m : ChatAnthropicDefaults} {messages : List Message}
    {options : Option CallOptions} {stream : Bool} :
    provider.prepare messages = .ok () ↔
      ∃ request, buildRequest m messages options stream = .ok request := by
  have hprepare : provider.prepare messages = .ok () ↔
      ∃ contents, convertedMessages messages = .ok contents := by
    constructor
    · intro h
      obtain ⟨contents, hcontents, -⟩ := bind_eq_ok_iff.mp h
      exact ⟨contents, hcontents⟩
    · rintro ⟨contents, hcontents⟩
      exact bind_eq_ok_iff.mpr ⟨contents, hcontents, rfl⟩
  have hbuild : (∃ request, buildRequest m messages options stream = .ok request) ↔
      ∃ converted, (apiMessages messages).mapM convertMessage = .ok converted := by
    constructor
    · rintro ⟨request, hrequest⟩
      obtain ⟨converted, hconverted, -⟩ := bind_eq_ok_iff.mp hrequest
      exact ⟨converted, hconverted⟩
    · rintro ⟨converted, hconverted⟩
      exact ⟨_, bind_eq_ok_iff.mpr ⟨converted, hconverted, rfl⟩⟩
  rw [hprepare, hbuild, convertedMessages, ← apiMessages, mapM_ok_iff_forall, mapM_ok_iff_forall]
  exact forall₂_congr fun msg _ => convertMessage_ok.symm

theorem pieces_blocks (role : String) (blocks : List ContentBlock) :
    AnthropicMessage.pieces { role, content := .blocks blocks } =
      blocks.flatMap (ContentBlock.pieces role) := rfl

/-- What a message of the request says: the content, or the calls. -/
theorem pieces_convertMessage {m : Message} {am : AnthropicMessage} (h : convertMessage m = .ok am) :
    am.pieces = if m.toolCalls = [] then m.content.pieces (convertRole m.role)
      else m.toolCalls.map fun tc => .toolUse tc.id tc.name tc.arguments := by
  obtain ⟨content, hcontent, ham⟩ := bind_eq_ok_iff.mp h
  cases ham
  unfold convertContent at hcontent
  cases hcalls : m.toolCalls with
  | cons tc tcs =>
    simp only [hcalls, List.isEmpty_cons, Bool.false_eq_true, ↓reduceIte] at hcontent
    cases hcontent
    rw [if_neg (by simp), pieces_blocks, List.flatMap_map]
    exact List.flatMap_pure_eq_map _ _
  | nil =>
    simp only [hcalls, List.isEmpty_nil, ↓reduceIte] at hcontent
    rw [if_pos rfl]
    cases hm : m.content with
    | text t =>
      rw [hm] at hcontent
      cases hcontent
      simp [AnthropicMessage.pieces, Content.pieces, Content.parts, ContentPart.pieces]
    | multiPart parts =>
      rw [hm] at hcontent
      obtain ⟨blocks, hblocks, rfl⟩ := map_eq_ok_iff.mp hcontent
      rw [pieces_blocks, Content.pieces, Content.parts]
      have hall := mapM_eq_ok_iff.mp hblocks
      clear hblocks hcontent hm h
      induction hall with
      | nil => rfl
      | cons hpart _ ih => rw [List.flatMap_cons, List.flatMap_cons, convertPart_eq_ok hpart, ih]

/-- The request does not say what the result of a call is. -/
theorem toolResult_notMem {m : Message} {am : AnthropicMessage} (h : convertMessage m = .ok am)
    (id text : String) : MessagePiece.toolResult id text ∉ am.pieces := by
  rw [pieces_convertMessage h]
  split
  · simp only [Content.pieces, List.mem_flatMap, not_exists, not_and]
    intro part _
    cases part with
    | text t => simp [ContentPart.pieces, textPieces, List.mem_ite_nil_left]
    | image img => simp [ContentPart.pieces]
    | thinking t signature => simp [ContentPart.pieces, textPieces, List.mem_ite_nil_left]
  · simp

theorem pieces_eq_nil_iff {role : String} {content : Content} :
    content.pieces role = [] ↔ ∀ part ∈ content.parts, part.text? = some "" := by
  rw [Content.pieces, List.flatMap_eq_nil_iff]
  refine forall₂_congr fun part _ => ?_
  cases part <;> simp [ContentPart.pieces, ContentPart.text?, textPieces]

/-- A message that does not answer a call: what it says, and what its message in the request says. -/
theorem convertMessage_keeps {m : Message} {am : AnthropicMessage} (hrole : m.role ≠ .tool)
    (h : convertMessage m = .ok am) :
    List.Sublist am.pieces m.pieces ∧
      (am.pieces = m.pieces ↔ m.toolCalls ≠ [] → ∀ part ∈ m.content.parts, part.text? = some "") := by
  rw [pieces_convertMessage h, Message.pieces, if_neg hrole]
  by_cases hcalls : m.toolCalls = []
  · simp [hcalls]
  · have hnil : m.content.pieces (convertRole m.role) = [] ↔ _ := pieces_eq_nil_iff
    rw [if_neg hcalls, ← hnil]
    refine ⟨List.sublist_append_right _ _, ?_⟩
    rw [List.self_eq_append_left]
    exact ⟨fun h _ => h, fun h => h hcalls⟩

/-- The text of a system message that may become the prompt. -/
def promptText (content : Content) : String :=
  match content with
  | .text t => t
  | .multiPart _ => ""

theorem systemPrompt_getD {messages : List Message} {f : Message}
    (h : (systemMessages messages).head? = some f) :
    (systemPrompt messages).getD "" = promptText f.content := by
  have hne : (systemMessages messages).isEmpty = false := by
    cases hsystem : systemMessages messages with
    | nil => simp [hsystem] at h
    | cons m ms => rfl
  rw [systemPrompt, h, hne]
  cases hf : f.content <;> simp [hf, promptText]

/-- A conversation of which everything is kept. -/
structure Kept (messages : List Message) : Prop where
  /-- There are no results of calls. -/
  answers : ∀ m ∈ messages, m.role ≠ .tool
  /-- A message with calls says nothing else. -/
  calls : ∀ m ∈ apiMessages messages, m.toolCalls ≠ [] →
    ∀ part ∈ m.content.parts, part.text? = some ""
  /-- No other refers to an image. -/
  images : ∀ m ∈ apiMessages messages, ∀ part ∈ m.content.parts, ¬ IsUrl part
  /-- The first system message, if it is a plain text, has the texts of all of them. -/
  system : ∀ f ∈ (systemMessages messages).head?, ∀ m ∈ systemMessages messages,
    ∀ t ∈ m.content.texts, t.toList <:+: (promptText f.content).toList

theorem not_isUrl_of_text {part : ContentPart} (h : part.text? = some "") : ¬ IsUrl part := by
  cases part with
  | image img => cases h
  | text t => exact id
  | thinking t signature => exact id

theorem exists_preserving_iff {m : ChatAnthropicDefaults} {messages : List Message}
    {options : Option CallOptions} {stream : Bool} :
    (∃ request, buildRequest m messages options stream = .ok request ∧ Preserves messages request) ↔
      ∃ converted, (apiMessages messages).mapM convertMessage = .ok converted ∧
        (∀ msg ∈ systemMessages messages, ∀ text ∈ msg.content.texts,
          text.toList <:+: ((systemPrompt messages).getD "").toList) ∧
        List.Sublist ((apiMessages messages).flatMap Message.pieces)
          (converted.flatMap AnthropicMessage.pieces) := by
  constructor
  · rintro ⟨request, hrequest, hsystem, hsaid⟩
    obtain ⟨converted, hconverted, hrequest⟩ := bind_eq_ok_iff.mp hrequest
    cases hrequest
    exact ⟨converted, hconverted, hsystem, hsaid⟩
  · rintro ⟨converted, hconverted, hsystem, hsaid⟩
    exact ⟨_, bind_eq_ok_iff.mpr ⟨converted, hconverted, rfl⟩, hsystem, hsaid⟩

theorem mem_apiMessages {messages : List Message} {m : Message} :
    m ∈ apiMessages messages ↔ m ∈ messages ∧ m.role ≠ .system := by
  simp [apiMessages]

/-- What the result of a call is would have to be said in the request. -/
theorem role_ne_tool_of_said {messages : List Message} {converted : List AnthropicMessage}
    (h : (apiMessages messages).mapM convertMessage = .ok converted)
    (hsaid : List.Sublist ((apiMessages messages).flatMap Message.pieces)
      (converted.flatMap AnthropicMessage.pieces)) : ∀ m ∈ apiMessages messages, m.role ≠ .tool := by
  intro m hm hrole
  have hpiece : MessagePiece.toolResult (m.toolCallId.getD "") (String.join m.content.texts) ∈
      (apiMessages messages).flatMap Message.pieces := by
    refine List.mem_flatMap.mpr ⟨m, hm, ?_⟩
    rw [Message.pieces, if_pos hrole]
    exact List.mem_singleton_self _
  obtain ⟨am, ham, hpiece⟩ := List.mem_flatMap.mp (hsaid.subset hpiece)
  obtain ⟨m', -, hm'⟩ := mem_of_mapM_eq_ok h ham
  exact toolResult_notMem hm' _ _ hpiece

/-- The messages that are no answers, one by one. -/
theorem said_iff {messages : List Message} {converted : List AnthropicMessage}
    (hrole : ∀ m ∈ apiMessages messages, m.role ≠ .tool)
    (h : (apiMessages messages).mapM convertMessage = .ok converted) :
    List.Sublist ((apiMessages messages).flatMap Message.pieces)
        (converted.flatMap AnthropicMessage.pieces) ↔
      ∀ m ∈ apiMessages messages, m.toolCalls ≠ [] →
        ∀ part ∈ m.content.parts, part.text? = some "" := by
  have hall := (List.forall₂_and_left _ _).mpr ⟨hrole, mapM_eq_ok_iff.mp h⟩
  exact sublist_flatMap_iff (hall.imp fun m am ham => convertMessage_keeps ham.1 ham.2)

/-- **Of which conversations everything is kept** in the request. -/
theorem preserves_iff (m : ChatAnthropicDefaults) (messages : List Message)
    (options : Option CallOptions) (stream : Bool) :
    (∃ request, buildRequest m messages options stream = .ok request ∧ Preserves messages request) ↔
      Kept messages := by
  rw [exists_preserving_iff]
  constructor
  · rintro ⟨converted, hconverted, hsystem, hsaid⟩
    have hanswers := role_ne_tool_of_said hconverted hsaid
    have hcalls := (said_iff hanswers hconverted).mp hsaid
    refine ⟨fun msg hmsg hrole => ?_, hcalls, fun msg hmsg => ?_, fun f hf => ?_⟩
    · exact hanswers msg (mem_apiMessages.mpr ⟨hmsg, by simp [hrole]⟩) hrole
    · have hok := mapM_ok_iff_forall.mp ⟨converted, hconverted⟩ msg hmsg
      obtain hsome | hurl := convertMessage_ok_iff.mp hok
      · exact fun part hpart => not_isUrl_of_text (hcalls msg hmsg hsome part hpart)
      · exact hurl
    · rw [← systemPrompt_getD hf]
      exact hsystem
  · rintro ⟨hanswers, hcalls, himages, hsystem⟩
    obtain ⟨converted, hconverted⟩ : ∃ converted, (apiMessages messages).mapM convertMessage = .ok converted :=
      mapM_ok_iff_forall.mpr fun msg hmsg => convertMessage_ok_iff.mpr (.inr (himages msg hmsg))
    refine ⟨converted, hconverted, fun msg hmsg => ?_, ?_⟩
    · cases hhead : (systemMessages messages).head? with
      | none => simp [List.head?_eq_none_iff.mp hhead] at hmsg
      | some f =>
        rw [systemPrompt_getD hhead]
        exact hsystem f hhead msg hmsg
    · refine (said_iff (fun msg hmsg => ?_) hconverted).mpr hcalls
      exact hanswers msg (mem_apiMessages.mp hmsg).1

/-- A call and its answer. -/
def answeredCall : List Message :=
  [{ id := "1", role := .human, content := .text "What is 6 times 7?" },
    .aiWithToolCalls "2" "" [{ id := "call_1", name := "calculator", arguments := .null }],
    { id := "3", role := .tool, content := .text "42", toolCallId := some "call_1" }]

/-- The answer does not refer to the call. -/
theorem answeredCall_not_preserved : ¬ ∀ (m : ChatAnthropicDefaults) (messages : List Message)
    (options : Option CallOptions) (stream : Bool), ∃ request,
      buildRequest m messages options stream = .ok request ∧ Preserves messages request := by
  intro hclaim
  obtain ⟨converted, hconverted, -, hsaid⟩ := exists_preserving_iff.mp
    (hclaim { model := "claude", maxTokens := 1024 } answeredCall none false)
  refine role_ne_tool_of_said hconverted hsaid
    { id := "3", role := .tool, content := .text "42", toolCallId := some "call_1" } ?_ rfl
  simp [answeredCall, apiMessages, Message.aiWithToolCalls]

end ChatAnthropic

end Juncture
