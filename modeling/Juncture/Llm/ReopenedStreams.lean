import Juncture.Llm.StreamLines

/-!
# The streams of `ChatAnthropic` and `ChatOllama`

Both clients send their request whenever the stream is polled.  What a poll has not read of the body is
lost with the response, apart from what is in the buffer, and the next poll reads another response.

* `reopened` : a poll of such a stream.
* `ChatAnthropic.convertSseEvent`, `ChatOllama.convertStreamResponse` : what the lines are converted to.
* `streams_once_iff` : when a response is read with one request, and gives what it stands for.
-/

namespace Juncture

open LineReader

/-! ### A request for each poll -/

/-- What goes from one poll to the next. -/
structure ReopenedState where
  /-- How many requests have been sent. -/
  sent : ℕ := 0
  /-- The stream is over. -/
  done : Bool := false
  /-- What has been read of lines. -/
  buffer : List UInt8 := []

section Reopened

variable {ε : Type} (refusal : StreamResponse ε → String → LlmError)
  (verdict : List UInt8 → Verdict StreamItem) (server : ℕ → StreamReply ε)

/-- One poll, and how many requests it sends.  `server n` is what request `n` comes to. -/
def reopened (s : ReopenedState) : ℕ × Option (StreamItem × ReopenedState) :=
  if s.done then (0, none)
  else
    let sent := s.sent + 1
    (1, match server s.sent with
      | .error e => some (.error (.networkError e), { s with sent, done := true })
      | .ok response =>
        if response.isSuccess then
          match read verdict newline s.buffer response.items with
          | .emit item buffer _ => some (item, { sent, done := false, buffer })
          | .last item buffer => some (item, { sent, done := true, buffer })
          | .closed => none
        else match response.text with
          | .error e => some (.error (.networkError e), { s with sent, done := true })
          | .ok text => some (.error (refusal response text), { s with sent, done := true }))

variable {refusal verdict server}

/-- A stream that is not over sends a request. -/
theorem cost_pos {s : ReopenedState} (hs : s.done = false) {items : List StreamItem} {cost : ℕ}
    (h : Consumed (reopened refusal verdict server) s items cost) : 0 < cost := by
  obtain ⟨next, hpoll⟩ : ∃ next, reopened refusal verdict server s = (1, next) := by
    rw [reopened, hs]
    exact ⟨_, rfl⟩
  cases next with
  | none =>
    obtain ⟨-, rfl⟩ := (consumed_of_none hpoll).mp h
    exact Nat.one_pos
  | some next =>
    obtain ⟨_, more, -, -, rfl⟩ := (consumed_of_some hpoll).mp h
    omega

/-- One that is over sends none. -/
theorem consumed_done {s : ReopenedState} (hs : s.done = true) {items : List StreamItem} {cost : ℕ} :
    Consumed (reopened refusal verdict server) s items cost ↔ items = [] ∧ cost = 0 :=
  consumed_of_none (by rw [reopened, hs]; rfl)

/-- What is got with one request. -/
theorem consumed_once_iff {chunks : List (List UInt8)} (hserver : server 0 = .ok (.ofChunks chunks))
    {items : List StreamItem} :
    Consumed (reopened refusal verdict server) {} items 1 ↔
      (first verdict (lines newline chunks.flatten)).Gives items := by
  have hsuccess : (.ofChunks chunks : StreamResponse ε).isSuccess = true := rfl
  have hpoll : reopened refusal verdict server {} =
      (1, match read verdict newline [] (chunks.map .ok) with
        | .emit item buffer _ => some (item, { sent := 1, done := false, buffer })
        | .last item buffer => some (item, { sent := 1, done := true, buffer })
        | .closed => none) := by
    simp only [reopened, Bool.false_eq_true, ↓reduceIte, hserver, hsuccess,
      StreamResponse.items_ofChunks, Nat.zero_add]
  have hempty : lines newline ([] : List UInt8) = [] := rfl
  have hfirst := read_first verdict newline chunks hempty
  rw [List.nil_append] at hfirst
  cases hread : read verdict newline [] (chunks.map .ok) with
  | emit item buffer chunks' =>
    rw [hread] at hpoll hfirst
    simp only [hfirst, Verdict.Gives, consumed_of_some hpoll, iff_false]
    -- The stream goes on, and the next poll sends the request again.
    rintro ⟨_, more, hmore, -, hcost⟩
    have hmore := cost_pos rfl hmore
    omega
  | last item buffer =>
    rw [hread] at hpoll hfirst
    simp only [hfirst, Verdict.Gives, consumed_of_some hpoll]
    constructor
    · rintro ⟨_, more, hmore, rfl, -⟩
      rw [((consumed_done rfl).mp hmore).1]
    · rintro rfl
      exact ⟨[], 0, (consumed_done rfl).mpr ⟨rfl, rfl⟩, rfl, rfl⟩
  | closed =>
    rw [hread] at hpoll hfirst
    rw [consumed_of_none hpoll]
    obtain hskip | hstop := hfirst
    · simp only [hskip, Verdict.Gives, and_true]
    · simp only [hstop, Verdict.Gives, and_true]

end Reopened

/-- The response with which a stream begins, and what later requests come to. -/
def opensWith {ε : Type} (chunks : List (List UInt8)) (later : ℕ → StreamReply ε) : ℕ → StreamReply ε
  | 0 => .ok (.ofChunks chunks)
  | n + 1 => later n

/-- What a response has to be to be read with one request: `verdict` is what is done with a line, and
`expect` what the line stands for. -/
structure ReadAtOnce (verdict expect : List UInt8 → Verdict StreamItem) (body : List UInt8) : Prop where
  /-- Up to the end, no line stands for an item to be followed by others, and each is taken for what it
  stands for. -/
  lines : ∀ line ∈ live expect (lines newline body),
    verdict line = expect line ∧ ∀ item, expect line ≠ .emit item
  /-- A last line without an end gives nothing, unless the end has come before. -/
  lastLine : (∃ line ∈ LineReader.lines newline body, (expect line).ends) ∨
    expect (rest newline body) = .skip ∨ expect (rest newline body) = .stop

theorem consumed_expected_iff {ε : Type} (refusal : StreamResponse ε → String → LlmError)
    {verdict expect : List UInt8 → Verdict StreamItem}
    (hlast : ∀ line item, verdict line = .last item → expect line = .last item)
    (hends : ∀ line, (verdict line).ends = (expect line).ends) (chunks : List (List UInt8))
    (later : ℕ → StreamReply ε) :
    Consumed (reopened refusal verdict (opensWith chunks later)) {}
        (emitted expect (lines newline chunks.flatten ++ [rest newline chunks.flatten])) 1 ↔
      ReadAtOnce verdict expect chunks.flatten := by
  rw [consumed_once_iff rfl, first_gives_iff hlast hends]
  exact ⟨fun h => ⟨h.1, h.2⟩, fun h => ⟨h.lines, h.lastLine⟩⟩

/-! ### Reading JSON -/

/-- A string. -/
def readStr (v : Json) (key : String) : Option String := (v.get key).bind Json.asStr

/-- A string that may be missing or null. -/
def readOptionStr (v : Json) (key : String) : Option (Option String) :=
  match v.get key with
  | none | some .null => some none
  | some (.str s) => some (some s)
  | some _ => none

/-- A number of 64 bits without a sign. -/
def readU64 (v : Json) (key : String) : Option UInt64 :=
  match v.get key with
  | some (.num n) => if 0 ≤ n ∧ n < 2 ^ 64 then some (UInt64.ofNat n.toNat) else none
  | _ => none

/-- `TokenUsage`. -/
def readTokenUsage (v : Json) : Option TokenUsage := do
  let inputTokens ← readU64 v "input_tokens"
  let outputTokens ← readU64 v "output_tokens"
  let totalTokens ← readU64 v "total_tokens"
  return { inputTokens, outputTokens, totalTokens }

/-! ### Anthropic -/

/-- `DeltaContent`. -/
structure DeltaContent where
  /-- What kind of delta it is. -/
  type_ : String
  /-- Text. -/
  text : Option String
  /-- A piece of the arguments. -/
  partialJson : Option String

/-- `AnthropicSSEEvent`. -/
inductive AnthropicSSEEvent where
  | messageStart
  | contentBlockStart (index : UInt64) (contentBlock : Option Json)
  | contentBlockDelta (index : UInt64) (delta : DeltaContent)
  | contentBlockStop
  | messageDelta (usage : Option TokenUsage)
  | messageStop
  | error (type message : String)

namespace ChatAnthropic

/-- A `DeltaContent` as it is deserialized: the member of the kind is called as the field is. -/
def readDeltaContent (v : Json) : Option DeltaContent := do
  let type_ ← readStr v "type_"
  let text ← readOptionStr v "text"
  let partialJson ← readOptionStr v "partial_json"
  return { type_, text, partialJson }

/-- An `AnthropicSSEEvent` as it is deserialized. -/
def readEvent (v : Json) : Option AnthropicSSEEvent :=
  match readStr v "type" with
  | some "message_start" => some .messageStart
  | some "content_block_start" => do
    let index ← readU64 v "index"
    let contentBlock := match v.get "content_block" with
      | some .null => none
      | block => block
    return .contentBlockStart index contentBlock
  | some "content_block_delta" => do
    let index ← readU64 v "index"
    let delta ← (v.get "delta").bind readDeltaContent
    return .contentBlockDelta index delta
  | some "content_block_stop" => do
    let _ ← readU64 v "index"
    return .contentBlockStop
  | some "message_delta" => do
    let delta ← v.get "delta"
    let _ ← readOptionStr delta "stop_reason"
    let _ ← readOptionStr delta "stop_sequence"
    match v.get "usage" with
    | none | some .null => return .messageDelta none
    | some usage => return .messageDelta (some (← readTokenUsage usage))
  | some "message_stop" => some .messageStop
  | some "error" => do
    let error ← v.get "error"
    return .error (← readStr error "type") (← readStr error "message")
  | _ => none

/-- `convert_sse_event`. -/
def convertSseEvent : AnthropicSSEEvent → StreamItem
  | .contentBlockStart index contentBlock => .ok
    { toolCallChunks := match contentBlock with
        | some block =>
          if readStr block "type" = some "tool_use" then
            [{ id := readStr block "id", name := readStr block "name", argsDelta := ""
               index := index.toNat }]
          else []
        | none => [] }
  | .contentBlockDelta index delta => .ok
    { content := if delta.type_ = "text" then delta.text.getD "" else ""
      toolCallChunks :=
        if delta.type_ = "tool_use" then
          [{ id := none, name := none, argsDelta := delta.partialJson.getD "", index := index.toNat }]
        else [] }
  | .messageDelta usage => .ok { usageDelta := usage }
  | .error type message => .error (.invalidResponse s!"Anthropic stream error: {type} - {message}")
  | .messageStart | .contentBlockStop | .messageStop => .ok {}

/-- What an event of the interface stands for: its text deltas are of the kind `text_delta`, its deltas of
arguments of the kind `input_json_delta`, and its final usage need not have all counts. -/
def expectedEvent (v : Json) : StreamItem :=
  match readStr v "type" with
  | some "content_block_delta" =>
    match readU64 v "index", v.get "delta" with
    | some index, some delta => .ok
      { content :=
          if readStr delta "type" = some "text_delta" then (readStr delta "text").getD "" else ""
        toolCallChunks :=
          if readStr delta "type" = some "input_json_delta" then
            [{ id := none, name := none, argsDelta := (readStr delta "partial_json").getD ""
               index := index.toNat }]
          else [] }
    | _, _ => .ok {}
  | some "message_delta" => .ok
    { usageDelta := (v.get "usage").bind fun usage =>
        (readU64 usage "output_tokens").map fun outputTokens =>
          let inputTokens := (readU64 usage "input_tokens").getD 0
          { inputTokens, outputTokens
            totalTokens := (readU64 usage "total_tokens").getD (inputTokens + outputTokens) } }
  | _ => ((readEvent v).map convertSseEvent).getD (.ok {})

/-- What an event is converted to, if it can be read. -/
def convertedEvent (v : Json) : StreamItem := ((readEvent v).map convertSseEvent).getD (.ok {})

theorem convertedEvent_of_delta {v : Json} (h : readStr v "type" = some "content_block_delta") :
    ∃ chunk, convertedEvent v = .ok chunk := by
  cases hindex : readU64 v "index" with
  | none => exact ⟨{}, by simp [convertedEvent, readEvent, h, hindex]⟩
  | some index =>
    cases hread : (v.get "delta").bind readDeltaContent with
    | none => exact ⟨{}, by simp [convertedEvent, readEvent, h, hindex, hread]⟩
    | some delta =>
      have hevent : readEvent v = some (.contentBlockDelta index delta) := by
        simp only [readEvent, h, hindex, hread, Option.bind_eq_bind, Option.bind_some, Option.pure_def]
      exact ⟨_, by rw [convertedEvent, hevent]; rfl⟩

theorem convertedEvent_of_messageDelta {v : Json} (h : readStr v "type" = some "message_delta") :
    ∃ chunk, convertedEvent v = .ok chunk := by
  cases hread : readEvent v with
  | none => exact ⟨{}, by simp [convertedEvent, hread]⟩
  | some event =>
    obtain ⟨usage, rfl⟩ : ∃ usage, event = .messageDelta usage := by
      simp only [readEvent, h, Option.bind_eq_bind, Option.bind_eq_some_iff, Option.pure_def] at hread
      obtain ⟨delta, -, _, -, _, -, hread⟩ := hread
      split at hread
      · exact ⟨none, (Option.some.inj hread).symm⟩
      · exact ⟨none, (Option.some.inj hread).symm⟩
      · obtain ⟨usage, -, hread⟩ := Option.bind_eq_some_iff.mp hread
        exact ⟨some usage, (Option.some.inj hread).symm⟩
    exact ⟨_, by rw [convertedEvent, hread]; rfl⟩

/-- Where an event is converted to an error, it stands for it. -/
theorem expectedEvent_error_iff {v : Json} {e : LlmError} :
    expectedEvent v = .error e ↔ convertedEvent v = .error e := by
  by_cases hdelta : readStr v "type" = some "content_block_delta"
  · obtain ⟨chunk, hconverted⟩ := convertedEvent_of_delta hdelta
    have hexpected : ∃ chunk, expectedEvent v = .ok chunk := by
      simp only [expectedEvent, hdelta]
      split <;> exact ⟨_, rfl⟩
    obtain ⟨chunk', hexpected⟩ := hexpected
    simp [hconverted, hexpected]
  by_cases husage : readStr v "type" = some "message_delta"
  · obtain ⟨chunk, hconverted⟩ := convertedEvent_of_messageDelta husage
    simp [hconverted, expectedEvent, husage]
  · -- every other event stands for what it is converted to
    have hexpected : expectedEvent v = convertedEvent v := by
      unfold expectedEvent convertedEvent
      split
      · contradiction
      · contradiction
      · rfl
    rw [hexpected]

section

variable (parse : String → Option Json)

/-- What becomes of a line. -/
def streamVerdict (line : List UInt8) : Verdict StreamItem :=
  match (sseData line).bind fun data => (parse (String.ofList data)).bind readEvent with
  | none => .skip
  | some event => itemVerdict (convertSseEvent event)

/-- What a line stands for. -/
def expectedLine (line : List UInt8) : Verdict StreamItem :=
  match (sseData line).bind fun data => parse (String.ofList data) with
  | none => .skip
  | some v => itemVerdict (expectedEvent v)

/-- `parse_anthropic_error`, of the text of a response. -/
def streamError (response : StreamResponse AnthropicErrorDetail) (text : String) : LlmError :=
  parseError { status := response.status, text, body := .error "", error := response.error }

/-- One poll of the stream. -/
def pollStream (server : ℕ → StreamReply AnthropicErrorDetail) :
    ReopenedState → ℕ × Option (StreamItem × ReopenedState) :=
  reopened streamError (streamVerdict parse) server

/-- The stream of a body that comes in some chunks gives what the body stands for, with one request,
whatever later requests would come to. -/
def StreamsOnce (chunks : List (List UInt8)) (later : ℕ → StreamReply AnthropicErrorDetail) : Prop :=
  Consumed (pollStream parse (opensWith chunks later)) {}
    (emitted (expectedLine parse) (lines newline chunks.flatten ++ [rest newline chunks.flatten])) 1

/-- Only an error is a last item. -/
theorem itemVerdict_eq_last_iff {item item' : StreamItem} :
    itemVerdict item = .last item' ↔ (∃ e, item = .error e) ∧ item = item' := by
  cases item with
  | error e => simp [itemVerdict]
  | ok chunk => by_cases h : chunk.hasPayload <;> simp [itemVerdict, h]

theorem itemVerdict_ne_stop (item : StreamItem) : itemVerdict item ≠ .stop := by
  cases item with
  | error e => simp [itemVerdict]
  | ok chunk => by_cases h : chunk.hasPayload <;> simp [itemVerdict, h]

variable {parse}

theorem expectedLine_eq_last_iff {line : List UInt8} {item : StreamItem} :
    expectedLine parse line = .last item ↔ streamVerdict parse line = .last item := by
  unfold expectedLine streamVerdict
  cases hdata : sseData line with
  | none => rfl
  | some data =>
    simp only [Option.bind_some]
    cases hparse : parse (String.ofList data) with
    | none => rfl
    | some v =>
      have herror := fun e => expectedEvent_error_iff (v := v) (e := e)
      simp only [Option.bind_some]
      cases hread : readEvent v with
      | none =>
        simp only [convertedEvent, hread, Option.map_none, Option.getD_none, reduceCtorEq, iff_false]
          at herror
        simp [itemVerdict_eq_last_iff, herror]
      | some event =>
        simp only [convertedEvent, hread, Option.map_some, Option.getD_some] at herror
        simp only [itemVerdict_eq_last_iff, herror]
        constructor
        · rintro ⟨⟨e, he⟩, rfl⟩
          exact ⟨⟨e, he⟩, he.trans ((herror e).mpr he).symm⟩
        · rintro ⟨⟨e, he⟩, rfl⟩
          exact ⟨⟨e, he⟩, ((herror e).mpr he).trans he.symm⟩

theorem expectedLine_ne_stop (line : List UInt8) : expectedLine parse line ≠ .stop := by
  unfold expectedLine
  split
  · simp
  · exact itemVerdict_ne_stop _

theorem streamVerdict_ne_stop (line : List UInt8) : streamVerdict parse line ≠ .stop := by
  unfold streamVerdict
  split
  · simp
  · exact itemVerdict_ne_stop _

/-- The stream of a response is read as it should be, exactly if the response is such that it can be read at
once. -/
theorem streamsOnce_iff (chunks : List (List UInt8)) (later : ℕ → StreamReply AnthropicErrorDetail) :
    StreamsOnce parse chunks later ↔
      ReadAtOnce (streamVerdict parse) (expectedLine parse) chunks.flatten :=
  consumed_expected_iff streamError (fun _ _ => expectedLine_eq_last_iff.mpr) (fun line => by
    have hlast : ∀ item, expectedLine parse line = .last item ↔ streamVerdict parse line = .last item :=
      fun _ => expectedLine_eq_last_iff
    have hstop : expectedLine parse line ≠ .stop := expectedLine_ne_stop line
    have hstop' : streamVerdict parse line ≠ .stop := streamVerdict_ne_stop line
    rw [Bool.eq_iff_iff, Verdict.ends_iff, Verdict.ends_iff]
    simp only [hlast, hstop, hstop']) chunks later

end

end ChatAnthropic

/-! ### Ollama -/

/-- `OllamaStreamResponse`. -/
structure OllamaStreamResponse where
  /-- Content. -/
  content : String
  /-- Tool calls. -/
  toolCalls : Option (List OllamaToolCall) := none
  /-- Nothing comes after it. -/
  done : Bool := false
  /-- Tokens of the request. -/
  promptEvalCount : Option UInt64 := none
  /-- Tokens of the response. -/
  evalCount : Option UInt64 := none

namespace ChatOllama

section

variable (render : Json → String) (parse : String → Option OllamaStreamResponse)

/-- The chunk that a line of the body is converted to. -/
def convertStreamResponse (response : OllamaStreamResponse) : MessageChunk where
  content := response.content
  toolCallChunks := (response.toolCalls.getD []).zipIdx.map fun (tc, index) =>
    let call := toToolCall tc
    { id := some call.id, name := some call.name, argsDelta := render call.arguments, index }
  usageDelta :=
    if response.done then ollamaUsage response.promptEvalCount response.evalCount else none

/-- What is done with a line: whether it is handed on depends on its content and its usage. -/
def responseVerdict (response : OllamaStreamResponse) : Verdict StreamItem :=
  let chunk := convertStreamResponse render response
  if response.done then
    if chunk.content ≠ "" ∨ chunk.usageDelta.isSome then .last (.ok chunk) else .stop
  else if chunk.content ≠ "" then .emit (.ok chunk)
  else .skip

/-- What a line stands for. -/
def expectedResponse (response : OllamaStreamResponse) : Verdict StreamItem :=
  let chunk := convertStreamResponse render response
  if response.done then if chunk.hasPayload then .last (.ok chunk) else .stop
  else itemVerdict (.ok chunk)

/-- A line that is not empty and can be read. -/
def lineVerdict (verdict : OllamaStreamResponse → Verdict StreamItem) (line : List UInt8) :
    Verdict StreamItem :=
  let text := lineText line
  if text.isEmpty then .skip
  else match parse (String.ofList text) with
    | none => .skip
    | some response => verdict response

/-- The error for a response that is not a success. -/
def streamError (response : StreamResponse Unit) (text : String) : LlmError :=
  provider.parseError { status := response.status, text, body := .error "", error := none }

/-- One poll of the stream. -/
def pollStream (server : ℕ → StreamReply Unit) :
    ReopenedState → ℕ × Option (StreamItem × ReopenedState) :=
  reopened streamError (lineVerdict parse (responseVerdict render)) server

/-- The stream of a body that comes in some chunks gives what the body stands for, with one request,
whatever later requests would come to. -/
def StreamsOnce (chunks : List (List UInt8)) (later : ℕ → StreamReply Unit) : Prop :=
  Consumed (pollStream render parse (opensWith chunks later)) {}
    (emitted (lineVerdict parse (expectedResponse render))
      (lines newline chunks.flatten ++ [rest newline chunks.flatten])) 1

variable {render parse}

theorem expectedResponse_of_last {response : OllamaStreamResponse} {item : StreamItem}
    (h : responseVerdict render response = .last item) :
    expectedResponse render response = .last item := by
  cases hdone : response.done with
  | false =>
    rw [responseVerdict, hdone, if_neg Bool.false_ne_true] at h
    split at h <;> cases h
  | true =>
    rw [responseVerdict, hdone, if_pos rfl] at h
    rw [expectedResponse, hdone, if_pos rfl]
    split at h
    next hsome =>
      have hpayload : (convertStreamResponse render response).hasPayload = true := by
        obtain hcontent | husage := hsome
        · simp [MessageChunk.hasPayload, hcontent]
        · simp [MessageChunk.hasPayload, husage]
      rw [if_pos hpayload, h]
    next => cases h

/-- A line ends the body if it says so. -/
theorem ends_responseVerdict (response : OllamaStreamResponse) :
    (responseVerdict render response).ends = response.done := by
  cases hdone : response.done with
  | false =>
    rw [responseVerdict, hdone, if_neg Bool.false_ne_true]
    split <;> rfl
  | true =>
    rw [responseVerdict, hdone, if_pos rfl]
    split <;> rfl

theorem ends_expectedResponse (response : OllamaStreamResponse) :
    (expectedResponse render response).ends = response.done := by
  cases hdone : response.done with
  | false =>
    rw [expectedResponse, hdone, if_neg Bool.false_ne_true, itemVerdict]
    split <;> rfl
  | true =>
    rw [expectedResponse, hdone, if_pos rfl]
    split <;> rfl

/-- The stream of a response is read as it should be, exactly if the response is such that it can be read at
once. -/
theorem streamsOnce_iff (chunks : List (List UInt8)) (later : ℕ → StreamReply Unit) :
    StreamsOnce render parse chunks later ↔
      ReadAtOnce (lineVerdict parse (responseVerdict render))
        (lineVerdict parse (expectedResponse render)) chunks.flatten := by
  refine consumed_expected_iff streamError (fun line item => ?_) (fun line => ?_) chunks later
  · unfold lineVerdict
    dsimp only
    split
    · exact fun h => h
    · split
      · exact fun h => h
      · exact expectedResponse_of_last
  · unfold lineVerdict
    dsimp only
    split
    · rfl
    · split
      · rfl
      · rw [ends_responseVerdict, ends_expectedResponse]

end

end ChatOllama

/-! ### Both -/

/-- **Which responses are read with one request**, and give what they stand for. -/
theorem streams_once_iff (chunks : List (List UInt8)) :
    (∀ (parse : String → Option Json) (later : ℕ → StreamReply AnthropicErrorDetail),
      ChatAnthropic.StreamsOnce parse chunks later ↔
        ReadAtOnce (ChatAnthropic.streamVerdict parse) (ChatAnthropic.expectedLine parse)
          chunks.flatten) ∧
    (∀ (render : Json → String) (parse : String → Option OllamaStreamResponse)
      (later : ℕ → StreamReply Unit),
      ChatOllama.StreamsOnce render parse chunks later ↔
        ReadAtOnce (ChatOllama.lineVerdict parse (ChatOllama.responseVerdict render))
          (ChatOllama.lineVerdict parse (ChatOllama.expectedResponse render)) chunks.flatten) :=
  ⟨fun _ later => ChatAnthropic.streamsOnce_iff chunks later,
    fun _ _ later => ChatOllama.streamsOnce_iff chunks later⟩

/-- The text of an event with a piece of text. -/
def textDelta : String :=
  "\x7b\"type\":\"content_block_delta\",\"index\":0,\"delta\":\x7b\"type\":\"text_delta\",\"text\":\"hi\"\x7d\x7d"

/-- What it is read as. -/
def textDeltaParse (text : String) : Option Json :=
  if text = textDelta then
    some (.obj [("type", .str "content_block_delta"), ("index", .num 0),
      ("delta", .obj [("type", .str "text_delta"), ("text", .str "hi")])])
  else none

/-- A response with this event. -/
def textDeltaBody : List (List UInt8) :=
  [asciiBytes ("data: ".toList ++ textDelta.toList) ++ [newline]]

/-- The text of it is lost. -/
theorem textDelta_not_streamsOnce :
    ¬ ((∀ parse chunks later, ChatAnthropic.StreamsOnce parse chunks later) ∧
      ∀ render parse chunks later, ChatOllama.StreamsOnce render parse chunks later) := by
  rintro ⟨hclaim, -⟩
  have hread := (ChatAnthropic.streamsOnce_iff textDeltaBody fun _ => .error "").mp
    (hclaim textDeltaParse _ _)
  obtain ⟨hline, hdata⟩ : newline ∉ asciiBytes ("data: ".toList ++ textDelta.toList) ∧
      sseData (asciiBytes ("data: ".toList ++ textDelta.toList)) = some textDelta.toList :=
    sseData_ofList (by decide) (by decide)
  have hparse : textDeltaParse (String.ofList textDelta.toList) = some (.obj
      [("type", .str "content_block_delta"), ("index", .num 0),
        ("delta", .obj [("type", .str "text_delta"), ("text", .str "hi")])]) := by
    rw [String.ofList_toList]
    exact if_pos rfl
  have hexpect : ChatAnthropic.expectedLine textDeltaParse
      (asciiBytes ("data: ".toList ++ textDelta.toList)) = .emit (.ok { content := "hi" }) := by
    rw [ChatAnthropic.expectedLine, hdata, Option.bind_some, hparse]
    rfl
  have hlines : lines newline textDeltaBody.flatten =
      [asciiBytes ("data: ".toList ++ textDelta.toList)] := by
    rw [textDeltaBody, List.flatten_singleton, (lines_append_cons hline []).1]
    rfl
  refine (hread.lines _ ?_).2 _ hexpect
  rw [hlines]
  exact List.mem_cons_self

end Juncture
