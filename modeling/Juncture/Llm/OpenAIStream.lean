import Juncture.Llm.StreamLines

/-!
# The stream of `ChatOpenAI`

One request is sent, and its body read line by line as the stream is polled.  A poll that returns an item
leaves the lines behind it in the buffer; the next one waits for a further chunk before it looks at them.

* `ChatOpenAI.poll` : the stream.
* `ChatOpenAI.expectedItems` : what the body stands for, however it is cut.
* `ChatOpenAI.streams_iff` : for which cuts this is what is got.
-/

namespace Juncture

open LineReader

/-- `OpenAIToolCallChunk`, with its `OpenAIFunctionChunk`. -/
structure OpenAIToolCallChunk where
  /-- Which call it is. -/
  index : ℕ
  /-- Identifier. -/
  id : Option String := none
  /-- `function`: name and arguments. -/
  function : Option (Option String × Option String) := none

/-- `OpenAIDelta`. -/
structure OpenAIDelta where
  /-- Content. -/
  content : Option String := none
  /-- Tool calls. -/
  toolCalls : Option (List OpenAIToolCallChunk) := none

/-- `OpenAISSEChunk`. -/
structure OpenAISSEChunk where
  /-- Choices, of which only the first is looked at. -/
  choices : List OpenAIDelta
  /-- Usage. -/
  usage : Option OpenAIUsage := none

namespace ChatOpenAI

/-- The tool call chunks of a delta. -/
def convertToolCallChunk (tc : OpenAIToolCallChunk) : ToolCallChunk where
  id := tc.id
  name := tc.function.bind Prod.fst
  argsDelta := (tc.function.bind Prod.snd).getD ""
  index := tc.index

/-- `convert_openai_sse_chunk`. -/
def convertSseChunk (chunk : OpenAISSEChunk) : StreamItem :=
  match chunk.choices.head? with
  | none => .error (.invalidResponse "No choices in SSE chunk")
  | some delta => .ok
    { content := delta.content.getD ""
      toolCallChunks := (delta.toolCalls.getD []).map convertToolCallChunk
      usageDelta := chunk.usage.map OpenAIUsage.toTokenUsage }

/-- What a chunk stands for: one without choices that has a usage stands for the usage. -/
def expectedChunk (chunk : OpenAISSEChunk) : StreamItem :=
  if chunk.choices = [] ∧ chunk.usage.isSome then
    .ok { usageDelta := chunk.usage.map OpenAIUsage.toTokenUsage }
  else convertSseChunk chunk

section Lines

variable (parse : String → Option OpenAISSEChunk)

/-- What becomes of a line, by what its chunk is converted to.  Data that are no chunk are passed over. -/
def verdict (convert : OpenAISSEChunk → StreamItem) (line : List UInt8) : Verdict StreamItem :=
  match sseData line with
  | none => .skip
  | some data =>
    if data = "[DONE]".toList then .stop
    else match parse (String.ofList data) with
      | none => .skip
      | some chunk => itemVerdict (convert chunk)

/-- The line has a usage and no choices. -/
def UsageOnly (line : List UInt8) : Prop :=
  ∃ data chunk, sseData line = some data ∧ data ≠ "[DONE]".toList ∧
    parse (String.ofList data) = some chunk ∧ chunk.choices = [] ∧ chunk.usage.isSome

/-! ### The stream -/

/-- `StreamState`. -/
inductive StreamState where
  | pending (reply : StreamReply OpenAIErrorDetail)
  | active (chunks : List (Except StreamItem (List UInt8)))
  | done

/-- The loop over the chunks. -/
def pollBody (buffer : List UInt8) (chunks : List (Except StreamItem (List UInt8))) :
    Option (StreamItem × StreamState × List UInt8) :=
  match read (verdict parse convertSseChunk) newline buffer chunks with
  | .emit item buffer chunks => some (item, .active chunks, buffer)
  | .last item buffer => some (item, .done, buffer)
  | .closed => none

/-- One poll of the stream, and how many requests it sends. -/
def poll : StreamState × List UInt8 → ℕ × Option (StreamItem × StreamState × List UInt8)
  | (.pending reply, buffer) => (1, match reply with
    | .error e => some (.error (.networkError e), .done, buffer)
    | .ok response =>
      if response.isSuccess then pollBody parse buffer response.items
      else match response.text with
        | .error e => some (.error (.networkError e), .done, buffer)
        | .ok text => some (.error (parseError
            { status := response.status, text, body := .error "", error := response.error }),
              .done, buffer))
  | (.active chunks, buffer) => (0, pollBody parse buffer chunks)
  | (.done, _) => (0, none)

/-- What a body stands for: each line in turn, up to the end marker, an error or the end of the body. -/
def expectedItems (body : List UInt8) : List StreamItem :=
  emitted (verdict parse expectedChunk) (lines newline body ++ [rest newline body])

/-- The stream of a body that comes in some chunks gives what the body stands for, with one request. -/
def Streams (chunks : List (List UInt8)) : Prop :=
  Consumed (poll parse) (.pending (.ok (.ofChunks chunks)), []) (expectedItems parse chunks.flatten) 1

/-- How many items the complete lines of some bytes give. -/
def itemCount (bytes : List UInt8) : ℕ :=
  (emitted (verdict parse convertSseChunk) (lines newline bytes)).length

/-! ### What is got -/

variable {parse}

/-- An open stream is read chunk by chunk. -/
theorem consumed_active (chunks : List (List UInt8)) (buffer : List UInt8) :
    Consumed (poll parse) (.active (chunks.map .ok), buffer)
      (outputs (verdict parse convertSseChunk) newline buffer chunks) 0 := by
  induction chunks generalizing buffer with
  | nil => exact .ended rfl
  | cons chunk chunks ih =>
    have hread := read_cons (verdict parse convertSseChunk) newline buffer chunk (chunks.map .ok)
    rw [outputs, List.map_cons]
    cases hscan : scan (verdict parse convertSseChunk) newline (buffer ++ chunk) with
    -- No output yet: `poll` goes on to the next chunk by itself.
    | more buffer' =>
      rw [hscan] at hread
      have hpoll : poll parse (.active (.ok chunk :: chunks.map .ok), buffer) =
          (0 + (poll parse (.active (chunks.map .ok), buffer')).1,
            (poll parse (.active (chunks.map .ok), buffer')).2) := by
        simp only [poll, pollBody, hread, Nat.add_zero]
      exact (ih buffer').raise hpoll
    | emit item buffer' =>
      rw [hscan] at hread
      have hpoll : poll parse (.active (.ok chunk :: chunks.map .ok), buffer) =
          (0, some (item, .active (chunks.map .ok), buffer')) := by
        simp only [poll, pollBody, hread]
      exact .next hpoll (ih buffer')
    | last item buffer' =>
      rw [hscan] at hread
      have hpoll : poll parse (.active (.ok chunk :: chunks.map .ok), buffer) =
          (0, some (item, .done, buffer')) := by
        simp only [poll, pollBody, hread]
      have hdone : poll parse (.done, buffer') = (0, none) := rfl
      exact .next hpoll (.ended hdone)
    | stop =>
      rw [hscan] at hread
      have hpoll : poll parse (.active (.ok chunk :: chunks.map .ok), buffer) = (0, none) := by
        simp only [poll, pollBody, hread]
      exact .ended hpoll

/-- What the stream gives, with one request. -/
theorem consumed_pending (chunks : List (List UInt8)) :
    Consumed (poll parse) (.pending (.ok (.ofChunks chunks)), [])
      (outputs (verdict parse convertSseChunk) newline [] chunks) 1 := by
  have hsuccess : (.ofChunks chunks : StreamResponse OpenAIErrorDetail).isSuccess = true := rfl
  have hpoll : poll parse (.pending (.ok (.ofChunks chunks)), []) =
      (1 + (poll parse (.active (chunks.map .ok), [])).1,
        (poll parse (.active (chunks.map .ok), [])).2) := by
    simp only [poll, hsuccess, ↓reduceIte, StreamResponse.items_ofChunks]
  exact (consumed_active chunks []).raise hpoll

theorem streams_iff_outputs (chunks : List (List UInt8)) :
    Streams parse chunks ↔
      outputs (verdict parse convertSseChunk) newline [] chunks = expectedItems parse chunks.flatten := by
  constructor
  · exact fun h => (consumed_pending chunks).unique h |>.1
  · intro h
    rw [Streams, ← h]
    exact consumed_pending chunks

/-- Where the conversion of a line is not what the line stands for. -/
theorem verdict_of_usageOnly {line : List UInt8} (h : UsageOnly parse line) :
    ∃ o o', verdict parse convertSseChunk line = .last o ∧
      verdict parse expectedChunk line = .emit o' ∧ o ≠ o' := by
  obtain ⟨data, chunk, hdata, hdone, hparse, hchoices, husage⟩ := h
  obtain ⟨usage, husage⟩ := Option.isSome_iff_exists.mp husage
  refine ⟨.error (.invalidResponse "No choices in SSE chunk"), .ok { usageDelta := some usage.toTokenUsage },
    ?_, ?_, by simp⟩
  · simp only [verdict, hdata, if_neg hdone, hparse, convertSseChunk, hchoices, List.head?_nil, itemVerdict]
  · simp only [verdict, hdata, if_neg hdone, hparse, expectedChunk, hchoices, husage, Option.isSome_some,
      and_self, ↓reduceIte, itemVerdict, MessageChunk.hasPayload, Option.map_some, Bool.or_true]

theorem verdict_of_not_usageOnly {line : List UInt8} (h : ¬ UsageOnly parse line) :
    verdict parse convertSseChunk line = verdict parse expectedChunk line := by
  unfold verdict
  cases hdata : sseData line with
  | none => rfl
  | some data =>
    by_cases hdone : data = "[DONE]".toList
    · simp only [hdone, ↓reduceIte]
    · simp only [hdone, ↓reduceIte]
      cases hparse : parse (String.ofList data) with
      | none => rfl
      | some chunk =>
        have hchunk : ¬ (chunk.choices = [] ∧ chunk.usage.isSome) := fun hboth =>
          h ⟨data, chunk, hdata, hdone, hparse, hboth⟩
        simp only [expectedChunk, hchunk, ↓reduceIte]

variable (parse) in
/-- Chunks of a body that are read as a whole. -/
structure ReadWhole (chunks : List (List UInt8)) : Prop where
  /-- Up to the end marker or an error, no line has a usage and no choices. -/
  choices : ∀ line ∈ live (verdict parse expectedChunk)
    (lines newline chunks.flatten ++ [rest newline chunks.flatten]), ¬ UsageOnly parse line
  /-- A last line without an end gives nothing, unless the end marker or an error has come before. -/
  lastLine : (∃ line ∈ lines newline chunks.flatten, (verdict parse convertSseChunk line).ends) ∨
    verdict parse convertSseChunk (rest newline chunks.flatten) = .skip ∨
    verdict parse convertSseChunk (rest newline chunks.flatten) = .stop
  /-- The last chunks, however many, complete no more items than they are. -/
  pace : ∀ i ≤ chunks.length, itemCount parse chunks.flatten ≤
    itemCount parse (chunks.take i).flatten + (chunks.length - i)

/-- The stream gives what the body stands for exactly if its chunks are read as a whole. -/
theorem streams_iff (chunks : List (List UInt8)) : Streams parse chunks ↔ ReadWhole parse chunks := by
  rw [streams_iff_outputs, expectedItems]
  have hread := outputs_initial (verdict parse convertSseChunk) newline chunks []
  rw [List.nil_append] at hread
  have hbody : emitted (verdict parse convertSseChunk) (lines newline chunks.flatten) <+: _ :=
    emitted_prefix _ [rest newline chunks.flatten]
  constructor
  · intro hout
    have hchoices : ∀ line ∈ live (verdict parse expectedChunk)
        (lines newline chunks.flatten ++ [rest newline chunks.flatten]), ¬ UsageOnly parse line := by
      intro line hline husage
      exact ne_emitted_of_conflict (fun _ => verdict_of_usageOnly) (fun _ => verdict_of_not_usageOnly)
        ⟨line, hline, husage⟩ (hread.trans hbody) hout
    rw [← emitted_congr fun line hline => verdict_of_not_usageOnly (hchoices line hline)] at hout
    -- what is read lies between what the complete lines give and what all of them give
    rw [hout] at hread
    have hlast := hread.eq_of_length_le hbody.length_le
    refine ⟨hchoices, emitted_concat_eq_iff.mp hlast, ?_⟩
    exact (outputs_eq_iff _ _ chunks).mp (hout.trans hlast)
  · rintro ⟨hchoices, hlast, hpace⟩
    rw [← emitted_congr fun line hline => verdict_of_not_usageOnly (hchoices line hline),
      emitted_concat_eq_iff.mpr hlast]
    exact (outputs_eq_iff _ _ chunks).mpr hpace

end Lines

/-! ### Two events in one chunk -/

/-- The text of an event. -/
def helloText : String :=
  "\x7b\"id\":\"1\",\"object\":\"\",\"created\":0,\"model\":\"m\",\"choices\":[\x7b\"index\":0,\"delta\":\x7b\"content\":\"hi\"\x7d\x7d]\x7d"

/-- It is read as a chunk with some content. -/
def helloParse (text : String) : Option OpenAISSEChunk :=
  if text = helloText then some { choices := [{ content := some "hi" }] } else none

/-- The line of the event, without its end. -/
def helloLine : List UInt8 := ("data: ".toList ++ helloText.toList).map fun c => UInt8.ofNat c.toNat

/-- The event comes twice, in one chunk. -/
def helloTwice : List (List UInt8) := [helloLine ++ [newline] ++ helloLine ++ [newline]]

theorem helloLine_isEvent : newline ∉ helloLine ∧ sseData helloLine = some helloText.toList :=
  sseData_ofList (by decide) (by decide)

theorem verdict_helloLine (convert : OpenAISSEChunk → StreamItem) :
    verdict helloParse convert helloLine =
      itemVerdict (convert { choices := [{ content := some "hi" }] }) := by
  have hdone : helloText.toList ≠ "[DONE]".toList := by
    have htext : helloText.toList = '\x7b' :: _ := String.toList_ofList
    rw [htext]
    simp
  have hparse : helloParse (String.ofList helloText.toList) =
      some { choices := [{ content := some "hi" }] } := by
    rw [String.ofList_toList]
    exact if_pos rfl
  rw [verdict, helloLine_isEvent.2]
  simp only [if_neg hdone, hparse]

/-- The second one is not returned. -/
theorem helloTwice_not_streams : ¬ ∀ chunks, Streams helloParse chunks := by
  intro hclaim
  have hout := (streams_iff_outputs helloTwice).mp (hclaim helloTwice)
  have hlength := length_outputs_append_le (verdict helloParse convertSseChunk) newline [] helloTwice []
  rw [List.nil_append, hout] at hlength
  have hline := helloLine_isEvent.1
  have hbody : helloTwice.flatten = helloLine ++ newline :: (helloLine ++ [newline]) := by
    simp [helloTwice]
  have hlines : lines newline helloTwice.flatten = [helloLine, helloLine] := by
    rw [hbody, (lines_append_cons hline _).1, (lines_append_cons hline []).1]
    rfl
  have hrest : rest newline helloTwice.flatten = [] := by
    rw [hbody, (lines_append_cons hline _).2, (lines_append_cons hline []).2]
    rfl
  have hhello : verdict helloParse expectedChunk helloLine = .emit (.ok { content := "hi" }) := by
    rw [verdict_helloLine]
    rfl
  have hnil : verdict helloParse expectedChunk [] = .skip := rfl
  have htwo : expectedItems helloParse helloTwice.flatten =
      [.ok { content := "hi" }, .ok { content := "hi" }] := by
    rw [expectedItems, hlines, hrest, List.cons_append, emitted_cons_of_emit hhello, List.cons_append,
      emitted_cons_of_emit hhello, List.nil_append, emitted_cons_of_skip hnil]
    rfl
  rw [htwo] at hlength
  simp [helloTwice, outputs] at hlength

end ChatOpenAI

end Juncture
