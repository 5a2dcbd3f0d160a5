import Juncture.Core.Transcript
import Juncture.Graph.StreamEvents
import Juncture.Lib.Cells
import Juncture.Llm.StreamLines

/-!
# `call_llm_streaming`

The response of a model is put together from the chunks of its stream, which are handed on as events.  The
arguments of a tool call come as pieces of text, and each piece says which call it is of; in the end the
text is parsed.  A text that is no JSON is kept as a string, where the documentation promises an error.

* `EventEmitter.callLlmStreaming` : the function.
* `EventEmitter.result_ok` : what it returns depends on the text and on the pieces of each call, not on how
  they come.
* `EventEmitter.returns_iff` : it returns what is promised if and only if the arguments of all calls are
  JSON, and the usage does not overflow where this is checked.
-/

namespace Juncture

/-- `serde_json::from_str` and `to_string`. -/
structure JsonText where
  /-- The value of a text, if it is one. -/
  parse : String → Option Json
  /-- The text of a value. -/
  render : Json → String
  /-- An empty text is no value. -/
  parse_empty : parse "" = none

/-- `EventEmitter<S>`, without its channel. -/
structure EventEmitter (S : Type) [State S] where
  /-- Mode. -/
  mode : StreamMode
  /-- Namespace. -/
  ns : List String := []

/-- The sum of two `u64`, which panics on an overflow if it is checked, and wraps otherwise. -/
def addU64 (checked : Bool) (a b : UInt64) : Option UInt64 :=
  if checked && decide (2 ^ 64 ≤ a.toNat + b.toNat) then none else some (a + b)

/-- The sum of two usages. -/
def addUsage (checked : Bool) (total usage : TokenUsage) : Option TokenUsage := do
  let inputTokens ← addU64 checked total.inputTokens usage.inputTokens
  let outputTokens ← addU64 checked total.outputTokens usage.outputTokens
  let totalTokens ← addU64 checked total.totalTokens usage.totalTokens
  return { inputTokens, outputTokens, totalTokens }

/-- What has been put together so far. -/
structure Draft where
  /-- `full_content`. -/
  content : String := ""
  /-- `tool_calls`; the arguments are text. -/
  toolCalls : List ToolCall := []
  /-- `total_usage`. -/
  usage : TokenUsage := { inputTokens := 0, outputTokens := 0, totalTokens := 0 }

/-- A tool call of which nothing has come. -/
def ToolCall.blank : ToolCall := ⟨"", "", .null⟩

/-- A piece of the arguments. -/
def pushArgs (arguments : Json) (delta : String) : Json :=
  if delta = "" then arguments
  else match arguments with
    | .str s => .str (s ++ delta)
    | .null => .str delta
    | _ => .str ("" ++ delta)

/-- A piece of a tool call. -/
def ToolCall.push (call : ToolCall) (tc : ToolCallChunk) : ToolCall where
  id := tc.id.getD call.id
  name := tc.name.getD call.name
  arguments := pushArgs call.arguments tc.argsDelta

namespace Draft

/-- One chunk; blank calls are added up to the ones it is about. -/
def absorb (checked : Bool) (draft : Draft) (chunk : MessageChunk) : Option Draft :=
  let content := draft.content ++ chunk.content
  let toolCalls := chunk.toolCallChunks.foldl
    (Cells.write ToolCall.blank ToolCall.push ToolCallChunk.index) draft.toolCalls
  match chunk.usageDelta with
  | none => some { draft with content, toolCalls }
  | some usage => (addUsage checked draft.usage usage).map fun usage => { content, toolCalls, usage }

/-- The text of the arguments of a call becomes a value, or a string with the text of the text. -/
def parseArguments (text : JsonText) (call : ToolCall) : ToolCall :=
  match call.arguments with
  | .str s => { call with arguments := (text.parse s).getD (.str (text.render (.str s))) }
  | _ => call

/-- The message, in the end. -/
def finish (text : JsonText) (checked : Bool) (newId : String) (draft : Draft) : Option Message :=
  (addU64 checked draft.usage.inputTokens draft.usage.outputTokens).map fun totalTokens =>
    { id := newId, role := .ai, content := .text draft.content
      toolCalls := draft.toolCalls.map (parseArguments text)
      usage := some { draft.usage with totalTokens } }

end Draft

namespace EventEmitter

variable {S : Type} [State S] (emitter : EventEmitter S) (text : JsonText) (checked : Bool)

/-- The loop over the stream: what is handed on, and what has been put together or the error of the first
chunk that is one, unless it panics. -/
def readStream (metadata : MessageStreamMetadata) : Draft → List StreamItem →
    List MessageChunk × Option (Except LlmError Draft)
  | draft, [] => ([], some (.ok draft))
  | _, .error e :: _ => ([], some (.error e))
  | draft, .ok chunk :: items =>
    match draft.absorb checked chunk with
    | none => ([], none)
    | some draft =>
      let (sent, result) := readStream metadata draft items
      (if emitter.mode.shouldEmit (.messages metadata : StreamEvent S) then chunk :: sent else sent, result)

/-- `call_llm_streaming`, where the model answers with a stream or an error: what is handed on, and what is
returned, unless it panics. -/
def callLlmStreaming (newId nodeName modelName : String) (options : Option CallOptions)
    (stream : Except LlmError (List StreamItem)) :
    List (MessageChunk × MessageStreamMetadata) × Option (Except LlmError Message) :=
  match stream with
  | .error e => ([], some (.error e))
  | .ok items =>
    let metadata : MessageStreamMetadata :=
      { node := nodeName, model := modelName
        tags := match options with
          | some opts => opts.tags
          | none => []
        ns := emitter.ns }
    let (sent, result) := emitter.readStream checked metadata {} items
    (sent.map fun chunk => (chunk, metadata), match result with
      | none => none
      | some (.error e) => some (.error e)
      | some (.ok draft) => (draft.finish text checked newId).map .ok)

end EventEmitter

/-! ### What a stream stands for -/

/-- The chunks before the first error. -/
def chunksOf : List StreamItem → List MessageChunk
  | .ok chunk :: items => chunk :: chunksOf items
  | _ => []

/-- The first error. -/
def failureOf : List StreamItem → Option LlmError
  | [] => none
  | .error e :: _ => some e
  | .ok _ :: items => failureOf items

/-- The whole text. -/
def contentOf (chunks : List MessageChunk) : String := String.join (chunks.map MessageChunk.content)

/-- All pieces of tool calls. -/
def deltasOf (chunks : List MessageChunk) : List ToolCallChunk :=
  chunks.flatMap MessageChunk.toolCallChunks

/-- How many tool calls there are. -/
def callCount (chunks : List MessageChunk) : ℕ := Cells.count ToolCallChunk.index (deltasOf chunks)

/-- The whole text of the arguments of a tool call. -/
def argsOf (i : ℕ) (chunks : List MessageChunk) : String :=
  String.join ((Cells.ofCell ToolCallChunk.index i (deltasOf chunks)).map ToolCallChunk.argsDelta)

/-- The sum of what is counted in a usage. -/
def tokensOf (field : TokenUsage → UInt64) (chunks : List MessageChunk) : ℕ :=
  ((chunks.filterMap MessageChunk.usageDelta).map fun usage => (field usage).toNat).sum

namespace EventEmitter

variable (text : JsonText)

/-- The arguments of all tool calls are JSON. -/
def Valid (chunks : List MessageChunk) : Prop :=
  ∀ i < callCount chunks, (text.parse (argsOf i chunks)).isSome = true

/-- The message has the whole text, and the arguments of its tool calls are the values of their whole
texts. -/
def Assembled (chunks : List MessageChunk) (message : Message) : Prop :=
  message.content = .text (contentOf chunks) ∧
    message.toolCalls.map (fun call => some call.arguments) =
      (List.range (callCount chunks)).map fun i => text.parse (argsOf i chunks)

/-- What is promised: the error of the model or of a chunk, or else the message that the chunks stand for,
or an error if the arguments of a tool call are no JSON. -/
def Returns (stream : Except LlmError (List StreamItem)) (result : Option (Except LlmError Message)) :
    Prop :=
  match stream with
  | .error e => result = some (.error e)
  | .ok items =>
    match failureOf items with
    | some e => result = some (.error e)
    | none =>
      (Valid text (chunksOf items) →
        ∃ message, result = some (.ok message) ∧ Assembled text (chunksOf items) message) ∧
      (¬ Valid text (chunksOf items) → ∃ e, result = some (.error e))

/-- The usage of the chunks can be summed up in 64 bits. -/
structure Fits (items : List StreamItem) : Prop where
  input : tokensOf TokenUsage.inputTokens (chunksOf items) < 2 ^ 64
  output : tokensOf TokenUsage.outputTokens (chunksOf items) < 2 ^ 64
  total : tokensOf TokenUsage.totalTokens (chunksOf items) < 2 ^ 64
  both : failureOf items = none → tokensOf TokenUsage.inputTokens (chunksOf items) +
    tokensOf TokenUsage.outputTokens (chunksOf items) < 2 ^ 64

/-- What a stream needs for this. -/
structure Clean (checked : Bool) (items : List StreamItem) : Prop where
  /-- The usage does not overflow, if this is checked. -/
  fits : checked = true → Fits items
  /-- The arguments of all tool calls are JSON, unless there is an error before. -/
  valid : failureOf items = none → Valid text (chunksOf items)

end EventEmitter

/-! ### Arguments -/

/-- The arguments of a call of which so much text has come. -/
def pending (s : String) : Json := if s = "" then .null else .str s

theorem pushArgs_pending (s delta : String) : pushArgs (pending s) delta = pending (s ++ delta) := by
  unfold pushArgs
  by_cases hdelta : delta = ""
  · rw [if_pos hdelta, hdelta, String.append_empty]
  · have hne : s ++ delta ≠ "" := fun h => hdelta (String.append_eq_empty_iff.1 h).2
    rw [if_neg hdelta]
    by_cases hs : s = ""
    · simp only [pending, hs, if_true, String.empty_append, hdelta, if_false]
    · simp only [pending, hs, if_false, hne]

/-- The arguments of a call are the text of its pieces. -/
theorem arguments_foldl_push (tcs : List ToolCallChunk) {call : ToolCall} {s : String}
    (h : call.arguments = pending s) : (tcs.foldl ToolCall.push call).arguments =
      pending (s ++ String.join (tcs.map ToolCallChunk.argsDelta)) := by
  induction tcs generalizing call s with
  | nil => rw [List.foldl_nil, List.map_nil, String.join_nil, String.append_empty, h]
  | cons tc tcs ih =>
    have hpush : (call.push tc).arguments = pending (s ++ tc.argsDelta) := by
      rw [← pushArgs_pending, ← h]
      rfl
    rw [List.foldl_cons, ih hpush, List.map_cons, String.join_cons, String.append_assoc]

/-- What the text of some arguments comes to: nothing stays null, and a text that is no JSON is quoted. -/
def argumentsFrom (text : JsonText) (s : String) : Json :=
  if s = "" then .null else (text.parse s).getD (.str (text.render (.str s)))

theorem arguments_parseArguments {text : JsonText} {call : ToolCall} {s : String}
    (h : call.arguments = pending s) :
    (Draft.parseArguments text call).arguments = argumentsFrom text s := by
  by_cases hs : s = "" <;> simp [Draft.parseArguments, h, pending, argumentsFrom, hs]

/-- JSON is what it should be. -/
theorem argumentsFrom_of_isSome {text : JsonText} {s : String} (h : (text.parse s).isSome = true) :
    some (argumentsFrom text s) = text.parse s := by
  obtain ⟨v, hv⟩ := Option.isSome_iff_exists.1 h
  have hs : s ≠ "" := by
    rintro rfl
    rw [text.parse_empty] at hv
    cases hv
  rw [argumentsFrom, if_neg hs, hv, Option.getD_some]

/-- The calls that are put together from some pieces, with the text of the arguments of each. -/
theorem arguments_foldl_write (text : JsonText) (tcs : List ToolCallChunk) :
    ((tcs.foldl (Cells.write ToolCall.blank ToolCall.push ToolCallChunk.index) []).map
      (Draft.parseArguments text)).map ToolCall.arguments =
      (List.range (Cells.count ToolCallChunk.index tcs)).map fun i => argumentsFrom text
        (String.join ((Cells.ofCell ToolCallChunk.index i tcs).map ToolCallChunk.argsDelta)) := by
  refine List.ext_getElem? fun i => ?_
  rw [List.getElem?_map, List.getElem?_map, Cells.getElem?_foldl_write, List.getElem?_map]
  by_cases hi : i < Cells.count ToolCallChunk.index tcs
  · have hblank : ToolCall.blank.arguments = pending "" := rfl
    rw [if_pos hi, List.getElem?_range hi]
    simp only [Option.map_some, arguments_parseArguments (arguments_foldl_push _ hblank),
      String.empty_append]
  · rw [if_neg hi, List.getElem?_eq_none (by simpa using hi)]
    rfl

/-! ### Usage -/

/-- What is counted in a usage. -/
def tokenFields : List (TokenUsage → UInt64) :=
  [TokenUsage.inputTokens, TokenUsage.outputTokens, TokenUsage.totalTokens]

theorem forall_tokenFields {p : (TokenUsage → UInt64) → Prop} : (∀ field ∈ tokenFields, p field) ↔
    p TokenUsage.inputTokens ∧ p TokenUsage.outputTokens ∧ p TokenUsage.totalTokens := by
  simp [tokenFields]

/-- What a chunk adds to it. -/
def MessageChunk.tokens (chunk : MessageChunk) (field : TokenUsage → UInt64) : UInt64 :=
  match chunk.usageDelta with
  | some usage => field usage
  | none => 0

theorem tokensOf_cons (field : TokenUsage → UInt64) (chunk : MessageChunk) (chunks : List MessageChunk) :
    tokensOf field (chunk :: chunks) = (chunk.tokens field).toNat + tokensOf field chunks := by
  unfold tokensOf MessageChunk.tokens
  cases h : chunk.usageDelta <;> simp [h]

variable {checked : Bool}

theorem isSome_addU64_iff (a b : UInt64) :
    (∃ c, addU64 checked a b = some c) ↔ (checked = true → a.toNat + b.toNat < 2 ^ 64) := by
  unfold addU64
  cases checked <;> simp

theorem toNat_of_addU64 {a b c : UInt64} (h : addU64 true a b = some c) :
    c.toNat = a.toNat + b.toNat := by
  have hlt := (isSome_addU64_iff a b).1 ⟨c, h⟩ rfl
  have hsum : a + b = c := (by simpa [addU64] using h : a.toNat + b.toNat < 2 ^ 64 ∧ a + b = c).2
  rw [← hsum, UInt64.toNat_add, Nat.mod_eq_of_lt hlt]

theorem addUsage_eq_some_iff {total usage sum : TokenUsage} :
    addUsage checked total usage = some sum ↔
      ∀ field ∈ tokenFields, addU64 checked (field total) (field usage) = some (field sum) := by
  obtain ⟨input, output, all⟩ := sum
  simp [addUsage, tokenFields, Option.bind_eq_some_iff]

theorem addU64_zero (a : UInt64) : addU64 checked a 0 = some a := by
  have hlt : ¬ 2 ^ 64 ≤ a.toNat + (0 : UInt64).toNat := by
    have := a.toNat_lt
    simp only [UInt64.toNat_zero]
    omega
  simp only [addU64, hlt, decide_false, Bool.and_false, Bool.false_eq_true, if_false, UInt64.add_zero]

theorem fields_eq_iff {usage usage' : TokenUsage} :
    (∀ field ∈ tokenFields, field usage = field usage') ↔ usage = usage' := by
  obtain ⟨input, output, all⟩ := usage
  obtain ⟨input', output', all'⟩ := usage'
  simp [forall_tokenFields]

/-! ### The chunks -/

namespace Draft

theorem absorb_eq_some_iff {draft draft' : Draft} {chunk : MessageChunk} :
    draft.absorb checked chunk = some draft' ↔
      draft'.content = draft.content ++ chunk.content ∧
      draft'.toolCalls = chunk.toolCallChunks.foldl
        (Cells.write ToolCall.blank ToolCall.push ToolCallChunk.index) draft.toolCalls ∧
      ∀ field ∈ tokenFields,
        addU64 checked (field draft.usage) (chunk.tokens field) = some (field draft'.usage) := by
  obtain ⟨content, toolCalls, usage⟩ := draft'
  unfold absorb MessageChunk.tokens
  cases chunk.usageDelta with
  | none =>
    simp only [addU64_zero, Option.some.injEq, Draft.mk.injEq, fields_eq_iff]
    exact and_congr eq_comm (and_congr eq_comm Iff.rfl)
  | some delta =>
    simp only [Option.map_eq_some_iff, addUsage_eq_some_iff, Draft.mk.injEq]
    constructor
    · rintro ⟨sum, hsum, hcontent, hcalls, rfl⟩
      exact ⟨hcontent.symm, hcalls.symm, hsum⟩
    · rintro ⟨hcontent, hcalls, hsum⟩
      exact ⟨usage, hsum, hcontent.symm, hcalls.symm, rfl⟩

/-- All chunks, one after the other. -/
def absorbAll (checked : Bool) (draft : Draft) (chunks : List MessageChunk) : Option Draft :=
  chunks.foldlM (absorb checked) draft

/-- What is put together from all chunks: the whole text, all pieces of tool calls in turn, and the sum of
the usage. -/
theorem absorbAll_spec {draft draft' : Draft} {chunks : List MessageChunk}
    (h : draft.absorbAll checked chunks = some draft') :
    draft'.content = draft.content ++ contentOf chunks ∧
    draft'.toolCalls = (deltasOf chunks).foldl
      (Cells.write ToolCall.blank ToolCall.push ToolCallChunk.index) draft.toolCalls ∧
    (checked = true → ∀ field ∈ tokenFields,
      (field draft'.usage).toNat = (field draft.usage).toNat + tokensOf field chunks) := by
  induction chunks generalizing draft with
  | nil =>
    obtain rfl := Option.some.inj h
    exact ⟨String.append_empty.symm, rfl, fun _ _ _ => rfl⟩
  | cons chunk chunks ih =>
    rw [absorbAll, List.foldlM_cons] at h
    obtain ⟨next, hnext, hrest⟩ := Option.bind_eq_some_iff.1 h
    obtain ⟨hcontent, hcalls, husage⟩ := absorb_eq_some_iff.1 hnext
    obtain ⟨hcontent', hcalls', husage'⟩ := ih hrest
    refine ⟨?_, ?_, fun hchecked field hfield => ?_⟩
    · rw [hcontent', hcontent, contentOf, contentOf, List.map_cons, String.join_cons, String.append_assoc]
    · rw [hcalls', hcalls, deltasOf, deltasOf, List.flatMap_cons, List.foldl_append]
    · subst hchecked
      rw [husage' rfl field hfield, toNat_of_addU64 (husage field hfield), tokensOf_cons, Nat.add_assoc]

/-- Nothing panics as long as the sums fit. -/
theorem exists_absorbAll {draft : Draft} {chunks : List MessageChunk}
    (h : checked = true → ∀ field ∈ tokenFields,
      (field draft.usage).toNat + tokensOf field chunks < 2 ^ 64) :
    ∃ draft', draft.absorbAll checked chunks = some draft' := by
  induction chunks generalizing draft with
  | nil => exact ⟨draft, rfl⟩
  | cons chunk chunks ih =>
    have hfirst : ∀ field ∈ tokenFields,
        ∃ sum, addU64 checked (field draft.usage) (chunk.tokens field) = some sum := by
      intro field hfield
      refine (isSome_addU64_iff _ _).2 fun hchecked => ?_
      have hsum := h hchecked field hfield
      rw [tokensOf_cons] at hsum
      omega
    obtain ⟨⟨input, hinput⟩, ⟨output, houtput⟩, all, hall⟩ := forall_tokenFields.1 hfirst
    have husage : ∀ field ∈ tokenFields, addU64 checked (field draft.usage) (chunk.tokens field) =
        some (field ⟨input, output, all⟩) := forall_tokenFields.2 ⟨hinput, houtput, hall⟩
    let next : Draft :=
      { content := draft.content ++ chunk.content
        toolCalls := chunk.toolCallChunks.foldl
          (Cells.write ToolCall.blank ToolCall.push ToolCallChunk.index) draft.toolCalls
        usage := ⟨input, output, all⟩ }
    have hnext : draft.absorb checked chunk = some next := absorb_eq_some_iff.2 ⟨rfl, rfl, husage⟩
    have hsums : checked = true → ∀ field ∈ tokenFields,
        (field next.usage).toNat + tokensOf field chunks < 2 ^ 64 := by
      intro hchecked field hfield
      have hsum := h hchecked field hfield
      have hnew := husage field hfield
      rw [hchecked] at hnew
      rw [tokensOf_cons, ← Nat.add_assoc, ← toNat_of_addU64 hnew] at hsum
      exact hsum
    obtain ⟨draft', hrest⟩ := ih hsums
    exact ⟨draft', by rw [absorbAll, List.foldlM_cons, hnext]; exact hrest⟩

end Draft

/-! ### The stream -/

namespace EventEmitter

variable {S : Type} [State S] {emitter : EventEmitter S} {text : JsonText} {items : List StreamItem}
  {newId nodeName modelName : String} {options : Option CallOptions}

/-- The loop puts together the chunks before the first error. -/
theorem readStream_snd (metadata : MessageStreamMetadata) (draft : Draft) :
    (emitter.readStream checked metadata draft items).2 =
      (draft.absorbAll checked (chunksOf items)).map fun draft' =>
        match failureOf items with
        | some e => .error e
        | none => .ok draft' := by
  induction items generalizing draft with
  | nil => rfl
  | cons item items ih =>
    cases item with
    | error e => rfl
    | ok chunk =>
      rw [readStream, chunksOf, failureOf, Draft.absorbAll, List.foldlM_cons]
      cases draft.absorb checked chunk with
      | none => rfl
      | some next => exact ih next

/-- If nothing panics, all of these chunks are handed on, or none of them, depending on the mode. -/
theorem readStream_fst (metadata : MessageStreamMetadata) {draft draft' : Draft}
    (h : draft.absorbAll checked (chunksOf items) = some draft') :
    (emitter.readStream checked metadata draft items).1 =
      if emitter.mode.shouldEmit (.messages metadata : StreamEvent S) then chunksOf items else [] := by
  induction items generalizing draft with
  | nil => exact (ite_self []).symm
  | cons item items ih =>
    cases item with
    | error e => exact (ite_self []).symm
    | ok chunk =>
      rw [chunksOf, Draft.absorbAll, List.foldlM_cons] at h
      obtain ⟨next, hnext, hrest⟩ := Option.bind_eq_some_iff.1 h
      simp only [readStream, hnext, ih hrest, chunksOf]
      cases emitter.mode.shouldEmit (.messages metadata : StreamEvent S) <;> rfl

theorem callLlmStreaming_ok :
    (emitter.callLlmStreaming text checked newId nodeName modelName options (.ok items)).2 =
      (({} : Draft).absorbAll checked (chunksOf items)).bind fun draft =>
        match failureOf items with
        | some e => some (.error e)
        | none => (draft.finish text checked newId).map .ok := by
  simp only [callLlmStreaming, readStream_snd]
  cases ({} : Draft).absorbAll checked (chunksOf items) with
  | none => rfl
  | some draft => cases failureOf items <;> rfl

/-- What is returned, if nothing panics: the whole text, and for each tool call what the whole text of its
arguments comes to. -/
theorem result_ok {message : Message}
    (h : (emitter.callLlmStreaming text checked newId nodeName modelName options (.ok items)).2 =
      some (.ok message)) :
    message.content = .text (contentOf (chunksOf items)) ∧
      message.toolCalls.map ToolCall.arguments =
        (List.range (callCount (chunksOf items))).map fun i =>
          argumentsFrom text (argsOf i (chunksOf items)) := by
  rw [callLlmStreaming_ok] at h
  obtain ⟨draft, hdraft, h⟩ := Option.bind_eq_some_iff.1 h
  obtain ⟨hcontent, hcalls, -⟩ := Draft.absorbAll_spec hdraft
  cases hfailure : failureOf items with
  | some e => simp [hfailure] at h
  | none =>
    simp only [hfailure, Draft.finish, Option.map_map, Option.map_eq_some_iff] at h
    obtain ⟨totalTokens, -, hmessage⟩ := h
    obtain rfl := Except.ok.inj hmessage
    constructor
    · show Content.text draft.content = _
      rw [hcontent, String.empty_append]
    · show (draft.toolCalls.map (Draft.parseArguments text)).map ToolCall.arguments = _
      rw [hcalls]
      exact arguments_foldl_write text _

/-- The text that is handed on, if it is, is the text that is returned. -/
theorem content_handedOn {message : Message}
    (h : (emitter.callLlmStreaming text checked newId nodeName modelName options (.ok items)).2 =
      some (.ok message)) :
    (emitter.callLlmStreaming text checked newId nodeName modelName options (.ok items)).1 = [] ∨
      message.content = .text (contentOf
        ((emitter.callLlmStreaming text checked newId nodeName modelName options (.ok items)).1.map
          Prod.fst)) := by
  have hcontent := (result_ok h).1
  rw [callLlmStreaming_ok] at h
  obtain ⟨draft, hdraft, -⟩ := Option.bind_eq_some_iff.1 h
  simp only [callLlmStreaming, readStream_fst _ hdraft]
  generalize (MessageStreamMetadata.mk _ _ _ _) = metadata
  cases emitter.mode.shouldEmit (.messages metadata : StreamEvent S) with
  | false => exact .inl rfl
  | true =>
    refine .inr ?_
    rw [if_pos rfl, List.map_map, hcontent]
    exact congrArg (fun chunks => Content.text (contentOf chunks)) (List.map_id _).symm

/-- However the text and the pieces of each tool call are cut, and however the calls take turns, the same
is returned. -/
theorem result_congr {items' : List StreamItem} {message message' : Message}
    (h : (emitter.callLlmStreaming text checked newId nodeName modelName options (.ok items)).2 =
      some (.ok message))
    (h' : (emitter.callLlmStreaming text checked newId nodeName modelName options (.ok items')).2 =
      some (.ok message'))
    (hcontent : contentOf (chunksOf items) = contentOf (chunksOf items'))
    (hcount : callCount (chunksOf items) = callCount (chunksOf items'))
    (hargs : ∀ i, argsOf i (chunksOf items) = argsOf i (chunksOf items')) :
    message.content = message'.content ∧
      message.toolCalls.map ToolCall.arguments = message'.toolCalls.map ToolCall.arguments := by
  obtain ⟨htext, hcalls⟩ := result_ok h
  obtain ⟨htext', hcalls'⟩ := result_ok h'
  refine ⟨by rw [htext, htext', hcontent], ?_⟩
  rw [hcalls, hcalls', hcount]
  exact List.map_congr_left fun i _ => by rw [hargs i]

theorem assembled_of_valid {message : Message} (hvalid : Valid text (chunksOf items))
    (h : (emitter.callLlmStreaming text checked newId nodeName modelName options (.ok items)).2 =
      some (.ok message)) : Assembled text (chunksOf items) message := by
  obtain ⟨hcontent, hcalls⟩ := result_ok h
  refine ⟨hcontent, ?_⟩
  have hsome : (message.toolCalls.map ToolCall.arguments).map some =
      (List.range (callCount (chunksOf items))).map fun i => text.parse (argsOf i (chunksOf items)) := by
    rw [hcalls, List.map_map]
    exact List.map_congr_left fun i hi => argumentsFrom_of_isSome (hvalid i (List.mem_range.1 hi))
  rw [← hsome, List.map_map]
  rfl

/-! ### What is promised -/

theorem Fits.field_lt (h : Fits items) :
    ∀ field ∈ tokenFields, tokensOf field (chunksOf items) < 2 ^ 64 :=
  forall_tokenFields.2 ⟨h.input, h.output, h.total⟩

/-- Nothing has been counted at first. -/
theorem toNat_empty : ∀ field ∈ tokenFields, (field ({} : Draft).usage).toNat = 0 :=
  forall_tokenFields.2 ⟨rfl, rfl, rfl⟩

/-- So the sums are those of the chunks. -/
theorem toNat_usage {draft : Draft} {chunks : List MessageChunk}
    (h : ({} : Draft).absorbAll true chunks = some draft) :
    ∀ field ∈ tokenFields, (field draft.usage).toNat = tokensOf field chunks := by
  intro field hfield
  rw [(Draft.absorbAll_spec h).2.2 rfl field hfield, toNat_empty field hfield, Nat.zero_add]

variable (text newId) in
/-- Chunks and a message that have been put together without a panic fit. -/
theorem fits_of_absorbAll {draft : Draft}
    (hdraft : ({} : Draft).absorbAll true (chunksOf items) = some draft)
    (hfinish : failureOf items = none → ∃ message, draft.finish text true newId = some message) :
    Fits items := by
  obtain ⟨hinput, houtput, htotal⟩ := forall_tokenFields.1 (toNat_usage hdraft)
  refine ⟨?_, ?_, ?_, fun hnone => ?_⟩
  · rw [← hinput]
    exact UInt64.toNat_lt _
  · rw [← houtput]
    exact UInt64.toNat_lt _
  · rw [← htotal]
    exact UInt64.toNat_lt _
  · obtain ⟨message, hmessage⟩ := hfinish hnone
    obtain ⟨totalTokens, hsum, -⟩ := Option.map_eq_some_iff.1 hmessage
    rw [← hinput, ← houtput]
    exact (isSome_addU64_iff _ _).1 ⟨totalTokens, hsum⟩ rfl

variable (text newId) in
/-- If the usage fits, nothing panics. -/
theorem exists_draft (h : checked = true → Fits items) :
    ∃ draft, ({} : Draft).absorbAll checked (chunksOf items) = some draft ∧
      (failureOf items = none → ∃ message, draft.finish text checked newId = some message) := by
  have hsums : checked = true → ∀ field ∈ tokenFields,
      (field ({} : Draft).usage).toNat + tokensOf field (chunksOf items) < 2 ^ 64 := by
    intro hchecked field hfield
    rw [toNat_empty field hfield, Nat.zero_add]
    exact (h hchecked).field_lt field hfield
  obtain ⟨draft, hdraft⟩ := Draft.exists_absorbAll hsums
  refine ⟨draft, hdraft, fun hnone => ?_⟩
  have hsum : ∃ total, addU64 checked draft.usage.inputTokens draft.usage.outputTokens = some total := by
    refine (isSome_addU64_iff _ _).2 fun hchecked => ?_
    rw [hchecked] at hdraft
    obtain ⟨hinput, houtput, -⟩ := forall_tokenFields.1 (toNat_usage hdraft)
    rw [hinput, houtput]
    exact (h hchecked).both hnone
  obtain ⟨total, htotal⟩ := hsum
  exact ⟨_, by rw [Draft.finish, htotal, Option.map_some]⟩

theorem returns_of_failure {e : LlmError} (h : failureOf items = some e)
    (result : Option (Except LlmError Message)) :
    Returns text (.ok items) result ↔ result = some (.error e) := by
  simp only [Returns, h]

theorem returns_of_no_failure (h : failureOf items = none)
    (result : Option (Except LlmError Message)) : Returns text (.ok items) result ↔
      (Valid text (chunksOf items) →
        ∃ message, result = some (.ok message) ∧ Assembled text (chunksOf items) message) ∧
      (¬ Valid text (chunksOf items) → ∃ e, result = some (.error e)) := by
  simp only [Returns, h]

/-- What is promised excludes a panic. -/
theorem Returns.exists_eq {result : Option (Except LlmError Message)}
    (h : Returns text (.ok items) result) : ∃ r, result = some r := by
  cases hfailure : failureOf items with
  | some e => exact ⟨_, (returns_of_failure hfailure result).1 h⟩
  | none =>
    obtain ⟨hok, herror⟩ := (returns_of_no_failure hfailure result).1 h
    by_cases hvalid : Valid text (chunksOf items)
    · obtain ⟨message, hresult, -⟩ := hok hvalid
      exact ⟨_, hresult⟩
    · obtain ⟨e, hresult⟩ := herror hvalid
      exact ⟨_, hresult⟩

theorem Clean.of_returns
    (h : Returns text (.ok items)
      (emitter.callLlmStreaming text checked newId nodeName modelName options (.ok items)).2) :
    Clean text checked items := by
  obtain ⟨r, hr⟩ := h.exists_eq
  have hresult := hr
  rw [callLlmStreaming_ok] at hr
  obtain ⟨draft, hdraft, hr⟩ := Option.bind_eq_some_iff.1 hr
  constructor
  · rintro rfl
    refine fits_of_absorbAll text newId hdraft fun hnone => ?_
    rw [hnone] at hr
    obtain ⟨message, hmessage, -⟩ := Option.map_eq_some_iff.1 hr
    exact ⟨message, hmessage⟩
  · intro hnone
    by_contra hvalid
    -- the function knows no other errors
    obtain ⟨e, he⟩ := ((returns_of_no_failure hnone _).1 h).2 hvalid
    rw [hnone] at hr
    obtain ⟨message, -, rfl⟩ := Option.map_eq_some_iff.1 hr
    rw [hresult] at he
    cases he

theorem Clean.returns (h : Clean text checked items) :
    Returns text (.ok items)
      (emitter.callLlmStreaming text checked newId nodeName modelName options (.ok items)).2 := by
  obtain ⟨draft, hdraft, hfinish⟩ := exists_draft text newId h.fits
  cases hfailure : failureOf items with
  | some e =>
    rw [returns_of_failure hfailure, callLlmStreaming_ok, hdraft, hfailure]
    rfl
  | none =>
    obtain ⟨message, hmessage⟩ := hfinish hfailure
    have hresult :
        (emitter.callLlmStreaming text checked newId nodeName modelName options (.ok items)).2 =
          some (.ok message) := by
      rw [callLlmStreaming_ok, hdraft, hfailure, Option.bind_some, hmessage]
      rfl
    refine (returns_of_no_failure hfailure _).2 ⟨fun hvalid => ?_, fun hinvalid => ?_⟩
    · exact ⟨message, hresult, assembled_of_valid hvalid hresult⟩
    · exact absurd (h.valid hfailure) hinvalid

/-- **Streamed calls.**  What is promised is returned if and only if the arguments of all tool calls are
JSON, unless there is an error before, and the usage does not overflow where this is checked. -/
theorem returns_iff (emitter : EventEmitter S) (text : JsonText) (checked : Bool)
    (newId nodeName modelName : String) (options : Option CallOptions)
    (stream : Except LlmError (List StreamItem)) :
    Returns text stream
        (emitter.callLlmStreaming text checked newId nodeName modelName options stream).2 ↔
      ∀ items, stream = .ok items → Clean text checked items := by
  cases stream with
  | error e =>
    refine iff_of_true rfl fun items h => ?_
    cases h
  | ok items =>
    constructor
    · rintro h _ ⟨⟩
      exact .of_returns h
    · intro h
      exact (h items rfl).returns

/-! ### Arguments that are cut off -/

/-- One text that is JSON, and some others that are not; strings without anything to escape. -/
def bracesText : JsonText where
  parse s := if s = "\x7b\x7d" then some (.obj []) else none
  render v :=
    match v with
    | .str s => "\"" ++ s ++ "\""
    | _ => "\x7b\x7d"
  parse_empty := rfl

/-- The stream of a call whose arguments are cut off after the first character. -/
def cutOff : List StreamItem :=
  [.ok { toolCallChunks := [⟨some "call_1", some "search", "\x7b", 0⟩] }]

/-- A message is returned, with the text of that character for arguments. -/
theorem cutOff_not_returns : ¬ Returns bracesText (.ok cutOff)
    (({ mode := .messages } : EventEmitter Transcript).callLlmStreaming bracesText true "1" "agent"
      "gpt-4" none (.ok cutOff)).2 := by
  intro h
  have hinvalid : ¬ Valid bracesText (chunksOf cutOff) := by
    intro hvalid
    exact absurd (hvalid 0 (by decide)) (by decide)
  obtain ⟨e, he⟩ := h.2 hinvalid
  cases he

end EventEmitter

end Juncture
