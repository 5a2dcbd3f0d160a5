import Juncture.Lib.LineReader
import Juncture.Llm.Providers

/-!
# Streamed responses

The clients can have the response of a model streamed.  The body of the response comes in chunks of
bytes, cut at any place; each of its lines is looked at by itself.

* `fromUtf8Lossy`, `trim` : how bytes become the text of a line.
* `StreamReply` : what a request for a stream comes to.
-/

namespace Juncture

open LineReader (Verdict)

/-- `ToolCallChunk`. -/
structure ToolCallChunk where
  /-- Identifier of the call. -/
  id : Option String
  /-- Name of the tool. -/
  name : Option String
  /-- A piece of the arguments. -/
  argsDelta : String
  /-- Which call it is. -/
  index : ℕ
deriving DecidableEq

deriving instance DecidableEq for TokenUsage

/-- `MessageChunk`. -/
structure MessageChunk where
  /-- A piece of the content. -/
  content : String := ""
  /-- Pieces of tool calls. -/
  toolCallChunks : List ToolCallChunk := []
  /-- Usage. -/
  usageDelta : Option TokenUsage := none
deriving DecidableEq

/-- There is something in the chunk. -/
def MessageChunk.hasPayload (chunk : MessageChunk) : Bool :=
  chunk.content != "" || !chunk.toolCallChunks.isEmpty || chunk.usageDelta.isSome

/-- What is handed on. -/
abbrev StreamItem := Except LlmError MessageChunk

/-- What becomes of a line that is converted to an item: a chunk with nothing in it is passed over, and an
error is the last item. -/
def itemVerdict : StreamItem → Verdict StreamItem
  | .ok chunk => if chunk.hasPayload then .emit (.ok chunk) else .skip
  | .error e => .last (.error e)

/-! ### Text -/

/-- A byte that continues a character. -/
def isContinuation (b : UInt8) : Bool := 0x80 ≤ b && b < 0xc0

/-- A byte that may come second, after the first byte of a character of three. -/
def isSecondOfThree (b₁ b₂ : UInt8) : Bool :=
  if b₁ = 0xe0 then 0xa0 ≤ b₂ && b₂ < 0xc0
  else if b₁ = 0xed then 0x80 ≤ b₂ && b₂ < 0xa0
  else isContinuation b₂

/-- The same, of a character of four. -/
def isSecondOfFour (b₁ b₂ : UInt8) : Bool :=
  if b₁ = 0xf0 then 0x90 ≤ b₂ && b₂ < 0xc0
  else if b₁ = 0xf4 then 0x80 ≤ b₂ && b₂ < 0x90
  else isContinuation b₂

/-- The character that stands for bytes that are none. -/
def replacement : Char := Char.ofNat 0xfffd

/-- The bits of the bytes after the first. -/
def continuationBits (b : UInt8) : ℕ := b.toNat % 64

/-- `String::from_utf8_lossy`: each longest start of a character that is not continued is replaced. -/
def fromUtf8Lossy : List UInt8 → List Char
  | [] => []
  | b₁ :: bs =>
    if b₁ < 0x80 then Char.ofNat b₁.toNat :: fromUtf8Lossy bs
    else if 0xc2 ≤ b₁ ∧ b₁ < 0xe0 then
      match bs with
      | [] => [replacement]
      | b₂ :: bs' =>
        if isContinuation b₂ then
          Char.ofNat (b₁.toNat % 32 * 64 + continuationBits b₂) :: fromUtf8Lossy bs'
        else replacement :: fromUtf8Lossy (b₂ :: bs')
    else if 0xe0 ≤ b₁ ∧ b₁ < 0xf0 then
      match bs with
      | [] => [replacement]
      | b₂ :: bs' =>
        if isSecondOfThree b₁ b₂ then
          match bs' with
          | [] => [replacement]
          | b₃ :: bs'' =>
            if isContinuation b₃ then
              Char.ofNat (b₁.toNat % 16 * 4096 + continuationBits b₂ * 64 + continuationBits b₃) ::
                fromUtf8Lossy bs''
            else replacement :: fromUtf8Lossy (b₃ :: bs'')
        else replacement :: fromUtf8Lossy (b₂ :: bs')
    else if 0xf0 ≤ b₁ ∧ b₁ < 0xf5 then
      match bs with
      | [] => [replacement]
      | b₂ :: bs' =>
        if isSecondOfFour b₁ b₂ then
          match bs' with
          | [] => [replacement]
          | b₃ :: bs'' =>
            if isContinuation b₃ then
              match bs'' with
              | [] => [replacement]
              | b₄ :: bs''' =>
                if isContinuation b₄ then
                  Char.ofNat (b₁.toNat % 8 * 262144 + continuationBits b₂ * 4096 +
                    continuationBits b₃ * 64 + continuationBits b₄) :: fromUtf8Lossy bs'''
                else replacement :: fromUtf8Lossy (b₄ :: bs''')
            else replacement :: fromUtf8Lossy (b₃ :: bs'')
        else replacement :: fromUtf8Lossy (b₂ :: bs')
    else replacement :: fromUtf8Lossy bs

/-- `char::is_whitespace`: the property `White_Space`. -/
def isWhitespace (c : Char) : Bool :=
  let n := c.toNat
  (9 ≤ n && n ≤ 13) || n == 0x20 || n == 0x85 || n == 0xa0 || n == 0x1680 ||
    (0x2000 ≤ n && n ≤ 0x200a) || n == 0x2028 || n == 0x2029 || n == 0x202f || n == 0x205f || n == 0x3000

/-- `str::trim`. -/
def trim (text : List Char) : List Char :=
  ((text.dropWhile isWhitespace).reverse.dropWhile isWhitespace).reverse

/-- `str::strip_prefix`. -/
def stripPrefix (start : String) (text : List Char) : Option (List Char) :=
  if start.toList <+: text then some (text.drop start.length) else none

/-- The text of a line. -/
def lineText (line : List UInt8) : List Char := trim (fromUtf8Lossy line)

/-- The data of a line of server-sent events: no comment, and no other field. -/
def sseData (line : List UInt8) : Option (List Char) :=
  let text := lineText line
  if text.isEmpty || text.head? == some ':' then none else stripPrefix "data: " text

/-- The bytes of a text that has ASCII characters only. -/
def asciiBytes (text : List Char) : List UInt8 := text.map fun c => UInt8.ofNat c.toNat

theorem fromUtf8Lossy_asciiBytes {text : List Char} (h : text.all fun c => c.toNat < 0x80) :
    fromUtf8Lossy (asciiBytes text) = text := by
  induction text with
  | nil => rfl
  | cons c text ih =>
    obtain ⟨hc, htext⟩ : c.toNat < 0x80 ∧ (text.all fun c => c.toNat < 0x80) = true := by
      simpa using h
    have hbyte : (UInt8.ofNat c.toNat).toNat = c.toNat := by
      rw [UInt8.toNat_ofNat']
      omega
    have hlt : UInt8.ofNat c.toNat < 0x80 := by
      rw [UInt8.lt_iff_toNat_lt, hbyte]
      exact hc
    rw [asciiBytes, List.map_cons, ← asciiBytes, fromUtf8Lossy.eq_def]
    simp only [hlt, ↓reduceIte, hbyte, Char.ofNat_toNat, ih htext]

/-- The data of an event, as its text is. -/
theorem sseData_asciiBytes {data : List Char} (hascii : data.all fun c => c.toNat < 0x80)
    (htrim : trim ("data: ".toList ++ data) = "data: ".toList ++ data) :
    sseData (asciiBytes ("data: ".toList ++ data)) = some data := by
  have htext : lineText (asciiBytes ("data: ".toList ++ data)) = "data: ".toList ++ data := by
    rw [lineText, fromUtf8Lossy_asciiBytes (by simpa using hascii), htrim]
  rw [sseData, htext, stripPrefix, if_pos (List.prefix_append _ _)]
  rfl

/-! ### Replies -/

/-- What a request for a stream comes to, once its headers are there. -/
structure StreamResponse (ε : Type) where
  /-- Status code. -/
  status : ℕ
  /-- The whole text, as it is read of a response that is not a success. -/
  text : Except String String
  /-- The text as a report of an error. -/
  error : Option ε
  /-- The body of a success, chunk by chunk; a chunk may fail. -/
  chunks : List (Except String (List UInt8))

/-- What a request for a stream comes to: the text of a network error, or a response. -/
abbrev StreamReply (ε : Type) := Except String (StreamResponse ε)

namespace StreamResponse

variable {ε : Type}

/-- `StatusCode::is_success`. -/
def isSuccess (r : StreamResponse ε) : Bool := decide (200 ≤ r.status ∧ r.status < 300)

/-- The chunks, of which one that fails is a last item. -/
def items (r : StreamResponse ε) : List (Except StreamItem (List UInt8)) :=
  r.chunks.map fun chunk => chunk.mapError fun e => .error (.networkError e)

/-- A success whose body comes without an error. -/
def ofChunks (chunks : List (List UInt8)) : StreamResponse ε where
  status := 200
  text := .ok ""
  error := none
  chunks := chunks.map .ok

@[simp] theorem items_ofChunks (chunks : List (List UInt8)) :
    (ofChunks chunks : StreamResponse ε).items = chunks.map .ok := by
  simp [items, ofChunks, Except.mapError]

end StreamResponse

/-- The end of a line. -/
def newline : UInt8 := 0x0a

/-- An event whose data is a text of ASCII characters, without an end of a line. -/
theorem sseData_ofList {text : List Char} (hascii : text.all fun c => c.toNat < 0x80 && c.toNat != 0x0a)
    (htrim : trim ("data: ".toList ++ text) = "data: ".toList ++ text) :
    newline ∉ asciiBytes ("data: ".toList ++ (String.ofList text).toList) ∧
      sseData (asciiBytes ("data: ".toList ++ (String.ofList text).toList)) =
        some (String.ofList text).toList := by
  have htext : (String.ofList text).toList = text := String.toList_ofList
  have hall : ∀ s : List Char, (s.all fun c => c.toNat < 0x80 && c.toNat != 0x0a) = true →
      ∀ c ∈ s, c.toNat < 0x80 ∧ c.toNat ≠ 0x0a := fun s hs => by simpa using hs
  rw [htext]
  refine ⟨fun hmem => ?_, sseData_asciiBytes (by simpa using fun c hc => (hall text hascii c hc).1) htrim⟩
  obtain ⟨c, hc, heq⟩ := List.mem_map.mp hmem
  obtain ⟨hlt, hne⟩ := (List.mem_append.mp hc).elim (hall _ (by decide) c) (hall _ hascii c)
  have hnat : (UInt8.ofNat c.toNat).toNat = 0x0a := congrArg UInt8.toNat heq
  rw [UInt8.toNat_ofNat', Nat.mod_eq_of_lt (by omega)] at hnat
  exact hne hnat

end Juncture
