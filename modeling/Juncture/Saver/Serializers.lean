import Juncture.Saver.Types

/-!
# Serialized columns

`SqliteSaver` keeps a checkpoint in columns of bytes, written as MessagePack or JSON.  What a column
holds is not recorded; the reader tells the format from the first byte.

* `Codec` : a type as the two libraries write and read it.
* `Codec.deserializeAuto_serialize` : what is written is read back, if it is a map, a sequence or a record.
* `Formats.deserializeAuto_values` : a state need not be one of these, and a small number is not read back.
-/

namespace Juncture

namespace Saver

/-! ### The format of some bytes -/

/-- `SerializationFormat`. -/
inductive SerializationFormat where
  | messagePack
  | json
deriving DecidableEq

/-- `SerializerKind`; MessagePack is the default. -/
abbrev SerializerKind := SerializationFormat

/-- `is_ascii_whitespace`. -/
def isAsciiWhitespace (b : UInt8) : Bool :=
  b == 0x20 || b == 0x09 || b == 0x0a || b == 0x0c || b == 0x0d

/-- `detect_format`. -/
def detectFormat (data : List UInt8) : SerializationFormat :=
  match data with
  | [] => .json
  | firstByte :: _ =>
    if firstByte == 0x7b || firstByte == 0x5b || isAsciiWhitespace firstByte then .json
    else if 0x80 ≤ firstByte then .messagePack
    else .json

/-- The bytes start with one that no JSON text starts with. -/
def Marked (data : List UInt8) : Prop := ∃ b ∈ data.head?, 0x80 ≤ b

theorem not_ascii_of_marker {b : UInt8} (h : 0x80 ≤ b) :
    (b == 0x7b || b == 0x5b || isAsciiWhitespace b) = false := by
  have hb : 0x80 ≤ b.toNat := UInt8.le_iff_toNat_le.mp h
  have hne : ∀ c : UInt8, c.toNat < 0x80 → (b == c) = false := by
    intro c hc
    rw [beq_eq_false_iff_ne]
    rintro rfl
    omega
  simp only [isAsciiWhitespace, hne 0x7b (by decide), hne 0x5b (by decide), hne 0x20 (by decide),
    hne 0x09 (by decide), hne 0x0a (by decide), hne 0x0c (by decide), hne 0x0d (by decide),
    Bool.or_self]

theorem detectFormat_of_marked {data : List UInt8} (h : Marked data) :
    detectFormat data = .messagePack := by
  obtain ⟨b, hb, hmarker⟩ := h
  cases data with
  | nil => cases hb
  | cons c rest =>
    obtain rfl : c = b := Option.some.inj hb
    rw [detectFormat, not_ascii_of_marker hmarker, if_neg Bool.false_ne_true, if_pos hmarker]

theorem detectFormat_of_not_marked {data : List UInt8} (h : ¬ Marked data) :
    detectFormat data = .json := by
  cases data with
  | nil => rfl
  | cons b rest =>
    have hb : ¬ 0x80 ≤ b := fun hmarker => h ⟨b, rfl, hmarker⟩
    rw [detectFormat, if_neg hb, ite_self]

/-- A byte below `0x80` is no marker. -/
theorem not_marked_of_head {data : List UInt8} {n : ℕ} (hn : n < 0x80)
    (hfirst : data.head? = some (UInt8.ofNat n)) : ¬ Marked data := by
  rintro ⟨b, hb, hmarker⟩
  obtain rfl : UInt8.ofNat n = b := Option.some.inj (hfirst.symm.trans hb)
  have hge : 0x80 ≤ (UInt8.ofNat n).toNat := UInt8.le_iff_toNat_le.mp hmarker
  rw [UInt8.toNat_ofNat'] at hge
  omega

/-! ### Values in columns -/

/-- A type as `rmp_serde` and `serde_json` write and read it. -/
structure Codec (T : Type) where
  /-- `rmp_serde::to_vec`. -/
  toMsgpack : T → Except String (List UInt8)
  /-- `rmp_serde::from_slice`. -/
  fromMsgpack : List UInt8 → Except String T
  /-- `serde_json::to_vec`. -/
  toJson : T → Except String (List UInt8)
  /-- `serde_json::from_slice`. -/
  fromJson : List UInt8 → Except String T
  /-- MessagePack is read back. -/
  msgpack_faithful : ∀ v data, toMsgpack v = .ok data → fromMsgpack data = .ok v
  /-- So is JSON. -/
  json_faithful : ∀ v data, toJson v = .ok data → fromJson data = .ok v
  /-- A JSON text starts with an ASCII character. -/
  json_ascii : ∀ v data, toJson v = .ok data → ¬ Marked data

namespace Codec

variable {T : Type}

/-- `SerializerKind::serialize`. -/
def serialize (c : Codec T) : SerializerKind → T → Except String (List UInt8)
  | .messagePack, v => c.toMsgpack v
  | .json, v => c.toJson v

/-- `deserialize_auto`. -/
def deserializeAuto (c : Codec T) (data : List UInt8) : Except String T :=
  match detectFormat data with
  | .messagePack =>
    match c.fromMsgpack data with
    | .ok v => .ok v
    | .error _ => c.fromJson data
  | .json => c.fromJson data

theorem deserializeAuto_toJson {c : Codec T} {v : T} {data : List UInt8}
    (h : c.toJson v = .ok data) : c.deserializeAuto data = .ok v := by
  rw [deserializeAuto, detectFormat_of_not_marked (c.json_ascii v data h)]
  exact c.json_faithful v data h

theorem deserializeAuto_toMsgpack {c : Codec T} {v : T} {data : List UInt8}
    (h : c.toMsgpack v = .ok data) (hmarked : Marked data) : c.deserializeAuto data = .ok v := by
  rw [deserializeAuto, detectFormat_of_marked hmarked]
  simp only [c.msgpack_faithful v data h]

end Codec

/-- A type of maps, sequences or records, whose encodings start with a marker. -/
structure CompoundCodec (T : Type) extends Codec T where
  /-- The first byte of a map or an array. -/
  marked : ∀ v data, toMsgpack v = .ok data → Marked data

theorem CompoundCodec.deserializeAuto_serialize {T : Type} {c : CompoundCodec T}
    {kind : SerializerKind} {v : T} {data : List UInt8} (h : c.serialize kind v = .ok data) :
    c.deserializeAuto data = .ok v := by
  cases kind with
  | messagePack => exact Codec.deserializeAuto_toMsgpack h (c.marked v data h)
  | json => exact Codec.deserializeAuto_toJson h

/-- The byte that MessagePack writes for a small number. -/
def fixint : Json → Option UInt8
  | .num n => if 0 ≤ n ∧ n < 0x80 then some (UInt8.ofNat n.toNat) else none
  | _ => none

theorem not_marked_of_fixint {v : Json} {b : UInt8} (h : fixint v = some b) : ¬ Marked [b] := by
  cases v with
  | num n =>
    simp only [fixint] at h
    split at h
    · next hn =>
      obtain rfl := Option.some.inj h
      exact not_marked_of_head (by omega) List.head?_cons
    · cases h
  | _ => cases h

/-- How the columns of a checkpoint are written. -/
class Formats where
  /-- The state. -/
  values : Codec Json
  /-- Versions of channels. -/
  versions : CompoundCodec (Dict ℕ)
  /-- Versions seen by nodes. -/
  seen : CompoundCodec (Dict (Dict ℕ))
  /-- Pending tasks. -/
  tasks : CompoundCodec (List CheckpointPendingTask)
  /-- Pending sends. -/
  sends : CompoundCodec (List SerializedSend)
  /-- Pending interrupts. -/
  interrupts : CompoundCodec (List InterruptSignal)
  /-- Metadata. -/
  metadata : CompoundCodec CheckpointMetadata
  /-- A state starts with a marker, unless it is a small number. -/
  values_marked : ∀ v data, values.toMsgpack v = .ok data → fixint v = none → Marked data
  /-- A small number is its own byte. -/
  values_fixint : ∀ v data b, values.toMsgpack v = .ok data → fixint v = some b → data = [b]
  /-- One byte is a JSON text only if it is a digit. -/
  values_digit : ∀ b : UInt8, (values.fromJson [b]).toOption =
    if 0x30 ≤ b ∧ b ≤ 0x39 then some (.num (b.toNat - 0x30)) else none
  /-- `serde_json::to_string`. -/
  toText : Json → Except String String
  /-- `serde_json::from_str`. -/
  fromText : String → Except String Json
  /-- A text is read back. -/
  text_faithful : ∀ v text, toText v = .ok text → fromText text = .ok v

namespace Formats

/-- A state as it is read back: a small number is taken for a JSON text. -/
def readAs (kind : SerializerKind) (v : Json) : Option Json :=
  match kind with
  | .json => some v
  | .messagePack =>
    match fixint v with
    | some b => if 0x30 ≤ b ∧ b ≤ 0x39 then some (.num (b.toNat - 0x30)) else none
    | none => some v

variable [Formats]

/-- What is read back of a state. -/
theorem deserializeAuto_values {kind : SerializerKind} {v : Json} {data : List UInt8}
    (h : values.serialize kind v = .ok data) :
    (values.deserializeAuto data).toOption = readAs kind v := by
  cases kind with
  | json => rw [Codec.deserializeAuto_toJson h]; rfl
  | messagePack =>
    cases hfix : fixint v with
    | none =>
      rw [Codec.deserializeAuto_toMsgpack h (values_marked v data h hfix)]
      simp only [readAs, hfix]
      rfl
    | some b =>
      obtain rfl := values_fixint v data b h hfix
      rw [Codec.deserializeAuto, detectFormat_of_not_marked (not_marked_of_fixint hfix)]
      simp only [readAs, hfix]
      exact values_digit b

/-- What is read back of a state, if it can be read. -/
theorem deserializeAuto_values_eq_ok {kind : SerializerKind} {v w : Json} {data : List UInt8}
    (h : values.serialize kind v = .ok data) :
    values.deserializeAuto data = .ok w ↔ readAs kind v = some w := by
  rw [← deserializeAuto_values h]
  cases values.deserializeAuto data <;> simp [Except.toOption]

end Formats

end Saver

end Juncture
