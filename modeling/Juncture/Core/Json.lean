import Mathlib.Algebra.GroupWithZero.Nat
import Mathlib.Algebra.Ring.Int.Defs
import Mathlib.Data.List.AList

/-!
# JSON values and string-keyed maps

The engine passes `serde_json::Value` between nodes, checkpoints and resume values, and keeps
most of its tables in `HashMap<String, _>` or `IndexMap<String, _>`.

* `Json` : a JSON value.  Numbers are integers; nothing in the engine computes with them.
* `Json.byteLen` : the length of the compact encoding (`serde_json::to_vec(..).len()`), which is
  what the state-size limit is compared with.
* `Dict` : a string-keyed map.  The order of its entries is the iteration order of the map: the
  insertion order for an `IndexMap`, an arbitrary order for a `HashMap`.
-/

namespace Juncture

/-- A `serde_json::Value`. -/
inductive Json where
  | null
  | bool (b : Bool)
  | num (n : Int)
  | str (s : String)
  | arr (xs : List Json)
  | obj (kvs : List (String × Json))

namespace Json

mutual

/-- Equality of values is decidable. -/
protected def decEq : (a b : Json) → Decidable (a = b)
  | .null, .null => isTrue rfl
  | .bool a, .bool b => decidable_of_iff (a = b) (by simp)
  | .num a, .num b => decidable_of_iff (a = b) (by simp)
  | .str a, .str b => decidable_of_iff (a = b) (by simp)
  | .arr xs, .arr ys =>
    match Json.decEqList xs ys with
    | isTrue h => isTrue (by rw [h])
    | isFalse h => isFalse (by simpa using h)
  | .obj xs, .obj ys =>
    match Json.decEqPairs xs ys with
    | isTrue h => isTrue (by rw [h])
    | isFalse h => isFalse (by simpa using h)
  | .null, .bool _ | .null, .num _ | .null, .str _ | .null, .arr _ | .null, .obj _
  | .bool _, .null | .bool _, .num _ | .bool _, .str _ | .bool _, .arr _ | .bool _, .obj _
  | .num _, .null | .num _, .bool _ | .num _, .str _ | .num _, .arr _ | .num _, .obj _
  | .str _, .null | .str _, .bool _ | .str _, .num _ | .str _, .arr _ | .str _, .obj _
  | .arr _, .null | .arr _, .bool _ | .arr _, .num _ | .arr _, .str _ | .arr _, .obj _
  | .obj _, .null | .obj _, .bool _ | .obj _, .num _ | .obj _, .str _ | .obj _, .arr _ =>
    isFalse (by simp)

/-- Equality of arrays of values is decidable. -/
protected def decEqList : (xs ys : List Json) → Decidable (xs = ys)
  | [], [] => isTrue rfl
  | [], _ :: _ => isFalse (by simp)
  | _ :: _, [] => isFalse (by simp)
  | x :: xs, y :: ys =>
    match Json.decEq x y, Json.decEqList xs ys with
    | isTrue h, isTrue h' => isTrue (by rw [h, h'])
    | isFalse h, _ => isFalse (by simp [h])
    | _, isFalse h => isFalse (by simp [h])

/-- Equality of object members is decidable. -/
protected def decEqPairs : (xs ys : List (String × Json)) → Decidable (xs = ys)
  | [], [] => isTrue rfl
  | [], _ :: _ => isFalse (by simp)
  | _ :: _, [] => isFalse (by simp)
  | (k, x) :: xs, (l, y) :: ys =>
    match decEq k l, Json.decEq x y, Json.decEqPairs xs ys with
    | isTrue h, isTrue h', isTrue h'' => isTrue (by rw [h, h', h''])
    | isFalse h, _, _ => isFalse (by simp [h])
    | _, isFalse h, _ => isFalse (by simp [h])
    | _, _, isFalse h => isFalse (by simp [h])

end

instance : DecidableEq Json := Json.decEq

instance : Inhabited Json := ⟨.null⟩

/-- `Value::get(key)` on an object: the member `key`; any other value has no members. -/
def get (v : Json) (key : String) : Option Json :=
  match v with
  | .obj kvs => (kvs.find? fun kv => kv.1 == key).map Prod.snd
  | _ => none

/-- `Value::as_str`. -/
def asStr : Json → Option String
  | .str s => some s
  | _ => none

/-! ### Encoded size -/

/-- Bytes of one character inside an encoded string: the two-character escapes, `\uXXXX` for the
other control characters, UTF-8 otherwise. -/
def charByteLen (c : Char) : ℕ :=
  if c = '"' ∨ c = '\\' ∨ c = '\n' ∨ c = '\r' ∨ c = '\t' ∨ c.toNat = 8 ∨ c.toNat = 12 then 2
  else if c.toNat < 32 then 6
  else c.utf8Size

/-- Bytes of an encoded string, quotes included. -/
def strByteLen (s : String) : ℕ :=
  2 + (s.toList.map charByteLen).sum

/-- Bytes of the commas between `n` items. -/
def commas (n : ℕ) : ℕ := n - 1

mutual

/-- Bytes of the compact encoding of a value. -/
def byteLen : Json → ℕ
  | .null => 4
  | .bool true => 4
  | .bool false => 5
  | .num n => (toString n).length
  | .str s => strByteLen s
  | .arr xs => 2 + commas xs.length + byteLenList xs
  | .obj kvs => 2 + commas kvs.length + byteLenPairs kvs

/-- Bytes of the items of an array. -/
def byteLenList : List Json → ℕ
  | [] => 0
  | x :: xs => byteLen x + byteLenList xs

/-- Bytes of the members of an object, colons included. -/
def byteLenPairs : List (String × Json) → ℕ
  | [] => 0
  | (k, x) :: xs => strByteLen k + 1 + byteLen x + byteLenPairs xs

end

end Json

/-! ### String-keyed maps -/

/-- A map with string keys. -/
abbrev Dict (α : Type) := AList fun _ : String => α

namespace Dict

variable {α : Type}

/-- `contains_key`. -/
def containsKey (d : Dict α) (k : String) : Bool := (d.lookup k).isSome

theorem containsKey_iff {d : Dict α} {k : String} : d.containsKey k = true ↔ k ∈ d := by
  simp [containsKey, AList.lookup_isSome]

/-- A map from a list of pairs; a later pair wins, as with `collect()`. -/
def ofList (xs : List (String × α)) : Dict α :=
  xs.foldl (fun d kv => d.insert kv.1 kv.2) ∅

end Dict

end Juncture
