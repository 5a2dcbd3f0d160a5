import Juncture.Core.Json
import Mathlib.Data.Finset.Sort
import Mathlib.Data.String.Basic

/-!
# Channels

A channel holds a value, takes updates of it and can be written to a checkpoint and read back.  How it
merges updates, and what it persists, depends on its type.

* `Serde` : a type whose values can be written as JSON and read back.
* `Reducer` : how updates are merged.
* `NamedBarrierChannel`, `TopicChannel`, `LastValueAfterFinishChannel`, `DeltaChannel`,
  `RingBufferChannel` : the types that persist their value.

A call that panics has no result (`none`).  A set in a checkpoint has its elements in ascending order; a
`HashSet` has them in an order of its own, and means nothing by it.
-/

namespace Juncture

/-! ### Values in checkpoints -/

/-- A type with `Serialize` and `DeserializeOwned`, whose values survive being written and read. -/
class Serde (T : Type) where
  /-- `serde_json::to_value`. -/
  toValue : T → Except String Json
  /-- `serde_json::from_value`. -/
  fromValue : Json → Except String T
  /-- A value is read back as it was. -/
  faithful : ∀ v, ∃ j, toValue v = .ok j ∧ fromValue j = .ok v

namespace Serde

variable {S T : Type}

instance : Serde Bool where
  toValue b := .ok (.bool b)
  fromValue
    | .bool b => .ok b
    | _ => .error "expected a boolean"
  faithful b := ⟨.bool b, rfl, rfl⟩

instance : Serde String where
  toValue s := .ok (.str s)
  fromValue
    | .str s => .ok s
    | _ => .error "expected a string"
  faithful s := ⟨.str s, rfl, rfl⟩

instance : Serde ℤ where
  toValue n := .ok (.num n)
  fromValue
    | .num n => .ok n
    | _ => .error "expected an integer"
  faithful n := ⟨.num n, rfl, rfl⟩

/-- A tuple is an array. -/
instance [Serde S] [Serde T] : Serde (S × T) where
  toValue p := do
    let j ← toValue p.1
    let k ← toValue p.2
    .ok (.arr [j, k])
  fromValue
    | .arr [j, k] => do
      let v ← fromValue j
      let w ← fromValue k
      .ok (v, w)
    | _ => .error "expected a tuple of size 2"
  faithful p := by
    obtain ⟨j, hj, hj'⟩ := faithful p.1
    obtain ⟨k, hk, hk'⟩ := faithful p.2
    exact ⟨.arr [j, k], by simp only [hj, hk]; rfl, by simp only [hj', hk']; rfl⟩

/-- A list is an array. -/
instance [Serde T] : Serde (List T) where
  toValue vs := (vs.mapM toValue).map .arr
  fromValue
    | .arr js => js.mapM fromValue
    | _ => .error "expected a sequence"
  faithful vs := by
    have hlist : ∃ js, vs.mapM toValue = .ok js ∧ js.mapM fromValue = .ok vs := by
      induction vs with
      | nil => exact ⟨[], rfl, rfl⟩
      | cons v vs ih =>
        obtain ⟨j, hj, hj'⟩ := faithful v
        obtain ⟨js, hjs, hjs'⟩ := ih
        refine ⟨j :: js, ?_, ?_⟩
        · rw [List.mapM_cons, hj, hjs]
          rfl
        · rw [List.mapM_cons, hj', hjs']
          rfl
    obtain ⟨js, hjs, hjs'⟩ := hlist
    exact ⟨.arr js, by rw [hjs]; rfl, hjs'⟩

/-- A set is an array. -/
instance : Serde (Finset String) where
  toValue s := toValue (s.sort (· ≤ ·))
  fromValue j := (fromValue j : Except String (List String)).map List.toFinset
  faithful s := by
    obtain ⟨j, hj, hj'⟩ := faithful (s.sort (· ≤ ·))
    exact ⟨j, hj, by rw [hj']; exact congrArg Except.ok (Finset.sort_toFinset s _)⟩

end Serde

open Serde

/-- `checkpoint_to_value`: a value that does not serialize is left out. -/
def checkpointToValue {T : Type} [Serde T] (value : T) : Option Json := (toValue value).toOption

/-- What `from_checkpoint` makes of an error. -/
def restored {T : Type} [Serde T] (value : Json) : Except String T :=
  (fromValue value).mapError fun e => s!"checkpoint deserialization failed: {e}"

/-! ### Reducers -/

/-- `Reducer`. -/
structure Reducer (T : Type) where
  /-- `reduce`. -/
  reduce : T → List T → Option T

/-- `ReplaceReducer`, which panics on several values. -/
def replaceReducer (T : Type) : Reducer T where
  reduce current values := if values.length ≤ 1 then some (values.head?.getD current) else none

/-- `AppendReducer`. -/
def appendReducer (T : Type) : Reducer (List T) where
  reduce current values := some (current ++ values.flatten)

/-- `LastWriteWinsReducer`. -/
def lastWriteWinsReducer (T : Type) : Reducer T where
  reduce current values := some (values.getLast?.getD current)

/-! ### `NamedBarrierChannel` -/

/-- `NamedBarrierChannel`, without its reducer. -/
structure NamedBarrierChannel (T : Type) where
  /-- The value. -/
  value : T
  /-- Sources that must write. -/
  requiredSources : Finset String := ∅
  /-- Sources that have written. -/
  seenSources : Finset String := ∅

namespace NamedBarrierChannel

variable {T : Type}

/-- `new_with_sources`. -/
def newWithSources (value : T) (requiredSources : List String) : NamedBarrierChannel T :=
  { value, requiredSources := requiredSources.toFinset }

/-- `is_available`. -/
def isAvailable (ch : NamedBarrierChannel T) : Bool :=
  decide (ch.requiredSources = ∅) || decide (ch.requiredSources ⊆ ch.seenSources)

/-- `Channel::update`. -/
def update (r : Reducer T) (ch : NamedBarrierChannel T) (values : List T) :
    Option (NamedBarrierChannel T × Bool) :=
  if values.isEmpty then some (ch, false)
  else (r.reduce ch.value values).map fun value =>
    ({ ch with value, seenSources := ch.requiredSources }, true)

/-- `update` from a named source, which must be a required one, if there are any. -/
def updateFrom (r : Reducer T) (ch : NamedBarrierChannel T) (sourceName : String) (values : List T) :
    Option (NamedBarrierChannel T × Bool) :=
  if ch.requiredSources = ∅ ∨ sourceName ∈ ch.requiredSources then
    if values.isEmpty then some (ch, false)
    else (r.reduce ch.value values).map fun value =>
      ({ ch with value, seenSources := insert sourceName ch.seenSources }, true)
  else none

/-- `checkpoint`. -/
def checkpoint [Serde T] (ch : NamedBarrierChannel T) : Option Json :=
  checkpointToValue (ch.value, ch.seenSources)

/-- `from_checkpoint`. -/
def fromCheckpoint [Serde T] (value : Json) : Except String (NamedBarrierChannel T) :=
  (restored value : Except String (T × Finset String)).map fun (parsedValue, seenSources) =>
    { value := parsedValue, requiredSources := ∅, seenSources }

end NamedBarrierChannel

/-! ### `TopicChannel` -/

/-- `TopicChannel`. -/
structure TopicChannel (T : Type) where
  /-- Messages so far. -/
  messages : List T := []

namespace TopicChannel

variable {T : Type}

/-- `update`. -/
def update (ch : TopicChannel T) (values : List (List T)) : TopicChannel T × Bool :=
  if values.isEmpty then (ch, false) else (⟨ch.messages ++ values.flatten⟩, true)

/-- `consume`. -/
def consume (ch : TopicChannel T) : TopicChannel T × Bool := (⟨[]⟩, !ch.messages.isEmpty)

/-- `checkpoint`. -/
def checkpoint [Serde T] (ch : TopicChannel T) : Option Json := checkpointToValue ch.messages

/-- `from_checkpoint`. -/
def fromCheckpoint [Serde T] (value : Json) : Except String (TopicChannel T) :=
  (restored value : Except String (List T)).map fun messages => ⟨messages⟩

end TopicChannel

/-! ### `LastValueAfterFinishChannel` -/

/-- `LastValueAfterFinishChannel`, without its reducer. -/
structure LastValueAfterFinishChannel (T : Type) where
  /-- The value. -/
  value : T
  /-- The value that was written last since it finished. -/
  finishedValue : Option T := none
  /-- The channel has finished. -/
  isFinished : Bool := false
  /-- Only a finished channel has one, which is the value. -/
  coherent : ∀ v ∈ finishedValue, isFinished = true ∧ v = value := by simp

namespace LastValueAfterFinishChannel

variable {T : Type}

/-- `finish`. -/
def finish (ch : LastValueAfterFinishChannel T) : LastValueAfterFinishChannel T :=
  { ch with isFinished := true, coherent := fun v hv => ⟨rfl, (ch.coherent v hv).2⟩ }

/-- `is_available`. -/
def isAvailable (ch : LastValueAfterFinishChannel T) : Bool := ch.isFinished

/-- The channel with a new value. -/
def withValue (ch : LastValueAfterFinishChannel T) (value : T) : LastValueAfterFinishChannel T :=
  if h : ch.isFinished then
    { value, finishedValue := some value, isFinished := ch.isFinished
      coherent := fun _ hv => ⟨h, (Option.some.inj hv).symm⟩ }
  else
    { value, finishedValue := ch.finishedValue, isFinished := ch.isFinished
      coherent := fun v hv => absurd (ch.coherent v hv).1 h }

/-- `update`. -/
def update (r : Reducer T) (ch : LastValueAfterFinishChannel T) (values : List T) :
    Option (LastValueAfterFinishChannel T × Bool) :=
  if values.isEmpty then some (ch, false)
  else (r.reduce ch.value values).map fun value => (ch.withValue value, true)

/-- `get`. -/
def get (ch : LastValueAfterFinishChannel T) : T :=
  if ch.isFinished then ch.finishedValue.getD ch.value else ch.value

/-- `checkpoint`: only a finished channel is persisted. -/
def checkpoint [Serde T] (ch : LastValueAfterFinishChannel T) : Option Json :=
  if ch.isFinished then checkpointToValue (ch.value, ch.isFinished) else none

/-- The channel that a checkpoint in the new format describes. -/
def ofFinished (value : T) (isFinished : Bool) : LastValueAfterFinishChannel T where
  value
  finishedValue := if isFinished then some value else none
  isFinished
  coherent v hv := by
    cases isFinished with
    | false => cases hv
    | true => exact ⟨rfl, (Option.some.inj hv).symm⟩

/-- `from_checkpoint`, which tries the new format first and then the old one. -/
def fromCheckpoint [Serde T] (value : Json) : Except String (LastValueAfterFinishChannel T) :=
  match (fromValue value : Except String (T × Bool)) with
  | .ok (parsedValue, isFinished) => .ok (ofFinished parsedValue isFinished)
  | .error _ => (restored value : Except String T).map fun value => { value }

end LastValueAfterFinishChannel

/-! ### `DeltaChannel` -/

/-- `DeltaChannel`, without its reducer. -/
structure DeltaChannel (T : Type) where
  /-- The value. -/
  value : T
  /-- Updates between two snapshots. -/
  snapshotFrequency : ℕ
  /-- Updates since the last one. -/
  updateCountSinceSnapshot : ℕ := 0

namespace DeltaChannel

variable {T : Type}

/-- `new`. -/
def new (value : T) (snapshotFrequency : ℕ) : DeltaChannel T :=
  { value, snapshotFrequency := max snapshotFrequency 1 }

/-- `should_snapshot`. -/
def shouldSnapshot (ch : DeltaChannel T) : Bool :=
  decide (ch.snapshotFrequency ≤ ch.updateCountSinceSnapshot)

/-- `finish`. -/
def finish (ch : DeltaChannel T) : DeltaChannel T :=
  { ch with updateCountSinceSnapshot := ch.snapshotFrequency }

/-- `update`. -/
def update (r : Reducer T) (ch : DeltaChannel T) (values : List T) :
    Option (DeltaChannel T × Bool) :=
  if values.isEmpty then some (ch, false)
  else (r.reduce ch.value values).map fun value =>
    ({ ch with value, updateCountSinceSnapshot := ch.updateCountSinceSnapshot + 1 }, true)

/-- `checkpoint`. -/
def checkpoint [Serde T] (ch : DeltaChannel T) : Option Json := checkpointToValue ch.value

/-- `from_checkpoint`. -/
def fromCheckpoint [Serde T] (value : Json) : Except String (DeltaChannel T) :=
  (restored value : Except String T).map fun value => { value, snapshotFrequency := 10 }

end DeltaChannel

/-! ### `RingBufferChannel` -/

/-- `max(1)`. -/
def atLeastOne (n : UInt64) : { n : UInt64 // n ≠ 0 } :=
  if h : n = 0 then ⟨1, by decide⟩ else ⟨n, h⟩

theorem atLeastOne_of_ne_zero {n : UInt64} (h : n ≠ 0) : atLeastOne n = ⟨n, h⟩ :=
  dif_neg h

/-- `RingBufferChannel`. -/
structure RingBufferChannel (T : Type) where
  /-- Values, oldest first. -/
  values : List T
  /-- How many are kept, at least one. -/
  capacity : { n : UInt64 // n ≠ 0 }

namespace RingBufferChannel

variable {T : Type}

/-- `trim_to_capacity`. -/
def trimToCapacity (ch : RingBufferChannel T) : RingBufferChannel T :=
  { ch with values := ch.values.drop (ch.values.length - ch.capacity.1.toNat) }

/-- `new`. -/
def new (values : List T) (capacity : UInt64) : RingBufferChannel T :=
  trimToCapacity { values, capacity := atLeastOne capacity }

/-- `update`. -/
def update (ch : RingBufferChannel T) (values : List (List T)) : RingBufferChannel T × Bool :=
  (trimToCapacity { ch with values := ch.values ++ values.flatten }, values.any fun v => !v.isEmpty)

/-- `checkpoint`. -/
def checkpoint [Serde T] (ch : RingBufferChannel T) : Option Json :=
  (checkpointToValue ch.values).map fun values =>
    .obj [("values", values), ("capacity", .num ch.capacity.1.toNat)]

/-- `as_u64`. -/
def asU64 : Json → Option UInt64
  | .num n => if 0 ≤ n ∧ n < UInt64.size then some (UInt64.ofNat n.toNat) else none
  | _ => none

/-- `from_checkpoint`, of the object format or of the old one, an array. -/
def fromCheckpoint [Serde T] (value : Json) : Except String (RingBufferChannel T) :=
  match value with
  | .obj _ => do
    let values ← (restored ((value.get "values").getD .null) : Except String (List T))
    let capacity := ((value.get "capacity").bind asU64).getD 1000
    .ok { values, capacity := atLeastOne capacity }
  | _ => do
    let values ← (restored value : Except String (List T))
    .ok { values, capacity := atLeastOne 1000 }

end RingBufferChannel

end Juncture
