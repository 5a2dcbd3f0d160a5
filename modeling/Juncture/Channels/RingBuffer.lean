import Juncture.Channels.Types
import Mathlib.Data.List.DropRight

/-!
# Ring buffers

A `RingBufferChannel` keeps the newest of the items that were appended to it, as many as its capacity.  It
drops the others when it is made by `new` and after each update, but not when it is read back from a
checkpoint, which may hold more.

* `Origin` : how a ring buffer is made, and what it is given to start with.
* `HoldsLast.updates` : what is left after some updates.
* `bounded_iff` : which ring buffers keep to their capacity.
-/

namespace Juncture

namespace RingBufferChannel

variable {T : Type}

/-! ### The last items -/

theorem length_rtake_le (l : List T) (n : ℕ) : (l.rtake n).length ≤ n := by
  rw [List.rtake, List.length_drop]
  omega

theorem rtake_eq_self_iff {l : List T} {n : ℕ} : l.rtake n = l ↔ l.length ≤ n := by
  constructor
  · intro h
    rw [← h]
    exact length_rtake_le l n
  · intro h
    rw [List.rtake, Nat.sub_eq_zero_of_le h, List.drop_zero]

theorem rtake_min_length (l : List T) (n : ℕ) : l.rtake (min n l.length) = l.rtake n := by
  unfold List.rtake
  congr 1
  omega

/-- Items that are dropped before others are appended would be dropped afterwards. -/
theorem rtake_rtake_append (l m : List T) (n : ℕ) : (l.rtake n ++ m).rtake n = (l ++ m).rtake n := by
  by_cases h : l.length ≤ n
  · rw [rtake_eq_self_iff.mpr h]
  · have hlen : (l.rtake n).length = n := by
      rw [List.rtake, List.length_drop]
      omega
    have hleft : (l.rtake n ++ m).length - n = m.length := by
      rw [List.length_append, hlen, Nat.add_sub_cancel_left]
    have hright : (l ++ m).length - n = (l.length - n) + m.length := by
      rw [List.length_append]
      omega
    calc (l.rtake n ++ m).rtake n
        = (l.drop (l.length - n) ++ m).drop m.length := by rw [List.rtake, hleft, List.rtake]
      _ = ((l ++ m).drop (l.length - n)).drop m.length := by
          rw [List.drop_append_of_le_length (Nat.sub_le _ _)]
      _ = (l ++ m).rtake n := by rw [List.drop_drop, ← hright, List.rtake]

/-! ### Updates -/

/-- The capacity, as a number. -/
def bound (ch : RingBufferChannel T) : ℕ := ch.capacity.1.toNat

@[simp] theorem values_update (ch : RingBufferChannel T) (values : List (List T)) :
    (ch.update values).1.values = (ch.values ++ values.flatten).rtake ch.bound := rfl

@[simp] theorem bound_update (ch : RingBufferChannel T) (values : List (List T)) :
    (ch.update values).1.bound = ch.bound := rfl

/-- The channel after some updates. -/
def updates (ch : RingBufferChannel T) (batches : List (List (List T))) : RingBufferChannel T :=
  batches.foldl (fun ch values => (ch.update values).1) ch

/-- The channel holds the last of the given items. -/
def HoldsLast (ch : RingBufferChannel T) (items : List T) : Prop :=
  ch.values = items.rtake ch.bound

theorem HoldsLast.update {ch : RingBufferChannel T} {items : List T} (h : ch.HoldsLast items)
    (values : List (List T)) : (ch.update values).1.HoldsLast (items ++ values.flatten) := by
  rw [HoldsLast, values_update, bound_update, h, rtake_rtake_append]

/-- **All updates.**  The items that are left are the last of all items so far. -/
theorem HoldsLast.updates {ch : RingBufferChannel T} {items : List T} (h : ch.HoldsLast items)
    (batches : List (List (List T))) :
    (ch.updates batches).HoldsLast (items ++ batches.flatten.flatten) := by
  induction batches generalizing ch items with
  | nil =>
    rw [List.flatten_nil, List.flatten_nil, List.append_nil]
    exact h
  | cons values batches ih =>
    have hrest := ih (h.update values)
    rw [List.append_assoc, ← List.flatten_append, ← List.flatten_cons] at hrest
    exact hrest

/-- After any updates there are no more items than the capacity, and these are the last of the given items
and of those that were appended. -/
def KeepsLast (ch : RingBufferChannel T) (items : List T) : Prop :=
  ∀ batches,
    let total := items ++ batches.flatten.flatten
    (ch.updates batches).values.length ≤ (ch.updates batches).bound ∧
      (ch.updates batches).values = total.rtake (min (ch.updates batches).bound total.length)

/-- A channel keeps the last items exactly if it holds the last of the first ones. -/
theorem keepsLast_iff (ch : RingBufferChannel T) (items : List T) :
    ch.KeepsLast items ↔ ch.HoldsLast items := by
  constructor
  · intro h
    obtain ⟨-, hlast⟩ := h []
    rw [rtake_min_length, List.flatten_nil, List.flatten_nil, List.append_nil] at hlast
    exact hlast
  · intro h batches total
    have hlast : (ch.updates batches).values = total.rtake (ch.updates batches).bound :=
      h.updates batches
    rw [rtake_min_length]
    exact ⟨hlast ▸ length_rtake_le _ _, hlast⟩

/-! ### How ring buffers are made -/

section Checkpoints

-- `serde_json::from_value` of the items, whatever it does.
variable (fromValue : Json → Except String (List T))

/-- The items that a checkpoint holds. -/
def storedValues (value : Json) : Except String (List T) :=
  (match value with
    | .obj _ => fromValue ((value.get "values").getD .null)
    | _ => fromValue value).mapError fun e => s!"checkpoint deserialization failed: {e}"

/-- The capacity that a checkpoint holds. -/
def storedCapacity (value : Json) : { n : UInt64 // n ≠ 0 } :=
  match value with
  | .obj _ => atLeastOne (((value.get "capacity").bind asU64).getD 1000)
  | _ => atLeastOne 1000

/-- `from_checkpoint` makes a channel of what is stored. -/
theorem fromCheckpoint_eq [Serde T] (value : Json) :
    fromCheckpoint value =
      (storedValues (Serde.fromValue : Json → Except String (List T)) value).map fun values =>
        { values, capacity := storedCapacity value } := by
  cases value with
  | obj kvs =>
    simp only [fromCheckpoint, storedValues, storedCapacity, restored]
    cases (Serde.fromValue ((Json.get (.obj kvs) "values").getD .null) : Except String (List T)) <;> rfl
  | _ =>
    simp only [fromCheckpoint, storedValues, storedCapacity, restored]
    cases (Serde.fromValue _ : Except String (List T)) <;> rfl

/-- How a ring buffer is made. -/
inductive Origin (T : Type) where
  /-- `new`. -/
  | new (values : List T) (capacity : UInt64)
  /-- `from_checkpoint`. -/
  | fromCheckpoint (value : Json)

namespace Origin

/-- The items a channel is given to start with, unless the checkpoint is refused. -/
def items : Origin T → Except String (List T)
  | .new values _ => .ok values
  | .fromCheckpoint value => storedValues fromValue value

/-- The channel that is made of them. -/
def make (items : List T) : Origin T → RingBufferChannel T
  | .new _ capacity => RingBufferChannel.new items capacity
  | .fromCheckpoint value => { values := items, capacity := storedCapacity value }

/-- The channel keeps the last items. -/
def Bounded (origin : Origin T) : Prop :=
  ∀ items, origin.items fromValue = .ok items → (origin.make items).KeepsLast items

/-- A checkpoint holds no more items than its capacity. -/
def Fits : Origin T → Prop
  | .new _ _ => True
  | .fromCheckpoint value =>
    ∀ items, storedValues fromValue value = .ok items → items.length ≤ (storedCapacity value).1.toNat

end Origin

/-- **Ring buffers keep to their capacity**, those that are read back exactly if the checkpoint does. -/
theorem bounded_iff (origin : Origin T) : origin.Bounded fromValue ↔ origin.Fits fromValue := by
  cases origin with
  | new values capacity =>
    exact iff_of_true (fun items _ => (keepsLast_iff _ items).mpr rfl) trivial
  | fromCheckpoint value =>
    refine forall₂_congr fun items _ => ?_
    rw [keepsLast_iff, HoldsLast, eq_comm]
    exact rtake_eq_self_iff

end Checkpoints

/-- Three items, where two fit. -/
def overfull : Origin ℤ :=
  .fromCheckpoint (.obj [("values", .arr [.num 1, .num 2, .num 3]), ("capacity", .num 2)])

/-- All three are kept. -/
theorem overfull_not_bounded : ¬ overfull.Bounded Serde.fromValue := by
  rw [bounded_iff]
  intro h
  exact absurd (h [1, 2, 3] rfl) (by decide)

end RingBufferChannel

end Juncture
