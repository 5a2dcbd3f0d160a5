import Juncture.Core.Json
import Juncture.Core.Error

/-!
# The `State` trait

A graph is generic in its state type `S: State`.  The derive macro generates an instance whose
`try_apply` never fails, but the trait is public and `try_apply` is documented as the place where
an update is validated, so the model keeps both methods and lets `tryApply` leave the state partly
updated when it rejects.
-/

namespace Juncture

/-- `FieldsChanged(u64)`: the bitmask of changed fields. -/
abbrev FieldsChanged := BitVec 64

namespace FieldsChanged

/-- `FieldsChanged(0)`. -/
def none : FieldsChanged := 0#64

/-- `is_empty`. -/
def isEmpty (c : FieldsChanged) : Bool := c == 0#64

/-- `has_field`. -/
def hasField (c : FieldsChanged) (index : ℕ) : Bool := c.getLsbD index

/-- `set_field`. -/
def setField (c : FieldsChanged) (index : ℕ) : FieldsChanged := c ||| (1#64 <<< index)

/-- `merge`. -/
def merge (c other : FieldsChanged) : FieldsChanged := c ||| other

@[simp] theorem hasField_none (j : ℕ) : hasField .none j = false := by
  simp [hasField, none]

/-- A bit that is set, and the others. -/
theorem hasField_setField (c : FieldsChanged) {i : ℕ} (hi : i < 64) (j : ℕ) :
    (c.setField i).hasField j = (c.hasField j || decide (i = j)) := by
  have hbit : (1#64 <<< i).getLsbD j = decide (i = j) := by
    rw [BitVec.getLsbD_shiftLeft, BitVec.getLsbD_one]
    by_cases hj : i = j
    · subst hj
      simp [hi]
    · rw [decide_eq_false hj]
      by_cases hlt : j < i
      · simp [hlt]
      · have : j - i ≠ 0 := by omega
        simp [this]
  rw [setField, hasField, BitVec.getLsbD_or, hbit]
  rfl

/-- A bit of two sets put together. -/
theorem hasField_merge (c c' : FieldsChanged) (j : ℕ) :
    (c.merge c').hasField j = (c.hasField j || c'.hasField j) := BitVec.getLsbD_or
end FieldsChanged

/-- The `State` trait together with the serde instances the engine asks for. -/
class State (S : Type) where
  /-- The partial update a node returns. -/
  Update : Type
  /-- `Default::default()`. -/
  default : S
  /-- `apply`: merge an update, field by field, with the field's reducer. -/
  apply : S → Update → S × FieldsChanged
  /-- `try_apply`: the state after the call, and the changed fields or the rejection. -/
  tryApply : S → Update → S × Except InvalidUpdateError FieldsChanged :=
    fun s u => ((apply s u).1, .ok (apply s u).2)
  /-- `reset_ephemeral`. -/
  resetEphemeral : S → S
  /-- `finish_field`. -/
  finishField : S → ℕ → S := fun s _ => s
  /-- `consume_field`. -/
  consumeField : S → ℕ → S := fun s _ => s
  /-- `schema_version`. -/
  schemaVersion : ℕ := 1
  /-- `migrate`. -/
  migrate : ℕ → Json → Json := fun _ v => v
  /-- `replace_field_indices`: the fields with at most one writer a superstep. -/
  replaceFieldIndices : List ℕ := []
  /-- `replace_after_finish_field_indices`. -/
  replaceAfterFinishFieldIndices : List ℕ := []
  /-- `field_is_set`: does the update write the field? -/
  fieldIsSet : Update → ℕ → Bool := fun _ _ => false
  /-- `field_count`. -/
  fieldCount : ℕ := 0
  /-- `field_names`. -/
  fieldNames : List String := []
  /-- `delta_channel_specs`: `(field index, snapshot frequency)`. -/
  deltaChannelSpecs : List (ℕ × ℕ) := []
  /-- `serde_json::to_value` of a state. -/
  toValue : S → Except String Json
  /-- `serde_json::from_value`. -/
  fromValue : Json → Except String S
  /-- `serde_json::to_value` of an update. -/
  updateToValue : Update → Except String Json

export State (Update)

end Juncture
