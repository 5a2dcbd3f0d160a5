import Juncture.Core.State
import Mathlib.Data.List.FinRange
import Mathlib.Logic.Function.Basic

/-!
# Derived states

`#[derive(State)]` makes a state of a struct with named fields, each with a reducer, and
`#[subset_of(Parent)]` makes of it a part of another one, whose fields of the same names it shares.

* `Record` : a struct with the given fields, as a state.
* `SharedFields` : the fields of a parent that a struct shares, each with a reducer of its own.
* `StateSubset` : how a part of a state is taken out, and how its updates are put in.

The attributes for versions of the schema are left out.
-/

namespace Juncture

/-! ### Structs -/

/-- `ReducerType`; the function of `append` is the `extend` of the field's type. -/
inductive ReducerType (T : Type) where
  | replace
  | append (extend : T → T → T)
  | ephemeral
  | custom (func : T → T → T)
  | lastWriteWins
  | untracked
  | replaceAfterFinish
  | any

namespace ReducerType

variable {T : Type}

/-- The arm of `apply` for a field that is set. -/
def apply : ReducerType T → T → T → T
  | .append extend, current, v => extend current v
  | .custom func, current, v => func current v
  | _, _, v => v

/-- Two updates of the field in one superstep are a conflict. -/
def isReplace : ReducerType T → Bool
  | .replace => true
  | _ => false

/-- `finish_field` is called for the field, and does nothing. -/
def isReplaceAfterFinish : ReducerType T → Bool
  | .replaceAfterFinish => true
  | _ => false

/-- The field is set to its default after each superstep. -/
def isEphemeral : ReducerType T → Bool
  | .ephemeral => true
  | _ => false

end ReducerType

/-- A field of a struct, with the serde functions of its type. -/
structure FieldDecl where
  /-- Name. -/
  name : String
  /-- Type. -/
  T : Type
  /-- The `#[reducer]` attribute. -/
  reducer : ReducerType T := .replace
  /-- `Default::default()`. -/
  default : T
  /-- `serde_json::to_value`. -/
  toValue : T → Except String Json
  /-- `serde_json::from_value`. -/
  fromValue : Json → Except String T

/-- A struct with the given fields. -/
def Record {n : ℕ} (F : Fin n → FieldDecl) : Type := (i : Fin n) → (F i).T

namespace Record

variable {n : ℕ} {F : Fin n → FieldDecl}

/-- The update struct. -/
def Change (F : Fin n → FieldDecl) : Type := (i : Fin n) → Option (F i).T

/-- The generated `apply`. -/
def apply (s : Record F) (u : Change F) : Record F × FieldsChanged :=
  (fun i => match u i with
    | some v => (F i).reducer.apply (s i) v
    | none => s i,
   (List.finRange n).foldl (fun c i => if (u i).isSome then c.setField i else c) .none)

/-- The generated `reset_ephemeral`. -/
def resetEphemeral (s : Record F) : Record F := fun i =>
  if (F i).reducer.isEphemeral then (F i).default else s i

/-- The generated `field_is_set`. -/
def fieldIsSet (u : Change F) (fieldIdx : ℕ) : Bool :=
  if h : fieldIdx < n then (u ⟨fieldIdx, h⟩).isSome else false

/-- The serde encoding. -/
def toJson (s : Record F) : Except String Json :=
  ((List.finRange n).mapM fun i => ((F i).toValue (s i)).map fun v => ((F i).name, v)).map .obj

/-- One field of the serde decoding. -/
def fieldOfJson (v : Json) (i : Fin n) : Except String (F i).T :=
  match v.get (F i).name with
  | some v => (F i).fromValue v
  | none => .error s!"missing field `{(F i).name}`"

/-- The serde decoding: it fails with the first field that does. -/
def ofJson (v : Json) : Except String (Record F) :=
  ((List.finRange n).mapM fun i => (fieldOfJson (F := F) v i).map fun _ => i).map fun _ =>
    fun i => (fieldOfJson v i).toOption.getD (F i).default

/-- The encoding of an update; absent fields are `null`. -/
def Change.toJson (u : Change F) : Except String Json :=
  ((List.finRange n).mapM fun i => ((u i).elim (.ok .null) (F i).toValue).map
    fun v => ((F i).name, v)).map .obj

instance : State (Record F) where
  Update := Change F
  default i := (F i).default
  apply := apply
  resetEphemeral := resetEphemeral
  replaceFieldIndices := ((List.finRange n).filter fun i => (F i).reducer.isReplace).map Fin.val
  replaceAfterFinishFieldIndices :=
    ((List.finRange n).filter fun i => (F i).reducer.isReplaceAfterFinish).map Fin.val
  fieldIsSet := fieldIsSet
  fieldCount := n
  fieldNames := (List.finRange n).map fun i => (F i).name
  toValue := toJson
  fromValue := ofJson
  updateToValue := Change.toJson

/-- The derived `Default` of the update. -/
instance : Inhabited (Change F) := ⟨fun _ => none⟩

instance : Inhabited (Update (Record F)) := inferInstanceAs (Inhabited (Change F))

/-- The update of a struct that is generated is never rejected. -/
theorem tryApply_eq (s : Record F) (u : Change F) :
    State.tryApply s u = ((apply s u).1, .ok (apply s u).2) := rfl

/-- The default update changes nothing. -/
@[simp] theorem apply_default (s : Record F) : (apply s (default : Change F)).1 = s := rfl

/-- What an update makes of one field. -/
theorem apply_field (s : Record F) (u : Change F) (i : Fin n) : (apply s u).1 i =
    ((u i).map fun v => (F i).reducer.apply (s i) v).getD (s i) := by
  show (match u i with
    | some v => (F i).reducer.apply (s i) v
    | none => s i) = _
  cases u i <;> rfl

/-- The bits of an update: those of the fields it sets. -/
theorem hasField_apply (hn : n ≤ 64) (s : Record F) (u : Change F) (j : ℕ) :
    (apply s u).2.hasField j = true ↔ ∃ i : Fin n, i.val = j ∧ (u i).isSome = true := by
  have hfold : ∀ (is : List (Fin n)) (c : FieldsChanged),
      (is.foldl (fun c i => if (u i).isSome then c.setField i else c) c).hasField j = true ↔
        c.hasField j = true ∨ ∃ i ∈ is, i.val = j ∧ (u i).isSome = true := by
    intro is
    induction is with
    | nil => simp
    | cons i is ih =>
      intro c
      rw [List.foldl_cons, ih]
      by_cases hi : (u i).isSome = true
      · rw [if_pos hi, FieldsChanged.hasField_setField c (by omega)]
        simp [hi, or_assoc]
      · simp [hi]
  rw [apply, hfold]
  simp

end Record

/-! ### Parts of structs -/

/-- `StateSubset`. -/
class StateSubset (Sub Parent : Type) [State Sub] [State Parent] where
  /-- `extract`. -/
  extract : Parent → Sub
  /-- `map_update`. -/
  mapUpdate : Update Sub → Update Parent

/-- The fields of a struct with `#[subset_of(Parent)]`, for a parent with the fields `F`. -/
structure SharedFields {n : ℕ} (F : Fin n → FieldDecl) (m : ℕ) where
  /-- The field of the parent that has the name. -/
  index : Fin m → Fin n
  /-- The names are different. -/
  injective : Function.Injective index
  /-- The reducers, which need not be those of the parent. -/
  reducer : (i : Fin m) → ReducerType (F (index i)).T

namespace SharedFields

variable {n m : ℕ} {F : Fin n → FieldDecl} (shared : SharedFields F m)

/-- The fields. -/
def fields (i : Fin m) : FieldDecl := { F (shared.index i) with reducer := shared.reducer i }

/-- The generated `extract`. -/
def extract (parent : Record F) : Record shared.fields := fun i => parent (shared.index i)

/-- The generated `map_update`: what is not shared is left to the default. -/
def mapUpdate (update : Record.Change shared.fields) : Record.Change F := fun j =>
  (List.finRange m).findSome? fun i => if h : shared.index i = j then h ▸ update i else none

instance : StateSubset (Record shared.fields) (Record F) where
  extract := shared.extract
  mapUpdate := shared.mapUpdate

/-- A shared field of the parent is updated as the field of the part is. -/
@[simp] theorem mapUpdate_index (update : Record.Change shared.fields) (i : Fin m) :
    shared.mapUpdate update (shared.index i) = update i := by
  have hother : ∀ j, j ≠ i → (if h : shared.index j = shared.index i then
      (h ▸ update j : Option (F (shared.index i)).T) else none) = none := by
    intro j hj
    exact dif_neg fun h => hj (shared.injective h)
  have hfind : ∀ js : List (Fin m), i ∈ js → (js.findSome? fun j =>
      if h : shared.index j = shared.index i then
        (h ▸ update j : Option (F (shared.index i)).T) else none) = update i := by
    intro js hmem
    induction js with
    | nil => cases hmem
    | cons j js ih =>
      by_cases hj : j = i
      · subst hj
        rw [List.findSome?_cons, dif_pos rfl]
        cases hu : update j with
        | some v => rfl
        | none =>
          -- the names are different, so no other field can be found
          refine List.findSome?_eq_none_iff.mpr fun k _ => ?_
          by_cases hk : k = j
          · subst hk
            rw [dif_pos rfl]
            exact hu
          · exact dif_neg fun h => hk (shared.injective h)
      · rw [List.findSome?_cons, hother j hj]
        exact ih ((List.mem_cons.mp hmem).resolve_left fun h => hj h.symm)
  exact hfind _ (List.mem_finRange i)

/-- The other fields are not updated. -/
theorem mapUpdate_of_ne (update : Record.Change shared.fields) {j : Fin n}
    (hj : ∀ i, shared.index i ≠ j) : shared.mapUpdate update j = none :=
  List.findSome?_eq_none_iff.mpr fun i _ => dif_neg (hj i)

/-- The default update is put in as the default update. -/
theorem mapUpdate_default : shared.mapUpdate default = default := by
  funext j
  by_cases hj : ∃ i, shared.index i = j
  · obtain ⟨i, rfl⟩ := hj
    exact shared.mapUpdate_index _ i
  · exact shared.mapUpdate_of_ne _ fun i hi => hj ⟨i, hi⟩

end SharedFields

end Juncture
