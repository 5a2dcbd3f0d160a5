import Juncture.Core.Derived

/-!
# The generators of the derive macro

`derive_state_impl` writes out the methods of a state from the list of its fields, in several
passes that know nothing of each other.  The constants `FIELD_*`, the lists of indices and the arms
of `field_is_set` each number the fields on their own; the arms of `apply` and of `try_apply` find
the number of a field by the name of its constant.

* `Agrees` : what the engine takes for granted about the passes.
* `generated_agree` : it holds for every struct that is accepted.
* `apply_eq_record`, `fieldIsSet_eq_record`, `replaceFieldIndices_eq_record` : what is generated is
  the state `Record` of the struct.

An identifier of a field is written as its place in the declaration; `zipIdx` is the `enumerate` of
a pass.  `to_uppercase` is a parameter, since nothing depends on it but whether names clash.
-/

namespace Juncture

namespace DeriveState

variable (toUppercase : String → String) {n : ℕ} (F : Fin n → FieldDecl)

/-! ### Accepted structs -/

/-- The checks of the macro on the number of fields. -/
def checkFieldCount (fieldCount : ℕ) : Except String Unit :=
  if fieldCount = 0 then .error "State struct must have at least one field"
  else if 64 < fieldCount then
    .error (s!"State has {fieldCount} fields, exceeds u64 capacity of 64. " ++
      "Enable 'wide-state' feature to use FixedBitSet-based FieldsChanged.")
  else .ok ()

/-- `field_names`: the identifiers, in the order of the declaration. -/
def fieldNames (n : ℕ) : List (Fin n) := List.finRange n

/-- The name of the constant for the index of a field. -/
def constName (name : String) : String := "FIELD_" ++ toUppercase name

/-- `field_constant_decls`. -/
def fieldConstantDecls : List (String × ℕ) :=
  (fieldNames n).zipIdx.map fun (field, idx) => (constName toUppercase (F field).name, idx)

/-- A struct that the macro and the compiler accept: an `impl` does not define a constant twice. -/
structure Accepted : Prop where
  /-- The macro goes on. -/
  fieldCount : checkFieldCount n = .ok ()
  /-- The constants have different names. -/
  constants : ((fieldConstantDecls toUppercase F).map Prod.fst).Nodup

/-- The value of a constant. -/
def constant (name : String) : ℕ :=
  (((fieldConstantDecls toUppercase F).find? fun decl => decl.1 == name).map Prod.snd).getD 0

/-! ### The passes -/

/-- `REPLACE_FIELD_INDICES`. -/
def replaceFieldIndices : List ℕ :=
  ((fieldNames n).zipIdx.filter fun (field, _) => (F field).reducer.isReplace).map Prod.snd

/-- `REPLACE_AFTER_FINISH_FIELD_INDICES`. -/
def replaceAfterFinishIndices : List ℕ :=
  ((fieldNames n).zipIdx.filter fun (field, _) => (F field).reducer.isReplaceAfterFinish).map
    Prod.snd

/-- `CONSUME_FIELD_INDICES`. -/
def consumeFieldIndices : List ℕ :=
  ((fieldNames n).zipIdx.filter fun (field, _) => (F field).reducer.isEphemeral).map Prod.snd

/-- The statements of a method body for one field: they work on `self` and `changed`. -/
abbrev Arm {n : ℕ} (F : Fin n → FieldDecl) : Type :=
  Record.Change F → Record F × FieldsChanged → Record F × FieldsChanged

variable {F} in
/-- `self.field = v`. -/
def assign (self : Record F) (field : Fin n) (v : (F field).T) : Record F :=
  fun i => if h : i = field then h ▸ v else self i

variable {F} in
/-- `if let Some(v) = update.field`, with what becomes of the field. -/
def ifSet (field : Fin n) (const : ℕ) (store : (F field).T → (F field).T → (F field).T) : Arm F :=
  fun update (self, changed) =>
    match update field with
    | some v => (assign self field (store (self field) v), changed.setField const)
    | none => (self, changed)

/-- `generate_apply_arms`. -/
def generateApplyArms : List (Arm F) :=
  (fieldNames n).map fun field =>
    let const := constant toUppercase F (constName toUppercase (F field).name)
    match (F field).reducer with
    | .append extend => ifSet field const fun current v => extend current v
    | .custom func => ifSet field const fun current v => func current v
    | _ => ifSet field const fun _ v => v

/-- `generate_try_apply_arms`. -/
def generateTryApplyArms : List (Arm F) :=
  (fieldNames n).map fun field =>
    let const := constant toUppercase F (constName toUppercase (F field).name)
    match (F field).reducer with
    | .append extend => ifSet field const fun current v => extend current v
    | .custom func => ifSet field const fun current v => func current v
    | _ => ifSet field const fun _ v => v

/-- `generate_field_is_set_arms`. -/
def generateFieldIsSetArms : List (ℕ × (Record.Change F → Bool)) :=
  (fieldNames n).zipIdx.map fun (field, idx) => (idx, fun update => (update field).isSome)

variable {F}

/-- The generated `apply`. -/
def apply (self : Record F) (update : Record.Change F) : Record F × FieldsChanged :=
  (generateApplyArms toUppercase F).foldl (fun body arm => arm update body) (self, .none)

/-- The generated `try_apply`. -/
def tryApply (self : Record F) (update : Record.Change F) :
    Record F × Except InvalidUpdateError FieldsChanged :=
  let (self, changed) :=
    (generateTryApplyArms toUppercase F).foldl (fun body arm => arm update body) (self, .none)
  (self, .ok changed)

/-- The generated `field_is_set`: the first arm with the index, or the catch-all. -/
def fieldIsSet (update : Record.Change F) (fieldIdx : ℕ) : Bool :=
  match (generateFieldIsSetArms F).find? fun arm => arm.1 == fieldIdx with
  | some arm => arm.2 update
  | none => false

/-! ### Numbers -/

variable {toUppercase}

theorem zipIdx_fieldNames (n : ℕ) : (fieldNames n).zipIdx = (fieldNames n).map fun i => (i, i.val) := by
  refine List.ext_getElem (by simp) fun k hk hk' => ?_
  simp [fieldNames]

/-- The list of indices of a pass. -/
theorem filter_zipIdx_fieldNames (p : Fin n → Bool) :
    ((fieldNames n).zipIdx.filter fun (field, _) => p field).map Prod.snd =
      ((List.finRange n).filter p).map Fin.val := by
  rw [zipIdx_fieldNames, List.filter_map, List.map_map]
  rfl

/-- The only field with a property is found. -/
theorem find?_fieldNames {p : Fin n → Bool} {i : Fin n} (hi : p i = true)
    (hother : ∀ j, p j = true → j = i) : (fieldNames n).find? p = some i := by
  cases h : (fieldNames n).find? p with
  | none => exact absurd hi (by simpa using List.find?_eq_none.mp h i (List.mem_finRange i))
  | some j => rw [hother j (List.find?_some h)]

/-- A constant has the place of its field for its value. -/
theorem constant_constName (h : Accepted toUppercase F) (i : Fin n) :
    constant toUppercase F (constName toUppercase (F i).name) = i.val := by
  have hinj : ∀ j, constName toUppercase (F j).name = constName toUppercase (F i).name → j = i := by
    have hnodup := h.constants
    rw [fieldConstantDecls, zipIdx_fieldNames, List.map_map, List.map_map] at hnodup
    intro j hj
    exact List.inj_on_of_nodup_map hnodup (List.mem_finRange j) (List.mem_finRange i) hj
  rw [constant, fieldConstantDecls, zipIdx_fieldNames, List.map_map, List.find?_map,
    find?_fieldNames (i := i) (by simp) fun j hj => hinj j (by simpa using hj)]
  rfl

/-! ### What is generated -/

@[simp] theorem assign_self (self : Record F) (i : Fin n) (v : (F i).T) : assign self i v i = v :=
  dif_pos rfl

theorem assign_of_ne (self : Record F) {i j : Fin n} (v : (F i).T) (h : j ≠ i) :
    assign self i v j = self j := dif_neg h

/-- The arms of several fields, one after the other: each field is read before it is written. -/
theorem foldl_ifSet (const : Fin n → ℕ) (store : (i : Fin n) → (F i).T → (F i).T → (F i).T)
    (update : Record.Change F) {fields : List (Fin n)} (h : fields.Nodup) (self : Record F)
    (changed : FieldsChanged) :
    fields.foldl (fun body i => ifSet i (const i) (store i) update body) (self, changed) =
      (fun i => if i ∈ fields then ((update i).map (store i (self i))).getD (self i) else self i,
        fields.foldl (fun c i => if (update i).isSome then c.setField (const i) else c) changed) := by
  induction fields generalizing self changed with
  | nil => rfl
  | cons i fields ih =>
    obtain ⟨hi, hfields⟩ := List.nodup_cons.mp h
    rw [List.foldl_cons, List.foldl_cons]
    cases hu : update i with
    | none =>
      have harm : ifSet i (const i) (store i) update (self, changed) = (self, changed) := by
        simp only [ifSet, hu]
      rw [harm, ih hfields]
      refine Prod.ext (funext fun j => ?_) (by simp)
      by_cases hj : j = i
      · subst hj
        simp [hi, hu]
      · simp [hj]
    | some v =>
      have harm : ifSet i (const i) (store i) update (self, changed) =
          (assign self i (store i (self i) v), changed.setField (const i)) := by
        simp only [ifSet, hu]
      rw [harm, ih hfields]
      refine Prod.ext (funext fun j => ?_) (by simp)
      by_cases hj : j = i
      · subst hj
        simp [hi, hu]
      · simp [hj, assign_of_ne]

/-- The arm of a field, whatever its reducer. -/
theorem generateApplyArms_eq : generateApplyArms toUppercase F = (fieldNames n).map fun i =>
    ifSet i (constant toUppercase F (constName toUppercase (F i).name)) (F i).reducer.apply := by
  refine List.map_congr_left fun i _ => ?_
  cases hr : (F i).reducer <;> rfl

/-- The two methods are generated with the same arms. -/
theorem generateTryApplyArms_eq :
    generateTryApplyArms toUppercase F = generateApplyArms toUppercase F := by
  refine List.map_congr_left fun i _ => ?_
  cases hr : (F i).reducer <;> rfl

/-- **The generated `apply` is that of the record.** -/
theorem apply_eq_record (h : Accepted toUppercase F) (self : Record F) (update : Record.Change F) :
    apply toUppercase self update = Record.apply self update := by
  have hnodup : (fieldNames n).Nodup := List.nodup_finRange n
  rw [apply, generateApplyArms_eq, List.foldl_map,
    foldl_ifSet _ (fun i => (F i).reducer.apply) update hnodup]
  refine Prod.ext (funext fun i => ?_) ?_
  · rw [Record.apply_field]
    exact if_pos (List.mem_finRange i)
  · simp only [constant_constName h]
    rfl

/-- The generated `try_apply` is that of the record. -/
theorem tryApply_eq_record (h : Accepted toUppercase F) (self : Record F)
    (update : Record.Change F) : tryApply toUppercase self update = State.tryApply self update := by
  rw [Record.tryApply_eq, ← apply_eq_record h, tryApply, generateTryApplyArms_eq]
  rfl

/-- The generated `field_is_set` is that of the record. -/
theorem fieldIsSet_eq_record (update : Record.Change F) (fieldIdx : ℕ) :
    fieldIsSet update fieldIdx = Record.fieldIsSet update fieldIdx := by
  rw [fieldIsSet, generateFieldIsSetArms, zipIdx_fieldNames, List.map_map, List.find?_map,
    Record.fieldIsSet]
  by_cases hidx : fieldIdx < n
  · rw [dif_pos hidx, find?_fieldNames (i := ⟨fieldIdx, hidx⟩) (by simp) fun j hj =>
      Fin.ext (by simpa using hj)]
    rfl
  · have hnone : (fieldNames n).find? ((fun arm : ℕ × (Record.Change F → Bool) =>
        arm.1 == fieldIdx) ∘ (fun i : Fin n × ℕ => (i.2, fun update : Record.Change F =>
          (update i.1).isSome)) ∘ fun i => (i, i.val)) = none := by
      refine List.find?_eq_none.mpr fun i _ => ?_
      simp only [Function.comp, beq_iff_eq]
      have := i.isLt
      omega
    rw [dif_neg hidx, hnone]
    rfl

/-- The generated list of replace fields is that of the record. -/
theorem replaceFieldIndices_eq_record :
    replaceFieldIndices F = State.replaceFieldIndices (Record F) :=
  filter_zipIdx_fieldNames fun i => (F i).reducer.isReplace

/-! ### Agreement -/

/-- What the engine takes for granted about the passes, for a state and an update of it. -/
structure Agrees (toUppercase : String → String) (state : Record F) (update : Record.Change F) :
    Prop where
  /-- The two methods do the same. -/
  tryApply : tryApply toUppercase state update =
    ((apply toUppercase state update).1, .ok (apply toUppercase state update).2)
  /-- A field is marked when it is set, and nothing else is. -/
  changed : ∀ idx, (apply toUppercase state update).2.hasField idx = true ↔
    ∃ i, constant toUppercase F (constName toUppercase (F i).name) = idx ∧ (update i).isSome = true
  /-- A field that is not set stays as it is. -/
  unset : ∀ i, update i = none → (apply toUppercase state update).1 i = state i
  /-- An `append` field is extended: where `extend` appends, it is the old items and the new. -/
  append : ∀ i extend v, (F i).reducer = .append extend → update i = some v →
    (apply toUppercase state update).1 i = extend (state i) v ∧
      ∀ {ι : Type} (items : (F i).T → List ι),
        (∀ a b, items (extend a b) = items a ++ items b) →
          items ((apply toUppercase state update).1 i) = items (state i) ++ items v
  /-- Any other field becomes the new value, unless its reducer is a function of the user. -/
  assigned : ∀ i v, (∀ extend, (F i).reducer ≠ .append extend) →
    (∀ func, (F i).reducer ≠ .custom func) → update i = some v →
      (apply toUppercase state update).1 i = v
  /-- The constants number the fields. -/
  constants : ∀ i, constant toUppercase F (constName toUppercase (F i).name) = i.val
  /-- `field_is_set` numbers them alike. -/
  fieldIsSet : ∀ idx, fieldIsSet update idx = true ↔
    ∃ i, constant toUppercase F (constName toUppercase (F i).name) = idx ∧ (update i).isSome = true
  /-- So does `REPLACE_FIELD_INDICES`. -/
  replace : ∀ idx, idx ∈ replaceFieldIndices F ↔
    ∃ i, constant toUppercase F (constName toUppercase (F i).name) = idx ∧
      (F i).reducer.isReplace = true
  /-- So does `REPLACE_AFTER_FINISH_FIELD_INDICES`. -/
  replaceAfterFinish : ∀ idx, idx ∈ replaceAfterFinishIndices F ↔
    ∃ i, constant toUppercase F (constName toUppercase (F i).name) = idx ∧
      (F i).reducer.isReplaceAfterFinish = true
  /-- So does `CONSUME_FIELD_INDICES`. -/
  consume : ∀ idx, idx ∈ consumeFieldIndices F ↔
    ∃ i, constant toUppercase F (constName toUppercase (F i).name) = idx ∧
      (F i).reducer.isEphemeral = true

theorem checkFieldCount_eq_ok {fieldCount : ℕ} (h : checkFieldCount fieldCount = .ok ()) :
    0 < fieldCount ∧ fieldCount ≤ 64 := by
  unfold checkFieldCount at h
  split_ifs at h
  omega

/-- The indices of a pass, through the constants. -/
theorem mem_filter_zipIdx_iff (h : Accepted toUppercase F) (p : Fin n → Bool) (idx : ℕ) :
    idx ∈ (((fieldNames n).zipIdx.filter fun (field, _) => p field).map Prod.snd) ↔
      ∃ i, constant toUppercase F (constName toUppercase (F i).name) = idx ∧ p i = true := by
  rw [filter_zipIdx_fieldNames]
  simp only [List.mem_map, List.mem_filter, List.mem_finRange, true_and, constant_constName h,
    and_comm]

/-- **The passes agree.**  In every struct that is accepted, for every state and every update,
`apply` and `try_apply` do the same, mark the fields that are set and no others, store by the kind
of the reducer, and number the fields as the constants and the lists of indices do. -/
theorem generated_agree (h : Accepted toUppercase F) (state : Record F) (update : Record.Change F) :
    Agrees toUppercase state update where
  tryApply := by rw [tryApply_eq_record h, apply_eq_record h, Record.tryApply_eq]
  changed idx := by
    rw [apply_eq_record h, Record.hasField_apply (checkFieldCount_eq_ok h.fieldCount).2]
    simp only [constant_constName h]
  unset i hi := by rw [apply_eq_record h, Record.apply_field, hi]; rfl
  append i extend v hr hv := by
    have happly : (apply toUppercase state update).1 i = extend (state i) v := by
      rw [apply_eq_record h, Record.apply_field, hv, hr]
      rfl
    exact ⟨happly, fun items hitems => by rw [happly, hitems]⟩
  assigned i v hnot hnot' hv := by
    rw [apply_eq_record h, Record.apply_field, hv]
    cases hr : (F i).reducer with
    | append extend => exact absurd hr (hnot extend)
    | custom func => exact absurd hr (hnot' func)
    | replace | ephemeral | lastWriteWins | untracked | replaceAfterFinish | any => rfl
  constants := constant_constName h
  fieldIsSet idx := by
    rw [fieldIsSet_eq_record, Record.fieldIsSet]
    simp only [constant_constName h]
    by_cases hidx : idx < n
    · rw [dif_pos hidx]
      constructor
      · exact fun hset => ⟨⟨idx, hidx⟩, rfl, hset⟩
      · rintro ⟨i, rfl, hset⟩
        exact hset
    · rw [dif_neg hidx]
      constructor
      · exact fun hset => nomatch hset
      · rintro ⟨i, rfl, -⟩
        exact absurd i.isLt hidx
  replace := mem_filter_zipIdx_iff h fun i => (F i).reducer.isReplace
  replaceAfterFinish := mem_filter_zipIdx_iff h fun i => (F i).reducer.isReplaceAfterFinish
  consume := mem_filter_zipIdx_iff h fun i => (F i).reducer.isEphemeral

/-- A struct with a log, which is extended, and a status. -/
def ticket : Fin 2 → FieldDecl
  | 0 => {
      name := "log", T := List ℕ, reducer := .append fun a b => a ++ b, default := []
      toValue := fun v => .ok (.arr (v.map .num)), fromValue := fun _ => .error "" }
  | 1 => {
      name := "status", T := ℕ, default := 0
      toValue := fun v => .ok (.num v), fromValue := fun _ => .error "" }

/-- `to_uppercase` on the names of the fields. -/
def ticketUppercase : String → String
  | "log" => "LOG"
  | "status" => "STATUS"
  | name => name

/-- A ticket with one entry, and an update that adds a second one. -/
def ticketOpened : Record ticket × Record.Change ticket :=
  (fun | 0 => [1] | 1 => (0 : ℕ), fun | 0 => some [2] | 1 => none)

theorem ticket_accepted : Accepted ticketUppercase ticket := ⟨rfl, by decide⟩

/-- The passes agree, and the update is appended. -/
theorem ticket_agrees : Agrees ticketUppercase ticketOpened.1 ticketOpened.2 ∧
    (apply ticketUppercase ticketOpened.1 ticketOpened.2).1 0 = [1, 2] :=
  have hagrees : Agrees ticketUppercase ticketOpened.1 ticketOpened.2 :=
    generated_agree ticket_accepted ticketOpened.1 ticketOpened.2
  ⟨hagrees, (hagrees.append 0 _ [2] rfl rfl).1⟩

end DeriveState

end Juncture
