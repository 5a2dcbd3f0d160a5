import Juncture.Core.DeriveState
import Juncture.Lib.ExceptFold
import Juncture.Pregel.Runner

/-!
# Are the pending writes of a task its update?

The runner files what a task has written as one pending write for each member of the serialized
update that is not `null`.  A field that is absent is `null`, and so is one that is set to a value
whose JSON form is `null`; when one field does not serialize, nothing is filed.

`readBack_iff` : reading the writes back and applying them does what the update does exactly when
each field that is set is serialized, to something else than `null`, and is read as a value that its
reducer does not tell from the original one.
-/

namespace Juncture

variable {n : ℕ} {F : Fin n → FieldDecl}

namespace Record

/-- Reading the writes of a task back: each field from the channel of its name. -/
def readBack (F : Fin n → FieldDecl) (writes : List PendingWrite) : Change F := fun i =>
  (writes.find? fun w => w.channel == (F i).name).bind fun w => ((F i).fromValue w.value).toOption

/-- A value of a field comes through JSON. -/
def Survives (F : Fin n → FieldDecl) (i : Fin n) (v : (F i).T) : Prop :=
  ∃ json v', (F i).toValue v = .ok json ∧ json ≠ .null ∧ (F i).fromValue json = .ok v' ∧
    ∀ current, (F i).reducer.apply current v' = (F i).reducer.apply current v

/-- The JSON form of a field of an update. -/
def fieldJson (u : Change F) (i : Fin n) : Except String Json := (u i).elim (.ok .null) (F i).toValue

/-- What a field of an update is read back as, if all fields are serialized. -/
def reread (u : Change F) (i : Fin n) : Option (F i).T :=
  match fieldJson u i with
  | .ok json => if json = .null then none else ((F i).fromValue json).toOption
  | .error _ => none

theorem Change.toJson_eq (u : Change F) : u.toJson =
    ((List.finRange n).mapM fun i => (fieldJson u i).map fun v => ((F i).name, v)).map .obj := rfl

/-- Nothing is filed when a field does not serialize. -/
theorem serializePendingWrites_of_error {u : Change F} {i : Fin n} {e : String}
    (h : fieldJson u i = .error e) (taskId : Uuid) :
    serializePendingWrites (S := Record F) taskId u = [] := by
  have hfails : ∀ v, u.toJson ≠ .ok v := by
    intro v hv
    rw [Change.toJson_eq, ExceptFold.map_eq_ok_iff] at hv
    obtain ⟨members, hmembers, -⟩ := hv
    obtain ⟨m, hm⟩ := ExceptFold.mapM_ok_iff_forall.mp ⟨members, hmembers⟩ i (List.mem_finRange i)
    rw [h] at hm
    cases hm
  have hjson : State.updateToValue (S := Record F) u = u.toJson := rfl
  unfold serializePendingWrites
  split
  · rename_i members hok
    exact absurd (hjson.symm.trans hok) (hfails _)
  · rfl

/-- What is filed when every field serializes. -/
theorem serializePendingWrites_of_ok {u : Change F} {json : Fin n → Json}
    (h : ∀ i, fieldJson u i = .ok (json i)) (taskId : Uuid) :
    serializePendingWrites (S := Record F) taskId u =
      ((List.finRange n).filter fun i => json i != .null).map fun i =>
        ⟨taskId, (F i).name, json i⟩ := by
  have hjson : State.updateToValue (S := Record F) u =
      .ok (.obj ((List.finRange n).map fun i => ((F i).name, json i))) := by
    refine (Change.toJson_eq u).trans (ExceptFold.map_eq_ok_iff.2 ⟨_, ?_, rfl⟩)
    refine ExceptFold.mapM_eq_ok_iff.2 (List.forall₂_map_right_iff.2 (List.forall₂_same.2 ?_))
    exact fun i _ => congrArg (Except.map fun v => ((F i).name, v)) (h i)
  rw [serializePendingWrites, hjson]
  simp only [List.filter_map, List.map_map]
  rfl

/-- **What is read back.**  If every field serializes, each is read back on its own. -/
theorem readBack_serializePendingWrites {toUppercase : String → String}
    (hF : DeriveState.Accepted toUppercase F) {u : Change F} {json : Fin n → Json}
    (h : ∀ i, fieldJson u i = .ok (json i)) (taskId : Uuid) :
    readBack F (serializePendingWrites (S := Record F) taskId u) = reread u := by
  funext i
  have hname : ∀ j, (F j).name = (F i).name → j = i := by
    intro j hj
    have hconst := DeriveState.constant_constName hF j
    rw [hj, DeriveState.constant_constName hF i] at hconst
    exact Fin.ext hconst.symm
  rw [readBack, serializePendingWrites_of_ok h, List.find?_map, List.find?_filter, reread, h i]
  by_cases hnull : json i = .null
  · have hnone : (List.finRange n).find? (fun j => decide (json j != .null ∧
        ((fun w : PendingWrite => w.channel == (F i).name) ∘
          fun j => ⟨taskId, (F j).name, json j⟩) j)) = none := by
      refine List.find?_eq_none.2 fun j _ hj => ?_
      simp only [Function.comp, bne_iff_ne, beq_iff_eq, decide_eq_true_eq] at hj
      exact hj.1 (hname j hj.2 ▸ hnull)
    rw [hnone]
    exact (if_pos hnull).symm
  · have hsome : (List.finRange n).find? (fun j => decide (json j != .null ∧
        ((fun w : PendingWrite => w.channel == (F i).name) ∘
          fun j => ⟨taskId, (F j).name, json j⟩) j)) = some i := by
      refine DeriveState.find?_fieldNames ?_ fun j hj => ?_
      · simpa using hnull
      · simp only [Function.comp, bne_iff_ne, beq_iff_eq, decide_eq_true_eq] at hj
        exact hname j hj.2
    rw [hsome]
    exact (if_neg hnull).symm

/-- **When two updates do the same**: they set the same fields, to values that the reducers do not
tell apart. -/
theorem apply_eq_apply_iff (hn : n ≤ 64) {u u' : Change F} :
    (∀ s : Record F, apply s u = apply s u') ↔ ∀ i, (u i).isSome = (u' i).isSome ∧
      ∀ v v', u i = some v → u' i = some v' →
        ∀ current, (F i).reducer.apply current v = (F i).reducer.apply current v' := by
  constructor
  · intro h i
    have initial : Record F := fun j => (F j).default
    refine ⟨?_, fun v v' hv hv' current => ?_⟩
    · have hset : ∀ u : Change F, (apply initial u).2.hasField i.val = true ↔
          (u i).isSome = true := by
        intro u
        rw [hasField_apply hn]
        exact ⟨fun ⟨j, hj, hu⟩ => Fin.ext hj ▸ hu, fun hu => ⟨i, rfl, hu⟩⟩
      rw [Bool.eq_iff_iff, ← hset u, ← hset u', h]
    · -- a state with the current value in the field
      have hfield := congrFun (congrArg Prod.fst
        (h (DeriveState.assign initial i current))) i
      rw [apply_field, apply_field, hv, hv', DeriveState.assign_self] at hfield
      exact hfield
  · intro h s
    refine Prod.ext (funext fun i => ?_) ?_
    · obtain ⟨hsome, hsame⟩ := h i
      rw [apply_field, apply_field]
      cases hv : u i with
      | none =>
        have hv' : u' i = none := by simpa [hv] using hsome.symm
        rw [hv']
      | some v =>
        obtain ⟨v', hv'⟩ := Option.isSome_iff_exists.1 (hsome.symm.trans (by rw [hv]; rfl))
        rw [hv']
        exact hsame v v' hv hv' (s i)
    · have hbits : ∀ i, (u i).isSome = (u' i).isSome := fun i => (h i).1
      simp only [apply, hbits]

theorem toOption_eq_some_iff {α : Type} {x : Except String α} {a : α} :
    x.toOption = some a ↔ x = .ok a := by
  cases x <;> simp [Except.toOption]

/-- What a field that is set is reread as. -/
theorem reread_eq_some_iff {u : Change F} {i : Fin n} {v' : (F i).T} : reread u i = some v' ↔
    ∃ v json, u i = some v ∧ (F i).toValue v = .ok json ∧ json ≠ .null ∧
      (F i).fromValue json = .ok v' := by
  have hfield : ∀ v, u i = some v → fieldJson u i = (F i).toValue v := by
    intro v hv
    rw [fieldJson, hv]
    rfl
  constructor
  · intro h
    cases hu : u i with
    | none => simp [reread, fieldJson, hu] at h
    | some v =>
      rw [reread, hfield v hu] at h
      cases hjson : (F i).toValue v with
      | error e => simp [hjson] at h
      | ok json =>
        simp only [hjson] at h
        split_ifs at h with hnull
        exact ⟨v, json, rfl, hjson, hnull, toOption_eq_some_iff.1 h⟩
  · rintro ⟨v, json, hu, hjson, hnull, hread⟩
    rw [reread, hfield v hu, hjson]
    simp only [hnull, if_false, hread]
    rfl

/-- **When the pending writes are the update.**  Whatever the state, applying what is read back does
what the update does exactly when every field that is set comes through JSON. -/
theorem readBack_iff {toUppercase : String → String} (hF : DeriveState.Accepted toUppercase F)
    (taskId : Uuid) (u : Change F) :
    (∀ s : Record F,
      apply s (readBack F (serializePendingWrites (S := Record F) taskId u)) = apply s u) ↔
        ∀ i v, u i = some v → Survives F i v := by
  have hn : n ≤ 64 := (DeriveState.checkFieldCount_eq_ok hF.fieldCount).2
  rw [apply_eq_apply_iff hn]
  by_cases hall : ∀ i, ∃ json, fieldJson u i = .ok json
  · choose json hjson using hall
    rw [readBack_serializePendingWrites hF hjson]
    constructor
    · intro h i v hv
      obtain ⟨hsome, hsame⟩ := h i
      rw [hv] at hsome
      obtain ⟨v', hv'⟩ := Option.isSome_iff_exists.1 hsome
      obtain ⟨w, j, hw, hj, hnull, hread⟩ := reread_eq_some_iff.1 hv'
      obtain rfl : v = w := Option.some.inj (hv.symm.trans hw)
      exact ⟨j, v', hj, hnull, hread, hsame v' v hv' hv⟩
    · intro h i
      cases hu : u i with
      | none =>
        have hnone : reread u i = none := by simp [reread, fieldJson, hu]
        rw [hnone]
        exact ⟨rfl, fun v v' hv => nomatch hv⟩
      | some v =>
        obtain ⟨j, v', hj, hnull, hread, hsame⟩ := h i v hu
        rw [reread_eq_some_iff.2 ⟨v, j, hu, hj, hnull, hread⟩]
        refine ⟨rfl, fun w w' hw hw' => ?_⟩
        obtain rfl := Option.some.inj hw
        obtain rfl := Option.some.inj hw'
        exact hsame
  · -- nothing is filed, although a field is set
    push Not at hall
    obtain ⟨i, hi⟩ := hall
    obtain ⟨v, e, hv, he⟩ : ∃ v e, u i = some v ∧ (F i).toValue v = .error e := by
      cases hu : u i with
      | none => exact absurd (by rw [fieldJson, hu]; rfl) (hi .null)
      | some v =>
        cases hjson : (F i).toValue v with
        | error e => exact ⟨v, e, rfl, hjson⟩
        | ok json => exact absurd (by rw [fieldJson, hu]; exact hjson) (hi json)
    have hfield : fieldJson u i = .error e := by rw [fieldJson, hv]; exact he
    rw [serializePendingWrites_of_error hfield]
    constructor
    · intro h
      have hsome := (h i).1
      rw [hv] at hsome
      cases hsome
    · intro h
      obtain ⟨json, -, hjson, -⟩ := h i v hv
      rw [he] at hjson
      cases hjson

end Record

/-- A struct with an optional note. -/
def memo : Fin 1 → FieldDecl := fun _ => {
  name := "note", T := Option ℕ, default := none
  toValue := fun v => .ok (v.elim .null fun k => .num k)
  fromValue := fun
    | .null => .ok none
    | .num k => .ok (some k.toNat)
    | _ => .error "invalid type" }

theorem memo_accepted : DeriveState.Accepted (fun _ => "NOTE") memo := ⟨rfl, by decide⟩

/-- The update that sets the note. -/
def writeNote (note : Option ℕ) : Record.Change memo := fun _ => some note

/-- A note that is taken away: nothing is filed, so that it stays. -/
theorem memo_cleared : serializePendingWrites (S := Record memo) 0 (writeNote none) = [] ∧
    ¬ ∀ s : Record memo, Record.apply s (Record.readBack memo
      (serializePendingWrites (S := Record memo) 0 (writeNote none))) =
        Record.apply s (writeNote none) := by
  refine ⟨rfl, fun h => ?_⟩
  have hnote := congrFun (congrArg Prod.fst (h fun _ => some 5)) 0
  change some 5 = none at hnote
  cases hnote

/-- A note that is written is filed as it is. -/
theorem memo_written : Record.apply (fun _ => some 5) (Record.readBack memo
    (serializePendingWrites (S := Record memo) 0 (writeNote (some 7)))) =
      Record.apply (fun _ => some 5) (writeNote (some 7)) := by
  refine (Record.readBack_iff memo_accepted 0 (writeNote (some 7))).2 (fun i v hv => ?_) _
  obtain rfl := Option.some.inj hv
  exact ⟨.num 7, some 7, rfl, by decide, rfl, fun _ => rfl⟩

end Juncture
