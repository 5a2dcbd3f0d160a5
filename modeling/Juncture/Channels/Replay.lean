import Juncture.Channels.Types
import Mathlib.Data.List.DropRight

/-!
# Replayed writes

A `DeltaChannel` can be brought up to date by all the writes since its last snapshot at once.  They should
have the effect they had one superstep after the other.  But they are handed to the reducer as one batch,
which two of the reducers of the library may refuse; and a value whose JSON form looks like that of an
overwrite is taken for one.

* `DeltaChannel.replayWrites` : the replay.
* `replays_iff` : when it has the effect of the updates.
-/

namespace Juncture

/-- `Serialize` and `DeserializeOwned` of a type, whatever they do. -/
structure SerdeImpl (T : Type) where
  /-- `serde_json::to_value`. -/
  toValue : T → Except String Json
  /-- `serde_json::from_value`. -/
  fromValue : Json → Except String T

/-- A `Vec` is an array. -/
def SerdeImpl.vec {T : Type} (s : SerdeImpl T) : SerdeImpl (List T) where
  toValue vs := (vs.mapM s.toValue).map .arr
  fromValue
    | .arr js => js.mapM s.fromValue
    | _ => .error "expected a sequence"

/-- The instances of a `Serde`. -/
def SerdeImpl.of (T : Type) [Serde T] : SerdeImpl T := ⟨Serde.toValue, Serde.fromValue⟩

/-- `AnyValueReducer`, which compares the values where assertions are checked; `eq` is `PartialEq`. -/
def anyValueReducer {T : Type} (debugAssertions : Bool) (eq : T → T → Bool) : Reducer T where
  reduce current values :=
    match values.head?, values.getLast? with
    | some first, some last =>
      if debugAssertions && !values.all fun v => eq v first then none else some last
    | _, _ => some current

namespace DeltaChannel

variable {T : Type}

/-- What a value that looks like an overwrite overwrites with. -/
def overwritten (s : SerdeImpl T) (v : T) : Option T :=
  match s.toValue v with
  | .ok (.obj kvs) => (Json.get (.obj kvs) "__overwrite__").bind fun inner => (s.fromValue inner).toOption
  | _ => none

/-- The last overwrite, with the index after it, or what there is to start with. -/
def baseline (s : SerdeImpl T) (value : T) (values : List T) : T × ℕ :=
  values.zipIdx.foldl (fun base (v, i) =>
    match overwritten s v with
    | some inner => (inner, i + 1)
    | none => base) (value, 0)

/-- `replay_writes`. -/
def replayWrites (r : Reducer T) (s : SerdeImpl T) (ch : DeltaChannel T) (values : List T) :
    Option (DeltaChannel T) :=
  if values.isEmpty then some ch
  else
    let (base, startIdx) := baseline s ch.value values
    let remaining := values.drop startIdx
    (if remaining.isEmpty then some base else r.reduce base remaining).map fun value =>
      { ch with value, updateCountSinceSnapshot := 0 }

/-- The channel after an update for each of the values, unless one of them panics. -/
def updateEach (r : Reducer T) (ch : DeltaChannel T) (values : List T) : Option (DeltaChannel T) :=
  values.foldlM (fun ch v => (ch.update r [v]).map Prod.fst) ch

/-- If all values are accepted one by one, their replay gives the value that they give. -/
def Replays (r : Reducer T) (s : SerdeImpl T) (ch : DeltaChannel T) (values : List T) : Prop :=
  ∀ ch', ch.updateEach r values = some ch' →
    ∃ ch'', ch.replayWrites r s values = some ch'' ∧ ch''.value = ch'.value

/-- The values behind the last that looks like an overwrite. -/
def remaining (s : SerdeImpl T) (values : List T) : List T :=
  values.rtakeWhile fun v => (overwritten s v).isNone

/-! ### The replay -/

section Baseline

variable (s : SerdeImpl T) (value : T)

theorem baseline_concat (values : List T) (v : T) :
    baseline s value (values ++ [v]) = match overwritten s v with
      | some inner => (inner, values.length + 1)
      | none => baseline s value values := by
  rw [baseline, List.zipIdx_append, List.foldl_append]
  simp only [List.zipIdx_singleton, List.foldl_cons, List.foldl_nil, Nat.zero_add]
  rfl

theorem remaining_concat (values : List T) (v : T) :
    remaining s (values ++ [v]) =
      if (overwritten s v).isNone then remaining s values ++ [v] else [] :=
  List.rtakeWhile_concat _ _ _

theorem baseline_snd_le (values : List T) : (baseline s value values).2 ≤ values.length := by
  induction values using List.reverseRecOn with
  | nil => exact le_rfl
  | append_singleton values v ih =>
    rw [baseline_concat, List.length_append, List.length_singleton]
    cases overwritten s v with
    | none => exact ih.trans (Nat.le_succ _)
    | some inner => exact le_rfl

/-- What is handed to the reducer is what stands behind the last overwrite. -/
theorem drop_baseline (values : List T) :
    values.drop (baseline s value values).2 = remaining s values := by
  induction values using List.reverseRecOn with
  | nil => rfl
  | append_singleton values v ih =>
    rw [baseline_concat, remaining_concat]
    cases overwritten s v with
    | none =>
      simp only [Option.isNone_none, ↓reduceIte]
      rw [List.drop_append_of_le_length (baseline_snd_le s value values), ih]
    | some inner => simp

/-- If nothing stands behind it, the last value is an overwrite. -/
theorem baseline_of_remaining_nil {values : List T} (hne : values ≠ [])
    (h : remaining s values = []) :
    ∃ v ∈ values.getLast?, overwritten s v = some (baseline s value values).1 := by
  induction values using List.reverseRecOn with
  | nil => exact absurd rfl hne
  | append_singleton values v ih =>
    refine ⟨v, List.getLast?_concat, ?_⟩
    rw [remaining_concat] at h
    rw [baseline_concat]
    cases hv : overwritten s v with
    | none => simp [hv] at h
    | some inner => rfl

theorem getLast?_remaining {values : List T} (h : remaining s values ≠ []) :
    (remaining s values).getLast? = values.getLast? ∧
      ∀ v ∈ values.getLast?, overwritten s v = none := by
  induction values using List.reverseRecOn with
  | nil => exact absurd rfl h
  | append_singleton values v ih =>
    rw [remaining_concat] at h ⊢
    cases hv : overwritten s v with
    | none => simp [hv]
    | some inner => simp [hv] at h

end Baseline

theorem value_replayWrites (r : Reducer T) (s : SerdeImpl T) (ch : DeltaChannel T) {values : List T}
    (hne : values ≠ []) : (ch.replayWrites r s values).map value =
      if remaining s values = [] then some (baseline s ch.value values).1
      else r.reduce (baseline s ch.value values).1 (remaining s values) := by
  rw [replayWrites, if_neg (by simpa using hne)]
  simp only [drop_baseline, Option.map_map, Function.comp_def, Option.map_id', List.isEmpty_iff]

theorem Replays.iff_value {r : Reducer T} {s : SerdeImpl T} {ch : DeltaChannel T} {values : List T} :
    ch.Replays r s values ↔ ∀ v ∈ (ch.updateEach r values).map value,
      (ch.replayWrites r s values).map value = some v := by
  simp [Replays, Option.map_eq_some_iff]

/-! ### The reducers of the library -/

/-- A reducer of the library that keeps one of the values it is given; `AppendReducer` is the other one. -/
inductive LibraryReducer (T : Type) where
  | replace
  | anyValue (debugAssertions : Bool) (eq : T → T → Bool)
  | lastWriteWins

namespace LibraryReducer

/-- The reducer. -/
def reducer : LibraryReducer T → Reducer T
  | .replace => replaceReducer T
  | .anyValue debugAssertions eq => anyValueReducer debugAssertions eq
  | .lastWriteWins => lastWriteWinsReducer T

/-- The assertions of the reducer hold of a batch. -/
def takes : LibraryReducer T → List T → Bool
  | .replace, values => decide (values.length ≤ 1)
  | .anyValue debugAssertions eq, values =>
    !debugAssertions || values.head?.all fun first => values.all fun v => eq v first
  | .lastWriteWins, _ => true

/-- It takes the batch that the replay hands to it, and a last value that looks like an overwrite overwrites
with itself; nothing is asked of values that it does not take one by one. -/
def Replayable (kind : LibraryReducer T) (s : SerdeImpl T) (values : List T) : Prop :=
  (∀ v ∈ values, kind.takes [v] = true) →
    kind.takes (remaining s values) = true ∧
      ∀ v ∈ values.getLast?, ∀ inner ∈ overwritten s v, inner = v

/-- The last value is kept. -/
theorem reduce_eq (kind : LibraryReducer T) (current : T) (values : List T) :
    kind.reducer.reduce current values =
      if kind.takes values then some (values.getLast?.getD current) else none := by
  cases kind with
  | replace =>
    match values with
    | [] => rfl
    | [v] => rfl
    | v :: w :: rest => simp [reducer, replaceReducer, takes]
  | anyValue debugAssertions eq =>
    cases values with
    | nil => simp [reducer, anyValueReducer, takes]
    | cons v rest =>
      simp only [reducer, anyValueReducer, takes, List.head?_cons, Option.all_some,
        List.getLast?_cons, Option.getD_some]
      cases debugAssertions <;> cases (v :: rest).all fun w => eq w v <;> rfl
  | lastWriteWins => simp [reducer, lastWriteWinsReducer, takes]

theorem update_one (kind : LibraryReducer T) (ch : DeltaChannel T) (v : T) :
    (ch.update kind.reducer [v]).map Prod.fst = if kind.takes [v] then
      some { ch with value := v, updateCountSinceSnapshot := ch.updateCountSinceSnapshot + 1 }
    else none := by
  simp only [update, List.isEmpty_cons, Bool.false_eq_true, ↓reduceIte, reduce_eq]
  cases kind.takes [v] <;> rfl

/-- One by one, the last value is kept, if all are taken. -/
theorem updateEach_eq (kind : LibraryReducer T) (ch : DeltaChannel T) (values : List T) :
    (ch.updateEach kind.reducer values).map value =
      if ∀ v ∈ values, kind.takes [v] = true then some (values.getLast?.getD ch.value) else none := by
  induction values generalizing ch with
  | nil => simp [updateEach]
  | cons v values ih =>
    rw [updateEach, List.foldlM_cons, Option.bind_eq_bind, update_one]
    simp only [List.forall_mem_cons]
    cases hv : kind.takes [v] with
    | false => simp
    | true =>
      simp only [↓reduceIte, Option.bind_some, true_and]
      refine (ih _).trans ?_
      rw [List.getLast?_cons, Option.getD_some]

/-- As a batch, the last value is kept, if what stands behind the last overwrite is taken; or what the last
value overwrites with, if it is one. -/
theorem replayWrites_eq (kind : LibraryReducer T) (s : SerdeImpl T) (ch : DeltaChannel T)
    {values : List T} {v : T} (hv : values.getLast? = some v) :
    (ch.replayWrites kind.reducer s values).map value =
      if kind.takes (remaining s values) then some ((overwritten s v).getD v) else none := by
  have hnil : values ≠ [] := by
    rintro rfl
    cases hv
  rw [value_replayWrites kind.reducer s ch hnil]
  by_cases hrest : remaining s values = []
  · obtain ⟨w, hw, hover⟩ := baseline_of_remaining_nil s ch.value hnil hrest
    obtain rfl : v = w := Option.some.inj (hv.symm.trans hw)
    have htakes : kind.takes [] = true := by cases kind <;> simp [takes]
    rw [if_pos hrest, hrest, if_pos htakes, hover, Option.getD_some]
  · obtain ⟨hlast, hplain⟩ := getLast?_remaining s hrest
    rw [if_neg hrest, reduce_eq, hlast, hv, hplain v hv, Option.getD_some, Option.getD_none]

/-- **When a replay has the effect of the updates.** -/
theorem replays_iff (kind : LibraryReducer T) (s : SerdeImpl T) (ch : DeltaChannel T)
    (values : List T) : ch.Replays kind.reducer s values ↔ kind.Replayable s values := by
  rw [Replays.iff_value, updateEach_eq, Replayable]
  by_cases hall : ∀ v ∈ values, kind.takes [v] = true
  · rw [if_pos hall, forall_prop_of_true hall]
    cases hlast : values.getLast? with
    | none =>
      obtain rfl := List.getLast?_eq_none_iff.mp hlast
      have htakes : kind.takes (remaining s []) = true := by cases kind <;> simp [takes, remaining]
      simp [htakes, replayWrites]
    | some v =>
      rw [replayWrites_eq kind s ch hlast]
      cases kind.takes (remaining s values) <;> cases hover : overwritten s v <;> simp [hover]
  · rw [if_neg hall]
    exact iff_of_true (fun v hv => by cases hv) fun h => absurd h hall

end LibraryReducer

/-! ### `AppendReducer` -/

section Append

variable {U : Type} (s : SerdeImpl U)

/-- A list is no object, so that it does not look like an overwrite. -/
theorem overwritten_vec (v : List U) : overwritten s.vec v = none := by
  simp only [overwritten, SerdeImpl.vec]
  cases v.mapM s.toValue <;> rfl

theorem baseline_vec (value : List U) (values : List (List U)) :
    baseline s.vec value values = (value, 0) := by
  induction values using List.reverseRecOn with
  | nil => rfl
  | append_singleton values v ih => rw [baseline_concat, overwritten_vec, ih]

theorem updateEach_append (ch : DeltaChannel (List U)) (values : List (List U)) :
    (ch.updateEach (appendReducer U) values).map value = some (ch.value ++ values.flatten) := by
  induction values generalizing ch with
  | nil => simp [updateEach]
  | cons v values ih =>
    rw [updateEach, List.foldlM_cons, List.flatten_cons, ← List.append_assoc]
    refine (ih _).trans ?_
    simp

/-- Lists are appended one by one or all at once. -/
theorem replays_append (ch : DeltaChannel (List U)) (values : List (List U)) :
    ch.Replays (appendReducer U) s.vec values := by
  rw [Replays.iff_value, updateEach_append]
  rintro v hv
  obtain rfl := Option.some.inj hv
  by_cases hnil : values = []
  · simp [hnil, replayWrites]
  · have hrest : remaining s.vec values = values := by
      rw [← drop_baseline s.vec ch.value, baseline_vec, List.drop_zero]
    rw [value_replayWrites _ _ _ hnil, hrest, if_neg hnil, baseline_vec]
    rfl

end Append

/-- **Which sequences of updates can be replayed**, for each reducer of the library. -/
theorem library_replays_iff {T U : Type} (kind : LibraryReducer T) (s : SerdeImpl T) (t : SerdeImpl U)
    (ch : DeltaChannel T) (values : List T) (appending : DeltaChannel (List U)) (lists : List (List U)) :
    (ch.Replays kind.reducer s values ↔ kind.Replayable s values) ∧
      appending.Replays (appendReducer U) t.vec lists :=
  ⟨kind.replays_iff s ch values, replays_append t appending lists⟩

/-- Two updates of a number are accepted one after the other, but not as a batch. -/
theorem twoNumbers_not_replayed :
    ¬ (DeltaChannel.new 0 10).Replays (replaceReducer ℤ) (.of ℤ) [1, 2] := by
  intro h
  exact absurd ((LibraryReducer.replays_iff .replace _ _ _).mp h (by simp [LibraryReducer.takes])).1
    (by decide)

end DeltaChannel

end Juncture
