import Juncture.Lib.KeyedMerge
import Juncture.Pregel.Types
import Juncture.Pregel.Versions

/-!
# Merging the writes of a superstep

`applyWrites` refuses a superstep in which two outputs write one replace field, then applies the
updates one after the other, PULL outputs in node registration order before PUSH outputs in send
order.  It mutates the state in place: when an update is rejected, the updates before it have been
applied and the versions have not been bumped.

* `applyWrites_eq` : `applyWrites` as a conflict check followed by `mergeAll`, the fold of
  `tryApply` over the updates in merge order (`mergedUpdates`).
* `checkReplaceConflicts_eq_ok_iff` : the conflict check accepts exactly the batches without two
  conflicting updates.
-/

namespace Juncture

variable {S : Type} [State S]

/-- `usize::MAX`, the registration index of an unknown node. -/
def usizeMax : ℕ := 2 ^ 64 - 1

/-! ### Merge order -/

/-- What outputs are ordered by: registration index for PULL, send index for PUSH. -/
inductive MergeKey where
  | pull (registration : ℕ)
  | push (index : ℕ)
deriving DecidableEq

namespace MergeKey

/-- The comparison of `apply_writes`: PULL before PUSH, then by index. -/
def le : MergeKey → MergeKey → Prop
  | pull a, pull b => a ≤ b
  | push a, push b => a ≤ b
  | pull _, push _ => True
  | push _, pull _ => False

instance : DecidableRel le := fun a b =>
  match a, b with
  | pull a, pull b => inferInstanceAs (Decidable (a ≤ b))
  | push a, push b => inferInstanceAs (Decidable (a ≤ b))
  | pull _, push _ => inferInstanceAs (Decidable True)
  | push _, pull _ => inferInstanceAs (Decidable False)

instance : Std.Total le where
  total a b := by cases a <;> cases b <;> grind [le]

instance : IsTrans MergeKey le where
  trans a b c := by cases a <;> cases b <;> cases c <;> grind [le]

instance : Std.Antisymm le where
  antisymm a b := by cases a <;> cases b <;> grind [le]

theorem le_refl (k : MergeKey) : le k k := by cases k <;> simp [le]

end MergeKey

/-- The key of a task or output with the given trigger and node. -/
def triggerKey (nodeRegistration : Dict ℕ) (trigger : TaskTrigger) (nodeName : String) : MergeKey :=
  match trigger with
  | .pull => .pull ((nodeRegistration.lookup nodeName).getD usizeMax)
  | .push index => .push index

/-- The key of an output. -/
def outputKey (nodeRegistration : Dict ℕ) (o : TaskOutput S) : MergeKey :=
  triggerKey nodeRegistration o.trigger o.nodeName

/-- The updates of a batch. -/
def updates (outputs : List (TaskOutput S)) : List (Update S) :=
  outputs.filterMap fun o => o.command.update

/-- The updates of a batch in merge order (`sort_by` is stable). -/
def mergedUpdates (nodeRegistration : Dict ℕ) (outputs : List (TaskOutput S)) : List (Update S) :=
  updates (KeyedMerge.sortByKey MergeKey.le (outputKey nodeRegistration) outputs)

theorem mergedUpdates_perm (nodeRegistration : Dict ℕ) (outputs : List (TaskOutput S)) :
    (mergedUpdates nodeRegistration outputs).Perm (updates outputs) :=
  (KeyedMerge.sortByKey_perm ..).filterMap _

/-! ### Replace conflicts -/

/-- The outputs that write a field. -/
def fieldWriters (outputs : List (TaskOutput S)) (fieldIdx : ℕ) : List String :=
  (outputs.filter fun o => o.command.update.any fun u => State.fieldIsSet u fieldIdx).map
    TaskOutput.nodeName

/-- `check_replace_conflicts_from_state`: the first replace field with two writers. -/
def checkReplaceConflicts (outputs : List (TaskOutput S)) : Except JunctureError Unit :=
  match (State.replaceFieldIndices S).find? fun i => decide (1 < (fieldWriters outputs i).length)
  with
  | some i => .error (.multipleWriters i (fieldWriters outputs i))
  | none => .ok ()

/-- Both updates write one replace field. -/
def Conflicting (u u' : Update S) : Prop :=
  ∃ i ∈ State.replaceFieldIndices S, State.fieldIsSet u i = true ∧ State.fieldIsSet u' i = true

theorem Conflicting.symm {u u' : Update S} (h : Conflicting u u') : Conflicting u' u := by
  obtain ⟨i, hi, h₁, h₂⟩ := h
  exact ⟨i, hi, h₂, h₁⟩

theorem length_fieldWriters (outputs : List (TaskOutput S)) (i : ℕ) :
    (fieldWriters outputs i).length =
      ((updates outputs).filter fun u => State.fieldIsSet u i).length := by
  induction outputs with
  | nil => rfl
  | cons o os ih =>
    cases hu : o.command.update with
    | none =>
      simp only [fieldWriters, updates, List.filterMap_cons, List.filter_cons, hu, Option.any_none,
        Bool.false_eq_true, if_false] at ih ⊢
      exact ih
    | some u =>
      simp only [fieldWriters, updates, List.filterMap_cons, List.filter_cons, hu,
        Option.any_some] at ih ⊢
      split_ifs <;> simp_all

theorem length_filter_le_one_iff {α : Type*} (p : α → Bool) (l : List α) :
    (l.filter p).length ≤ 1 ↔ l.Pairwise fun a b => ¬ (p a = true ∧ p b = true) := by
  induction l with
  | nil => simp
  | cons a l ih =>
    by_cases ha : p a = true
    · simp only [List.filter_cons, ha, if_true, List.length_cons, List.pairwise_cons, true_and]
      rw [← ih]
      have hnil : (∀ b ∈ l, ¬ p b = true) ↔ (l.filter p).length = 0 := by
        rw [List.length_eq_zero_iff, List.filter_eq_nil_iff]
      rw [hnil]
      omega
    · simp [ha, ih]

/-- **The conflict check accepts exactly the batches without conflicting updates.** -/
theorem checkReplaceConflicts_eq_ok_iff (outputs : List (TaskOutput S)) :
    checkReplaceConflicts outputs = .ok () ↔
      (updates outputs).Pairwise fun u u' => ¬ Conflicting u u' := by
  have hfind : checkReplaceConflicts outputs = .ok () ↔
      ∀ i ∈ State.replaceFieldIndices S, (fieldWriters outputs i).length ≤ 1 := by
    unfold checkReplaceConflicts
    split
    · rename_i i hi
      refine ⟨fun h => (by cases h), fun h => ?_⟩
      have := h i (List.mem_of_find?_eq_some hi)
      have := List.find?_some hi
      simp only [decide_eq_true_eq] at this
      omega
    · rename_i hi
      rw [List.find?_eq_none] at hi
      simpa using hi
  rw [hfind]
  simp only [length_fieldWriters, length_filter_le_one_iff, Conflicting, not_exists, not_and]
  constructor
  · intro h
    exact (List.pairwise_iff_forall_sublist).2 fun {u u'} hs i hi h₁ h₂ =>
      (List.pairwise_iff_forall_sublist).1 (h i hi) hs h₁ h₂
  · intro h i hi
    exact h.imp fun hu h₁ h₂ => hu i hi h₁ h₂

/-! ### Applying -/

/-- The loop of `apply_writes` over the sorted updates: the state it leaves behind, and the fields
changed or the rejection. -/
def applyUpdates (state : S) (changed : FieldsChanged) :
    List (Update S) → S × Except JunctureError FieldsChanged
  | [] => (state, .ok changed)
  | u :: us =>
    match State.tryApply state u with
    | (state', .ok c) => applyUpdates state' (changed.merge c) us
    | (state', .error e) => (state', .error (.invalidUpdate e.display))

/-- `apply_writes`: the state and versions it leaves behind, and its result. -/
def applyWrites (state : S) (outputs : List (TaskOutput S)) (fieldVersions : FieldVersionTracker)
    (nodeRegistration : Dict ℕ) :
    S × FieldVersionTracker × Except JunctureError FieldsChanged :=
  match checkReplaceConflicts outputs with
  | .error e => (state, fieldVersions, .error e)
  | .ok () =>
    match applyUpdates state .none (mergedUpdates nodeRegistration outputs) with
    | (state', .ok changed) => (state', fieldVersions.bumpAll changed, .ok changed)
    | (state', .error e) => (state', fieldVersions, .error e)

/-- One update, as a partial step. -/
def mergeStep (p : S × FieldsChanged) (u : Update S) : Option (S × FieldsChanged) :=
  match State.tryApply p.1 u with
  | (state', .ok c) => some (state', p.2.merge c)
  | (_, .error _) => none

/-- The updates applied in order, if none is rejected. -/
def mergeAll (state : S) (us : List (Update S)) : Option (S × FieldsChanged) :=
  us.foldlM mergeStep (state, .none)

/-- What the caller of `apply_writes` can rely on: nothing after an error; the state, the changed
fields and the versions after a success. -/
def writeOutcome (r : S × FieldVersionTracker × Except JunctureError FieldsChanged) :
    Option (S × FieldsChanged × FieldVersionTracker) :=
  match r with
  | (state, versions, .ok changed) => some (state, changed, versions)
  | (_, _, .error _) => none

theorem applyUpdates_eq_ok_iff {us : List (Update S)} {state state' : S}
    {changed changed' : FieldsChanged} :
    applyUpdates state changed us = (state', .ok changed') ↔
      us.foldlM mergeStep (state, changed) = some (state', changed') := by
  induction us generalizing state changed with
  | nil => simp [applyUpdates, pure]
  | cons u us ih =>
    simp only [applyUpdates, List.foldlM_cons, mergeStep]
    split
    · rename_i s c h
      rw [ih]
      rfl
    · simp

/-- **`applyWrites` as a check followed by a fold.** -/
theorem writeOutcome_applyWrites (state : S) (outputs : List (TaskOutput S))
    (fieldVersions : FieldVersionTracker) (nodeRegistration : Dict ℕ) :
    writeOutcome (applyWrites state outputs fieldVersions nodeRegistration) =
      match checkReplaceConflicts outputs with
      | .error _ => none
      | .ok () => (mergeAll state (mergedUpdates nodeRegistration outputs)).map
          fun p => (p.1, p.2, fieldVersions.bumpAll p.2) := by
  unfold applyWrites
  cases checkReplaceConflicts outputs with
  | error e => rfl
  | ok _ =>
    simp only
    rcases h : applyUpdates state FieldsChanged.none (mergedUpdates nodeRegistration outputs) with
      ⟨state', e | changed⟩
    · have hnone : mergeAll state (mergedUpdates nodeRegistration outputs) = none := by
        rw [Option.eq_none_iff_forall_ne_some]
        rintro ⟨s, c⟩ hm
        rw [applyUpdates_eq_ok_iff.2 hm] at h
        cases h
      simp [writeOutcome, hnone]
    · have hsome : mergeAll state (mergedUpdates nodeRegistration outputs) =
          some (state', changed) := applyUpdates_eq_ok_iff.1 h
      simp [writeOutcome, hsome]

end Juncture
