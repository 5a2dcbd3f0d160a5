import Juncture.Core.DeriveState
import Juncture.Pregel.Writes

/-!
# Merging updates of a derived state

`apply_writes` asks the state which fields have the `replace` reducer and whether an update sets
them, folds the updates, and renews the versions of the fields whose bit is set.  For a derived
state the three come from one struct: `applyWrites_record`.
-/

namespace Juncture

variable {n : ℕ} {F : Fin n → FieldDecl}

/-- The update of the output sets the field. -/
def Sets (o : TaskOutput (Record F)) (i : Fin n) : Prop :=
  ∃ u : Record.Change F, o.command.update = some u ∧ (u i).isSome = true

/-- Two different outputs set one `replace` field. -/
def TwoWriters (outputs : List (TaskOutput (Record F))) : Prop :=
  ∃ (a b : ℕ) (oa ob : TaskOutput (Record F)), a ≠ b ∧ outputs[a]? = some oa ∧ outputs[b]? = some ob ∧
    ∃ i, (F i).reducer.isReplace = true ∧ Sets oa i ∧ Sets ob i

/-- Two updates of a record conflict when they set one `replace` field. -/
theorem conflicting_record_iff {u u' : Record.Change F} :
    Conflicting (S := Record F) u u' ↔
      ∃ i, (F i).reducer.isReplace = true ∧ (u i).isSome = true ∧ (u' i).isSome = true := by
  have hindices : ∀ idx, idx ∈ State.replaceFieldIndices (Record F) ↔
      ∃ i : Fin n, (F i).reducer.isReplace = true ∧ i.val = idx := by
    intro idx
    show idx ∈ ((List.finRange n).filter fun i => (F i).reducer.isReplace).map Fin.val ↔ _
    simp
  have hset : ∀ (u : Record.Change F) (i : Fin n),
      State.fieldIsSet (S := Record F) u i.val = (u i).isSome := fun u i => dif_pos i.isLt
  constructor
  · rintro ⟨idx, hidx, hu, hu'⟩
    obtain ⟨i, hi, rfl⟩ := (hindices idx).1 hidx
    rw [hset] at hu hu'
    exact ⟨i, hi, hu, hu'⟩
  · rintro ⟨i, hi, hu, hu'⟩
    exact ⟨i.val, (hindices i.val).2 ⟨i, hi, rfl⟩, (hset u i).trans hu, (hset u' i).trans hu'⟩

/-- **The conflict scan of a derived state.** -/
theorem checkReplaceConflicts_record_iff (outputs : List (TaskOutput (Record F))) :
    checkReplaceConflicts outputs = .ok () ↔ ¬ TwoWriters outputs := by
  rw [checkReplaceConflicts_eq_ok_iff, updates, List.pairwise_filterMap, List.pairwise_iff_getElem]
  constructor
  · rintro hpair ⟨a, b, oa, ob, hab, ha, hb, i, hi, ⟨ua, hua, hsa⟩, ub, hub, hsb⟩
    obtain ⟨hla, rfl⟩ := List.getElem?_eq_some_iff.1 ha
    obtain ⟨hlb, rfl⟩ := List.getElem?_eq_some_iff.1 hb
    -- the scan is about two outputs in their order, the conflict is symmetric
    obtain hlt | hgt := Nat.lt_or_gt_of_ne hab
    · exact hpair a b hla hlb hlt ua hua ub hub (conflicting_record_iff.2 ⟨i, hi, hsa, hsb⟩)
    · exact hpair b a hlb hla hgt ub hub ua hua (conflicting_record_iff.2 ⟨i, hi, hsb, hsa⟩)
  · intro hnot a b hla hlb hlt ua hua ub hub hconf
    obtain ⟨i, hi, hsa, hsb⟩ := conflicting_record_iff.1 hconf
    exact hnot ⟨a, b, _, _, Nat.ne_of_lt hlt, List.getElem?_eq_getElem hla,
      List.getElem?_eq_getElem hlb, i, hi, ⟨ua, hua, hsa⟩, ub, hub, hsb⟩

/-- A scan that finds something reports the writers of one field. -/
theorem checkReplaceConflicts_ne_ok {S : Type} [State S] {outputs : List (TaskOutput S)}
    (h : checkReplaceConflicts outputs ≠ .ok ()) :
    ∃ idx writers, checkReplaceConflicts outputs = .error (.multipleWriters idx writers) := by
  unfold checkReplaceConflicts at h ⊢
  split
  · exact ⟨_, _, rfl⟩
  · rename_i hnone
    rw [hnone] at h
    exact absurd rfl h

/-- The merge loop of a derived state goes through. -/
theorem applyUpdates_record (us : List (Record.Change F)) (state : Record F)
    (changed : FieldsChanged) :
    applyUpdates (S := Record F) state changed us =
      (us.foldl (fun s u => (Record.apply s u).1) state,
        .ok (us.foldl (fun p u => ((Record.apply p.1 u).1, p.2.merge (Record.apply p.1 u).2))
          (state, changed)).2) := by
  induction us generalizing state changed with
  | nil => rfl
  | cons u us ih => exact ih (Record.apply state u).1 (changed.merge (Record.apply state u).2)

/-- The fields that the loop has marked. -/
theorem hasField_foldl_apply (hn : n ≤ 64) (us : List (Record.Change F))
    (p : Record F × FieldsChanged) (idx : ℕ) :
    (us.foldl (fun p u => ((Record.apply p.1 u).1, p.2.merge (Record.apply p.1 u).2)) p).2.hasField
        idx = true ↔
      p.2.hasField idx = true ∨ ∃ u ∈ us, ∃ i : Fin n, i.val = idx ∧ (u i).isSome = true := by
  induction us generalizing p with
  | nil => simp
  | cons u us ih =>
    rw [List.foldl_cons, ih]
    simp only [FieldsChanged.hasField_merge, Bool.or_eq_true, Record.hasField_apply hn,
      List.mem_cons, exists_eq_or_imp, or_assoc]

/-- The updates of a batch in merge order. -/
def mergedChanges (nodeRegistration : Dict ℕ) (outputs : List (TaskOutput (Record F))) :
    List (Record.Change F) := mergedUpdates nodeRegistration outputs

/-- What a merge without a conflict leaves behind. -/
structure Folded (state : Record F) (outputs : List (TaskOutput (Record F)))
    (versions : FieldVersionTracker) (nodeRegistration : Dict ℕ)
    (r : Record F × FieldVersionTracker × Except JunctureError FieldsChanged) : Prop where
  /-- The updates are applied in merge order. -/
  state : r.1 = (mergedChanges nodeRegistration outputs).foldl
    (fun s u => (Record.apply s u).1) state
  /-- The fields that an update sets are returned. -/
  changed : ∃ changed, r.2.2 = .ok changed ∧
    ∀ idx, changed.hasField idx = true ↔ ∃ i : Fin n, i.val = idx ∧ ∃ o ∈ outputs, Sets o i
  /-- They get a version after all those given out, as long as the counter does not saturate. -/
  renewed : ∀ i : Fin n, (∃ o ∈ outputs, Sets o i) →
    ∃ k, 0 < k ∧ r.2.1.get i.val = min (versions.globalMax + k) u64Max
  /-- The others keep theirs. -/
  kept : ∀ idx, (¬ ∃ i : Fin n, i.val = idx ∧ ∃ o ∈ outputs, Sets o i) →
    r.2.1.get idx = versions.get idx

/-- The fields set by the updates of a batch. -/
theorem exists_mergedChanges_iff (nodeRegistration : Dict ℕ)
    (outputs : List (TaskOutput (Record F))) (idx : ℕ) :
    (∃ u ∈ mergedChanges nodeRegistration outputs, ∃ i : Fin n, i.val = idx ∧
      (u i).isSome = true) ↔ ∃ i : Fin n, i.val = idx ∧ ∃ o ∈ outputs, Sets o i := by
  have hmem : ∀ u : Record.Change F, u ∈ mergedChanges nodeRegistration outputs ↔
      ∃ o ∈ outputs, o.command.update = some u := fun u =>
    ((mergedUpdates_perm nodeRegistration outputs).mem_iff (a := u)).trans List.mem_filterMap
  constructor
  · rintro ⟨u, hu, i, hi, hset⟩
    obtain ⟨o, ho, hu⟩ := (hmem u).1 hu
    exact ⟨i, hi, o, ho, u, hu, hset⟩
  · rintro ⟨i, hi, o, ho, u, hu, hset⟩
    exact ⟨u, (hmem u).2 ⟨o, ho, hu⟩, i, hi, hset⟩

/-- A batch without two writers is folded. -/
theorem folded_of_not_twoWriters (hn : n ≤ 64) (state : Record F)
    {outputs : List (TaskOutput (Record F))} (htwo : ¬ TwoWriters outputs)
    (versions : FieldVersionTracker) (hlen : n ≤ versions.versions.length)
    (nodeRegistration : Dict ℕ) :
    Folded state outputs versions nodeRegistration
      (applyWrites state outputs versions nodeRegistration) := by
  have hcheck := (checkReplaceConflicts_record_iff outputs).2 htwo
  have hloop := applyUpdates_record (mergedChanges nodeRegistration outputs) state .none
  have hbits := hasField_foldl_apply hn (mergedChanges nodeRegistration outputs)
    (state, FieldsChanged.none)
  simp only [FieldsChanged.hasField_none, Bool.false_eq_true, false_or,
    exists_mergedChanges_iff] at hbits
  generalize ((mergedChanges nodeRegistration outputs).foldl (fun p u =>
    ((Record.apply p.1 u).1, p.2.merge (Record.apply p.1 u).2)) (state, FieldsChanged.none)).2 =
      changed at hloop hbits
  have hwrites : applyWrites state outputs versions nodeRegistration =
      ((mergedChanges nodeRegistration outputs).foldl (fun s u => (Record.apply s u).1) state,
        versions.bumpAll changed, .ok changed) := by
    rw [mergedChanges] at hloop
    simp only [applyWrites, hcheck, hloop]
    rfl
  -- the versions are renewed field by field, in the order of the indices
  have hget : ∀ idx, (versions.bumpAll changed).get idx =
      if idx ∈ (List.range versions.versions.length).filter changed.hasField then
        min (versions.globalMax +
          (((List.range versions.versions.length).filter changed.hasField).idxOf idx + 1)) u64Max
      else versions.get idx := by
    intro idx
    rw [FieldVersionTracker.bumpAll_eq]
    refine FieldVersionTracker.get_foldl_bump (List.nodup_range.filter _) versions ?_ idx
    exact fun i hi => List.mem_range.1 (List.mem_filter.1 hi).1
  rw [hwrites]
  refine ⟨rfl, ⟨changed, rfl, hbits⟩, fun i hi => ?_, fun idx hidx => ?_⟩
  · have hmem : i.val ∈ (List.range versions.versions.length).filter changed.hasField :=
      List.mem_filter.2 ⟨List.mem_range.2 (by omega), (hbits i.val).2 ⟨i, rfl, hi⟩⟩
    exact ⟨_, Nat.succ_pos _, (hget i.val).trans (if_pos hmem)⟩
  · refine (hget idx).trans (if_neg fun hmem => hidx ?_)
    exact (hbits idx).1 (List.mem_filter.1 hmem).2

/-- **`apply_writes` over a derived state.**  It reports several writers exactly when two outputs
set one `replace` field, and then changes nothing; otherwise it folds the updates in merge order and
renews the versions of the fields that are set. -/
theorem applyWrites_record {toUppercase : String → String}
    (h : DeriveState.Accepted toUppercase F) (state : Record F)
    (outputs : List (TaskOutput (Record F))) (versions : FieldVersionTracker)
    (hlen : n ≤ versions.versions.length) (nodeRegistration : Dict ℕ) :
    ((∃ idx writers, (applyWrites state outputs versions nodeRegistration).2.2 =
        .error (.multipleWriters idx writers)) ↔ TwoWriters outputs) ∧
      (TwoWriters outputs → (applyWrites state outputs versions nodeRegistration).1 = state ∧
        (applyWrites state outputs versions nodeRegistration).2.1 = versions) ∧
      (¬ TwoWriters outputs → Folded state outputs versions nodeRegistration
        (applyWrites state outputs versions nodeRegistration)) := by
  by_cases htwo : TwoWriters outputs
  · have hne : checkReplaceConflicts outputs ≠ .ok () := fun hok =>
      (checkReplaceConflicts_record_iff outputs).1 hok htwo
    obtain ⟨idx, writers, hcheck⟩ := checkReplaceConflicts_ne_ok hne
    have hwrites : applyWrites state outputs versions nodeRegistration =
        (state, versions, .error (.multipleWriters idx writers)) := by
      simp only [applyWrites, hcheck]
    rw [hwrites]
    exact ⟨⟨fun _ => htwo, fun _ => ⟨idx, writers, rfl⟩⟩, fun _ => ⟨rfl, rfl⟩,
      fun hnot => absurd htwo hnot⟩
  · have hfolded := folded_of_not_twoWriters (DeriveState.checkFieldCount_eq_ok h.fieldCount).2
      state htwo versions hlen nodeRegistration
    refine ⟨⟨?_, fun htwo' => absurd htwo' htwo⟩, fun htwo' => absurd htwo' htwo, fun _ => hfolded⟩
    rintro ⟨idx, writers, herr⟩
    obtain ⟨changed, hok, -⟩ := hfolded.changed
    rw [hok] at herr
    cases herr

/-- Two tickets are written at once: one adds an entry to the log, the other one sets the status
as well. -/
def ticketOutputs : List (TaskOutput (Record DeriveState.ticket)) :=
  [{ taskId := 0, nodeName := "a", trigger := .pull
     command := .ofUpdate (S := Record DeriveState.ticket)
      (Function.update (fun _ => none) ⟨0, Nat.two_pos⟩ (some [2])) },
   { taskId := 1, nodeName := "b", trigger := .pull
     command := .ofUpdate (S := Record DeriveState.ticket)
      (Function.update (Function.update (fun _ => none) ⟨0, Nat.two_pos⟩ (some [3]))
        ⟨1, Nat.one_lt_two⟩ (some (1 : ℕ))) }]

/-- Nothing conflicts: the two entries are added, and the versions of the two fields renewed. -/
theorem applyWrites_record_ticket :
    ¬ TwoWriters ticketOutputs ∧
      Folded DeriveState.ticketOpened.1 ticketOutputs (.new 64) ∅
        (applyWrites DeriveState.ticketOpened.1 ticketOutputs (.new 64) ∅) := by
  have htwo : ¬ TwoWriters ticketOutputs :=
    (checkReplaceConflicts_record_iff ticketOutputs).1 rfl
  exact ⟨htwo, (applyWrites_record DeriveState.ticket_accepted DeriveState.ticketOpened.1
    ticketOutputs (.new 64) (by decide) ∅).2.2 htwo⟩

end Juncture
