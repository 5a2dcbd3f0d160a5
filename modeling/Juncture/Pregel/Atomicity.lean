import Juncture.Core.Transcript
import Juncture.Pregel.AfterTick

/-!
# A failed merge and the state

*Either all writes of a superstep are applied or none are*, says the comment on the snapshot of
`after_tick`.  The snapshot is restored when the size check fails; a replace conflict is found
before anything is written; but an update that `try_apply` rejects leaves the updates merged before
it in the state.

* `mergeAtomic_iff` : a failed merge leaves the state as it was exactly when the batch conflicts or
  no rejected update comes after updates that changed the state (`Torn`).
-/

namespace Juncture

variable {S σ : Type} [State S]

/-- An update of the batch is rejected, and what it and the updates before it have left is not the
state the merge started from. -/
def Torn (state : S) (us : List (Update S)) : Prop :=
  ∃ pre u post s c, us = pre ++ u :: post ∧ mergeAll state pre = some (s, c) ∧
    (∃ err, (State.tryApply s u).2 = .error err) ∧ (State.tryApply s u).1 ≠ state

/-- **Where the merge loop stops.**  It fails at the first update that is rejected by the state the
updates before it have produced. -/
theorem applyUpdates_eq_error_iff {us : List (Update S)} {state state' : S}
    {changed : FieldsChanged} {e : JunctureError} :
    applyUpdates state changed us = (state', .error e) ↔
      ∃ pre u post s c err, us = pre ++ u :: post ∧
        pre.foldlM mergeStep (state, changed) = some (s, c) ∧
        State.tryApply s u = (state', .error err) ∧ e = .invalidUpdate err.display := by
  induction us generalizing state changed with
  | nil => simp [applyUpdates]
  | cons u us ih =>
    rcases hu : State.tryApply state u with ⟨s₁, err | c₁⟩
    · have hstep : mergeStep (state, changed) u = none := by simp [mergeStep, hu]
      simp only [applyUpdates, hu, Prod.mk.injEq, Except.error.injEq]
      constructor
      · rintro ⟨rfl, rfl⟩
        exact ⟨[], u, us, state, changed, err, rfl, rfl, hu, rfl⟩
      · rintro ⟨pre, v, post, s, c, err', heq, hpre, hv, rfl⟩
        -- the batch is rejected at its first update, so nothing comes before it
        obtain ⟨rfl, hcons⟩ | ⟨pre', rfl, -⟩ := List.cons_eq_append_iff.1 heq
        · obtain ⟨rfl, rfl⟩ := List.cons.inj hcons
          cases hpre
          rw [hu] at hv
          cases hv
          exact ⟨rfl, rfl⟩
        · rw [List.foldlM_cons, hstep] at hpre
          cases hpre
    · have hstep : mergeStep (state, changed) u = some (s₁, changed.merge c₁) := by
        simp [mergeStep, hu]
      simp only [applyUpdates, hu]
      rw [ih]
      constructor
      · rintro ⟨pre, v, post, s, c, err, rfl, hpre, hv, rfl⟩
        refine ⟨u :: pre, v, post, s, c, err, rfl, ?_, hv, rfl⟩
        rw [List.foldlM_cons, hstep]
        exact hpre
      · rintro ⟨pre, v, post, s, c, err, heq, hpre, hv, rfl⟩
        obtain ⟨rfl, hcons⟩ | ⟨pre', rfl, rfl⟩ := List.cons_eq_append_iff.1 heq
        · obtain ⟨rfl, rfl⟩ := List.cons.inj hcons
          cases hpre
          rw [hu] at hv
          cases hv
        · rw [List.foldlM_cons, hstep] at hpre
          exact ⟨pre', v, post, s, c, err, rfl, hpre, hv, rfl⟩

/-- How `apply_writes` fails: at the conflict check, or at a rejected update. -/
theorem applyWrites_error_iff {state state' : S} {outputs : List (TaskOutput S)}
    {versions versions' : FieldVersionTracker} {reg : Dict ℕ} {e : JunctureError} :
    applyWrites state outputs versions reg = (state', versions', .error e) ↔
      versions' = versions ∧
        (checkReplaceConflicts outputs = .error e ∧ state' = state ∨
          checkReplaceConflicts outputs = .ok () ∧
            applyUpdates state .none (mergedUpdates reg outputs) = (state', .error e)) := by
  unfold applyWrites
  cases hc : checkReplaceConflicts outputs with
  | error err =>
    simp only [Prod.mk.injEq, Except.error.injEq, reduceCtorEq, false_and, or_false]
    tauto
  | ok _ =>
    simp only [reduceCtorEq, false_and, true_and, false_or]
    rcases applyUpdates state FieldsChanged.none (mergedUpdates reg outputs) with ⟨s, err | changed⟩
    · simp only [Prod.mk.injEq, Except.error.injEq]
      tauto
    · simp

namespace PregelLoop

/-- A merge that fails makes `after_tick` fail with its error and leaves the state and the field
versions as they were. -/
def MergeAtomic [InterruptHash] (l : PregelLoop S σ) (result : SuperstepResult S) : Prop :=
  ∀ e, (l.mergeWrites result.taskOutputs).2 = .error e →
    (l.afterTick result).2 = .error e ∧ (l.afterTick result).1.state = l.state ∧
      (l.afterTick result).1.fieldVersions = l.fieldVersions

/-- The updates of a superstep in the order they are merged in. -/
def batch (l : PregelLoop S σ) (result : SuperstepResult S) : List (Update S) :=
  mergedUpdates l.nodeRegistration (executedOutputs result.taskOutputs)

variable {l : PregelLoop S σ} {result : SuperstepResult S}

theorem afterTick_of_mergeWrites_error [InterruptHash] {l' : PregelLoop S σ} {e : JunctureError}
    (h : l.mergeWrites result.taskOutputs = (l', .error e)) :
    l.afterTick result = (l', .error e) := by
  simp only [afterTick, h, andThen]

theorem checkStateSizeLimit_of_none {changed : FieldsChanged} (h : l.maxStateSizeBytes = none) :
    l.checkStateSizeLimit changed = .ok () := by
  simp only [checkStateSizeLimit, h]

/-- **How a merge fails.**  Either the loop is as it was (a conflict, or the size limit and a
rollback), or the merge loop stopped at a rejected update and its state stays. -/
theorem mergeWrites_error_cases {l' : PregelLoop S σ} {e : JunctureError}
    (h : l.mergeWrites result.taskOutputs = (l', .error e)) :
    l' = l ∨ ∃ s, checkReplaceConflicts (executedOutputs result.taskOutputs) = .ok () ∧
      applyUpdates l.state .none (l.batch result) = (s, .error e) ∧ l' = { l with state := s } := by
  unfold mergeWrites at h
  rcases hw : applyWrites l.state (executedOutputs result.taskOutputs) l.fieldVersions
    l.nodeRegistration with ⟨s, versions, err | changed⟩
  · simp only [hw] at h
    cases h
    obtain ⟨rfl, ⟨-, rfl⟩ | ⟨hc, hu⟩⟩ := applyWrites_error_iff.1 hw
    · exact .inl rfl
    · exact .inr ⟨s, hc, hu, rfl⟩
  · simp only [hw] at h
    split at h
    · cases h
    · rename_i hsnap
      split_ifs at hsnap
      cases hsnap
      cases h
      exact .inl rfl
    · rename_i hsize hsnap
      -- without a limit there is no snapshot, but then the size check does not fail
      have hnone : l.maxStateSizeBytes = none := by simpa using hsnap
      exact nomatch hsize.symm.trans (checkStateSizeLimit_of_none hnone)

theorem mergeWrites_of_applyUpdates_error {s : S} {e : JunctureError}
    (hc : checkReplaceConflicts (executedOutputs result.taskOutputs) = .ok ())
    (hu : applyUpdates l.state .none (l.batch result) = (s, .error e)) :
    l.mergeWrites result.taskOutputs = ({ l with state := s }, .error e) := by
  have hw : applyWrites l.state (executedOutputs result.taskOutputs) l.fieldVersions
      l.nodeRegistration = (s, l.fieldVersions, .error e) :=
    applyWrites_error_iff.2 ⟨rfl, .inr ⟨hc, hu⟩⟩
  simp only [mergeWrites, hw]

variable [InterruptHash] (l result)

/-- **A failed merge leaves the state as it was unless it was torn.** -/
theorem mergeAtomic_iff :
    l.MergeAtomic result ↔
      ((updates (executedOutputs result.taskOutputs)).Pairwise (fun u u' => ¬ Conflicting u u') →
        ¬ Torn l.state (l.batch result)) := by
  rw [← checkReplaceConflicts_eq_ok_iff]
  constructor
  · rintro h hc ⟨pre, u, post, s, c, hbatch, hpre, ⟨err, herr⟩, hne⟩
    have hu : applyUpdates l.state .none (l.batch result) =
        ((State.tryApply s u).1, .error (.invalidUpdate err.display)) :=
      applyUpdates_eq_error_iff.2 ⟨pre, u, post, s, c, err, hbatch, hpre, by rw [← herr], rfl⟩
    have hm := mergeWrites_of_applyUpdates_error hc hu
    have hstate := (h _ (congrArg Prod.snd hm)).2.1
    rw [afterTick_of_mergeWrites_error hm] at hstate
    exact hne hstate
  · intro h e he
    rcases hm : l.mergeWrites result.taskOutputs with ⟨l', r⟩
    rw [hm] at he
    obtain rfl : r = .error e := he
    rw [afterTick_of_mergeWrites_error hm]
    obtain rfl | ⟨s, hc, hu, rfl⟩ := mergeWrites_error_cases hm
    · exact ⟨rfl, rfl, rfl⟩
    · refine ⟨rfl, ?_, rfl⟩
      obtain ⟨pre, u, post, s', c, err, hbatch, hpre, hv, -⟩ := applyUpdates_eq_error_iff.1 hu
      by_contra hne
      exact h hc ⟨pre, u, post, s', c, hbatch, hpre, ⟨err, by rw [hv]⟩, by rw [hv]; exact hne⟩

/-- A state whose `try_apply` accepts every update, such as a derived one, is never left torn. -/
theorem mergeAtomic_of_accepts
    (h : ∀ (s : S) (u : Update S) err, (State.tryApply s u).2 ≠ .error err) :
    l.MergeAtomic result := by
  rw [mergeAtomic_iff]
  rintro - ⟨pre, u, post, s, c, -, -, ⟨err, herr⟩, -⟩
  exact h s u err herr

end PregelLoop

/-! ### A batch whose second update is rejected -/

/-- A node that appends one entry. -/
def noting (n : ℕ) : Node Strict := ⟨fun _ _ => .done (.ok (.ofUpdate (Strict.note n)))⟩

/-- Two entry nodes over `Strict`, whose `try_apply` refuses a zero entry. -/
def strictLoop : PregelLoop Strict Unit :=
  .withErrorHandlers {} (Dict.ofList [("b", noting 0), ("a", noting 7)])
    (buildTriggerTable [.fixed START "a", .fixed START "b"]) {} 2 ∅ () 0

/-- Both nodes return. -/
def halfAccepted : SuperstepResult Strict where
  taskOutputs :=
    [{ taskId := 1, nodeName := "a", command := .ofUpdate (Strict.note 7), trigger := .pull },
      { taskId := 2, nodeName := "b", command := .ofUpdate (Strict.note 0), trigger := .pull }]

theorem strictLoop_not_mergeAtomic : ¬ strictLoop.MergeAtomic halfAccepted := by
  intro h
  have hstate := (h (.invalidUpdate "invalid value for field 'log': zero entry") (by decide)).2.1
  revert hstate
  decide

end Juncture
