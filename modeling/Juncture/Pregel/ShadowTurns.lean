import Juncture.Pregel.Shadow

/-!
# The turns of a run and of its shadow

What a superstep wrote is merged, committed and saved in a loop and in its shadow alike: the shadow
has nowhere to save it, and the saver of the loop refuses no checkpoint.  The next tasks are the same
unless the saver has a failure on record that is not one of the superstep.

* `Shadow.scheduleTasks` : the next tasks.
* `Shadow.afterTick` : `after_tick` on a loop and on its shadow.
-/

namespace Juncture

variable {S σ : Type} [State S]

namespace PregelLoop

variable {l l' : PregelLoop S σ}

namespace Shadow

/-! ### Merging and committing -/

theorem mergeWrites (h : l.Shadow l') {os os' : List (TaskOutput S)} (hout : SameOutputs os os') :
    Agree Eq (l.mergeWrites os) (l'.mergeWrites os') := by
  have hmerge := hout.executed.applyWrites_eq l.state l.fieldVersions l.nodeRegistration
  have hmax : l'.maxStateSizeBytes = l.maxStateSizeBytes := by
    obtain ⟨_, _, _, _, _, _, _, rfl, -⟩ := h
    rfl
  unfold PregelLoop.mergeWrites
  rw [hmax]
  obtain ⟨_, _, _, _, _, _, _, rfl, ht, hk⟩ := h
  dsimp only
  rw [← hmerge]
  rcases applyWrites l.state (executedOutputs os) l.fieldVersions l.nodeRegistration with
    ⟨state, fieldVersions, e | changed⟩
  · exact .error e ⟨_, _, _, _, _, _, _, rfl, ht, hk⟩
  · -- the size check looks at the merged state only
    obtain ⟨r, hr⟩ : ∃ r, ∀ k : PregelLoop S σ, k.maxStateSizeBytes = l.maxStateSizeBytes →
        k.state = state → k.checkStateSizeLimit changed = r := by
      refine ⟨{ l with state }.checkStateSizeLimit changed, fun k hk hs => ?_⟩
      unfold checkStateSizeLimit
      rw [hk, hs]
      rfl
    dsimp only
    rw [hr { l with state, fieldVersions } rfl rfl, hr]
    · rcases r with e | ⟨⟩
      · by_cases hlimit : l.maxStateSizeBytes.isSome = true
        · rw [if_pos hlimit]
          exact .error e ⟨_, _, _, _, _, _, _, rfl, ht, hk⟩
        · rw [if_neg hlimit]
          exact .error e ⟨_, _, _, _, _, _, _, rfl, ht, hk⟩
      · exact .ok ⟨_, _, _, _, _, _, _, rfl, ht, hk⟩ rfl
    · exact hmax
    · rfl

/-- What is committed depends on the nodes that ran, not on their tasks. -/
theorem commitWrites (h : l.Shadow l') (versions : List ℕ) (changed : FieldsChanged)
    {os os' : List (TaskOutput S)} (hout : SameOutputs os os') :
    (l.commitWrites versions changed os).Shadow (l'.commitWrites versions changed os') := by
  have hfold : ∀ (os : List (TaskOutput S)) (v : VersionsSeen),
      (os.filter fun o => !o.circuitBlocked).foldl (fun v o => v.markConsumed o.nodeName versions) v =
        (((os.filter fun o => !o.circuitBlocked).map TaskOutput.nodeName).foldl
          (fun v n => v.markConsumed n versions) v) := by
    intro os v
    rw [List.foldl_map]
  have hnames : (os.filter fun o => !o.circuitBlocked).map TaskOutput.nodeName =
      (os'.filter fun o => !o.circuitBlocked).map TaskOutput.nodeName :=
    SameOutputs.map_eq (hout.filter fun _ => rfl) fun _ => rfl
  obtain ⟨_, _, _, _, _, _, _, rfl, ht, hk⟩ := h
  unfold PregelLoop.commitWrites markConsumed
  dsimp only
  rw [hfold os, hfold os', hnames]
  exact ⟨_, _, _, _, _, _, _, rfl, ht, hk⟩

/-! ### Scheduling -/

/-- The next tasks, if no failure on record is to be handled. -/
theorem scheduleTasks (h : l.Shadow l') {os os' : List (TaskOutput S)} (hout : SameOutputs os os')
    (hmarkers : markerTargets l.scheduleEnv (executedOutputs os) l.persistedWrites.2 = ∅) :
    Agree Eq (l.scheduleTasks os) (l'.scheduleTasks os') := by
  have hnone : l'.persistedWrites = (l'.store, []) := by
    unfold persistedWrites
    rw [h.off]
  have hanon := scheduleNext_anon l.nextUuid l'.nextUuid hout.executed l.scheduleEnv l.state []
  have henv : l.scheduleEnv = l'.scheduleEnv := scheduleEnv_of_view h.view_eq
  have hstate : l.state = l'.state := state_of_view h.view_eq
  unfold PregelLoop.scheduleTasks
  rw [scheduleNext_of_markerTargets hmarkers, hnone, ← henv, ← hstate]
  revert hanon
  rcases scheduleNext l.scheduleEnv l.nextUuid (executedOutputs os) l.state [] with e | ts <;>
    rcases scheduleNext l.scheduleEnv l'.nextUuid (executedOutputs os') l.state [] with e' | ts' <;>
    intro hanon
  · cases hanon
    exact .error e h
  · cases hanon
  · cases hanon
  · have ht : SameTasks ts ts' := Except.ok.inj hanon
    obtain ⟨_, _, _, _, _, _, _, rfl, -, hk⟩ := h
    exact .ok ⟨_, _, _, _, _, _, _, rfl, ht, hk⟩ rfl

/-! ### Saving -/

/-- The saver of the loop refuses nothing, and its shadow has none. -/
theorem putCheckpoint (h : l.Shadow l') {cp : CheckpointSaver σ} (hcp : l.checkpointer = some cp)
    (checkpoint : Checkpoint) (metadata : CheckpointMetadata) :
    ∃ k, l.putCheckpoint cp checkpoint metadata = (k, .ok ()) ∧ k.Shadow l' := by
  obtain ⟨_, _, _, _, _, _, _, rfl, ht, hk⟩ := h
  obtain ⟨store, config, hput⟩ := hk.2 cp hcp l.store l.runnableConfig.checkpointId checkpoint metadata
  unfold PregelLoop.putCheckpoint
  rw [show cp.put l.store l.runnableConfig checkpoint metadata = (store, .ok config) from hput]
  exact ⟨_, rfl, _, _, _, _, _, _, _, rfl, ht, hk⟩

theorem writeCheckpoint (h : l.Shadow l') {cp : CheckpointSaver σ} (hcp : l.checkpointer = some cp)
    (checkpoint : Checkpoint) (metadata : CheckpointMetadata) :
    ∃ k, l.writeCheckpoint cp checkpoint metadata = (k, .ok ()) ∧ k.Shadow l' := by
  have hput : ∃ k, andThen (l.putCheckpoint cp checkpoint metadata)
      (fun l _ => ({ l with deltaCounters := ∅ }, .ok ())) = (k, .ok ()) ∧ k.Shadow l' := by
    obtain ⟨k, hk, hshadow⟩ := h.putCheckpoint hcp checkpoint metadata
    rw [hk]
    obtain ⟨_, _, _, _, _, _, _, rfl, ht, hk⟩ := hshadow
    exact ⟨_, rfl, _, _, _, _, _, _, _, rfl, ht, hk⟩
  unfold PregelLoop.writeCheckpoint
  cases l.effectiveDurability with
  | async =>
    obtain ⟨_, _, _, _, _, _, _, rfl, ht, hk⟩ := h
    exact ⟨_, rfl, _, _, _, _, _, _, _, rfl, ht, hk⟩
  | sync => exact hput
  | exit => exact hput

theorem saveSuperstepCheckpoint (h : l.Shadow l') :
    Agree Eq l.saveSuperstepCheckpoint l'.saveSuperstepCheckpoint := by
  have hnone : l'.saveSuperstepCheckpoint = (l', .ok ()) := by
    unfold PregelLoop.saveSuperstepCheckpoint
    rw [h.off]
    split_ifs <;> rfl
  rw [hnone]
  unfold PregelLoop.saveSuperstepCheckpoint
  split_ifs
  · exact .ok h rfl
  · split
    · rename_i cp values hcp hvalues
      obtain ⟨k, hk, hshadow⟩ := h.writeCheckpoint hcp
        (l.checkpoint values l.checkpointTasks [] l.deltaCounters) (l.checkpointMetadata .loop)
      rw [hk]
      exact .ok hshadow rfl
    · exact .ok h rfl

theorem saveInterruptCheckpoint (h : l.Shadow l') :
    Agree Eq l.saveInterruptCheckpoint l'.saveInterruptCheckpoint := by
  have hnone : l'.saveInterruptCheckpoint = (l', .ok ()) := by
    unfold PregelLoop.saveInterruptCheckpoint
    rw [h.off]
  rw [hnone]
  unfold PregelLoop.saveInterruptCheckpoint
  split
  · rename_i cp values hcp hvalues
    obtain ⟨k, hk, hshadow⟩ := h.writeCheckpoint hcp
      (l.checkpoint values [] l.pendingInterrupts l.deltaCounters)
      (l.checkpointMetadata (.interrupt (interruptNodeName l.pendingInterrupts)))
    rw [hk]
    exact .ok hshadow rfl
  · exact .ok h rfl

theorem saveExitCheckpoint (h : l.Shadow l') : l.saveExitCheckpoint.Shadow l'.saveExitCheckpoint := by
  have hnone : l'.saveExitCheckpoint = l' := by
    unfold PregelLoop.saveExitCheckpoint
    rw [h.off]
  rw [hnone]
  unfold PregelLoop.saveExitCheckpoint
  split
  · rename_i cp values hcp hvalues
    obtain ⟨k, hk, hshadow⟩ := h.putCheckpoint hcp (l.checkpoint values l.checkpointTasks [] ∅)
      (l.checkpointMetadata .loop)
    rw [hk]
    exact hshadow
  · exact h

/-! ### Stopping or going on -/

theorem handleParentCommand (h : l.Shadow l') (c : ParentCommand S) :
    (l.handleParentCommand c).Shadow (l'.handleParentCommand c) := by
  have hstate : l.state = l'.state := state_of_view h.view_eq
  unfold PregelLoop.handleParentCommand
  cases c.command.update with
  | none => exact h
  | some update =>
    dsimp only
    rw [← hstate]
    obtain ⟨_, _, _, _, _, _, _, rfl, ht, hk⟩ := h
    rcases State.tryApply l.state update with ⟨state, e | changed⟩
    · exact ⟨_, _, _, _, _, _, _, rfl, ht, hk⟩
    · exact ⟨_, _, _, _, _, _, _, rfl, ht, hk⟩

theorem handleBubbleUps (h : l.Shadow l') (bubbleUps : List (BubbleUp S)) :
    (l.handleBubbleUps bubbleUps).1.Shadow (l'.handleBubbleUps bubbleUps).1 ∧
      (l.handleBubbleUps bubbleUps).2 = (l'.handleBubbleUps bubbleUps).2 := by
  refine List.foldl_rel
    (r := fun a b : PregelLoop S σ × Bool => a.1.Shadow b.1 ∧ a.2 = b.2) ⟨h, rfl⟩ ?_
  rintro u - ⟨a, stopped⟩ ⟨b, stopped'⟩ ⟨hab, rfl⟩
  cases u with
  | interrupt i => exact ⟨hab.raise _ _, rfl⟩
  | drained d => exact ⟨hab.setStatus _, rfl⟩
  | parentCommand c => exact ⟨hab.handleParentCommand c, rfl⟩

theorem stop (h : l.Shadow l') : Agree Eq l.stop l'.stop := by
  have hstatus : l'.status = l.status := (congrArg View.status h.view_eq).symm
  unfold PregelLoop.stop
  rw [hstatus]
  split_ifs
  · exact h.saveInterruptCheckpoint.andThen fun _ _ _ _ _ _ hk _ => .ok hk.finishAllChannels rfl
  · exact .ok h.finishAllChannels rfl

theorem countStep (h : l.Shadow l') : l.countStep.Shadow l'.countStep := by
  have hdur : l'.effectiveDurability = l.effectiveDurability := by
    obtain ⟨_, _, _, _, _, _, _, rfl, -⟩ := h
    rfl
  have hcount : ∀ {k k' : PregelLoop S σ}, k.Shadow k' →
      { k with step := k.step + 1, budgetTracker := k.budgetTracker.map BudgetTracker.reportStep }.Shadow
        { k' with
          step := k'.step + 1
          budgetTracker := k'.budgetTracker.map BudgetTracker.reportStep } := by
    intro k k' hk
    obtain ⟨_, _, _, _, _, _, _, rfl, ht, hk⟩ := hk
    exact ⟨_, _, _, _, _, _, _, rfl, ht, hk⟩
  unfold PregelLoop.countStep
  dsimp only
  rw [h.isEmpty_eq, hdur]
  split_ifs
  · exact hcount h.finishAllChannels.saveExitCheckpoint
  · exact hcount h.finishAllChannels
  · exact hcount h

variable [InterruptHash]

/-- The last phase of `after_tick`. -/
theorem finishTick (h : l.Shadow l') (bubbleUps : List (BubbleUp S)) :
    Agree Eq (l.finishTick bubbleUps) (l'.finishTick bubbleUps) := by
  have hsignals : l'.interruptRx = l.interruptRx := (congrArg View.interruptRx h.view_eq).symm
  have hclear : { l with interruptRx := none }.Shadow { l' with interruptRx := none } := by
    obtain ⟨_, _, _, _, _, _, _, rfl, ht, hk⟩ := h
    exact ⟨_, _, _, _, _, _, _, rfl, ht, hk⟩
  obtain ⟨hreported, hstopped⟩ := hclear.handleBubbleUps bubbleUps
  unfold PregelLoop.finishTick
  dsimp only
  rw [hsignals]
  by_cases hempty : (l.interruptRx.getD []).isEmpty = true
  · rw [if_pos hempty, if_pos hempty, hstopped]
    by_cases hst : ({ l' with interruptRx := none }.handleBubbleUps bubbleUps).2 = true
    · rw [if_pos hst, if_pos hst]
      exact hreported.stop
    · rw [if_neg hst, if_neg hst, hreported.interrupts.2]
      cases ({ l with interruptRx := none }.handleBubbleUps bubbleUps).1.interruptAfter with
      | some signals => exact (hreported.seeVersions.raise _ _).stop
      | none => exact .ok hreported.countStep rfl
  · rw [if_neg hempty, if_neg hempty]
    exact (hclear.raise _ _).stop

/-- **`after_tick`** on a loop and on its shadow. -/
theorem afterTick (h : l.Shadow l') {a b : SuperstepResult S} (hab : a.anon = b.anon)
    (hmarkers : markerTargets (l.committed a).scheduleEnv (executedOutputs a.taskOutputs)
      (l.committed a).persistedWrites.2 = ∅) : Agree Eq (l.afterTick a) (l'.afterTick b) := by
  obtain ⟨hout, hbubble⟩ := SuperstepResult.anon_eq_iff.1 hab
  have hversions : l'.fieldVersions = l.fieldVersions := by
    obtain ⟨_, _, _, _, _, _, _, rfl, -⟩ := h
    rfl
  unfold PregelLoop.afterTick
  dsimp only
  rw [hversions, ← hbubble]
  refine (h.mergeWrites hout).andThen fun k k' changed changed' hm _ hk hc => ?_
  obtain rfl : changed = changed' := hc
  have hcommit := hk.commitWrites l.fieldVersions.versions changed hout
  have heq : l.committed a = k.commitWrites l.fieldVersions.versions changed a.taskOutputs := by
    unfold committed
    rw [hm]
  rw [heq] at hmarkers
  refine (hcommit.scheduleTasks hout hmarkers).andThen fun m m' _ _ _ _ hm _ => ?_
  have hset : { m with previousSuperstepChangedFields := changed }.Shadow
      { m' with previousSuperstepChangedFields := changed } := by
    obtain ⟨_, _, _, _, _, _, _, rfl, ht, hk⟩ := hm
    exact ⟨_, _, _, _, _, _, _, rfl, ht, hk⟩
  exact hset.saveSuperstepCheckpoint.andThen fun _ _ _ _ _ _ hk _ => hk.finishTick a.bubbleUps

end Shadow

end PregelLoop

end Juncture
