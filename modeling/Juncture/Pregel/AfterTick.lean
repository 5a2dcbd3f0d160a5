import Juncture.Pregel.Loop

/-!
# After a superstep

`afterTick` turns the result of a superstep into the head of the next one: merge the writes, commit
them, schedule the next tasks, save a checkpoint, and then either stop (a node, a subgraph or the
configuration asked for an interrupt) or count the step.

* `afterTick_eq_ok_iff` : a successful `afterTick` as its four phases.
* `finishTick_progress` : the last phase either halts the loop and leaves the step as it is, or
  counts the step and leaves the status as it is.
-/

namespace Juncture

variable {S σ : Type} [State S]

/-- The statuses `after_tick` stops a run with. -/
def LoopStatus.halted : LoopStatus → Bool
  | interruptAfter _ | drained => true
  | _ => false

namespace PregelLoop

/-! ### Merging -/

/-- The size limit of the state, if there is one. -/
def maxStateSizeBytes (l : PregelLoop S σ) : Option ℕ :=
  l.runnableConfig.resourceLimits.bind ResourceLimits.maxStateSizeBytes

/-- `check_state_size_limit`. -/
def checkStateSizeLimit (l : PregelLoop S σ) (changed : FieldsChanged) :
    Except JunctureError Unit :=
  match l.maxStateSizeBytes with
  | none => .ok ()
  | some maxBytes =>
    if changed.isEmpty then .ok ()
    else match State.toValue l.state with
      | .error e => .error (.execution s!"State serialization failed for size check: {e}")
      | .ok value =>
        if maxBytes < value.byteLen then .error (.execution
          s!"State size limit exceeded: {value.byteLen} bytes > {maxBytes} bytes limit")
        else .ok ()

/-- The merge of `after_tick`.  A snapshot is taken when there is a size limit, and it is restored
when the size check fails. -/
def mergeWrites (l : PregelLoop S σ) (outputs : List (TaskOutput S)) :
    PregelLoop S σ × Except JunctureError FieldsChanged :=
  let snapshot := if l.maxStateSizeBytes.isSome then
    some (l.state, l.fieldVersions, l.circuitBreakerStates) else none
  match applyWrites l.state (executedOutputs outputs) l.fieldVersions l.nodeRegistration with
  | (state, fieldVersions, .error e) => ({ l with state, fieldVersions }, .error e)
  | (state, fieldVersions, .ok changed) =>
    let l := { l with state, fieldVersions }
    match l.checkStateSizeLimit changed, snapshot with
    | .ok (), _ => (l, .ok changed)
    | .error e, some (state, fieldVersions, circuitBreakerStates) =>
      ({ l with state, fieldVersions, circuitBreakerStates }, .error e)
    | .error e, none => (l, .error e)

/-! ### Committing -/

/-- The delta counter of one field. -/
def countField (changed : FieldsChanged) (counters : Dict DeltaCounters) (fieldIdx : ℕ) :
    Dict DeltaCounters :=
  let key := s!"field_{fieldIdx}"
  let c := (counters.lookup key).getD {}
  counters.insert key
    { supersteps := min (c.supersteps + 1) u64Max
      updates := if changed.hasField fieldIdx then min (c.updates + 1) u64Max else c.updates }

/-- `update_delta_counters`. -/
def updateDeltaCounters (l : PregelLoop S σ) (changed : FieldsChanged) : PregelLoop S σ :=
  { l with
    deltaCounters :=
      (List.range (min (State.fieldNames S).length l.fieldVersions.versions.length)).foldl
        (countField changed) l.deltaCounters }

/-- `consume_triggered_channels`. -/
def consumeTriggeredChannels (l : PregelLoop S σ) (changed : FieldsChanged) : PregelLoop S σ :=
  { l with
    state := ((List.range (State.fieldCount S)).filter changed.hasField).foldl State.consumeField
      l.state }

/-- The nodes that ran have seen the versions from before the merge. -/
def markConsumed (l : PregelLoop S σ) (versions : List ℕ) (outputs : List (TaskOutput S)) :
    PregelLoop S σ :=
  { l with
    versionsSeen := (outputs.filter fun o => !o.circuitBlocked).foldl
      (fun v o => v.markConsumed o.nodeName versions) l.versionsSeen }

/-- What `after_tick` does with an accepted merge, before it looks for the next tasks: the fields
consumed are those that the previous superstep changed. -/
def commitWrites (l : PregelLoop S σ) (versions : List ℕ) (changed : FieldsChanged)
    (outputs : List (TaskOutput S)) : PregelLoop S σ :=
  let l := (l.updateDeltaCounters changed).consumeTriggeredChannels l.previousSuperstepChangedFields
  let l := l.markConsumed versions outputs
  { l with state := State.resetEphemeral l.state }

/-! ### Scheduling -/

/-- The pending writes of the checkpoint, where failure markers of a crashed run are looked for, and
the store after the look. -/
def persistedWrites (l : PregelLoop S σ) : σ × List PendingWrite :=
  match l.checkpointer with
  | none => (l.store, [])
  | some cp =>
    if l.errorHandlerMap.entries.isEmpty then (l.store, [])
    else match cp.getTuple l.store l.runnableConfig with
      | (store, .ok (some tuple)) => (store, tuple.pendingWrites)
      | (store, _) => (store, [])

/-- An identifier that no task of the list has. -/
def freshUuid (base : Uuid) (tasks : List (PendingTask S)) : Uuid :=
  tasks.foldl (fun n t => max n (t.id + 1)) base

/-- The scheduling of `after_tick`. -/
def scheduleTasks (l : PregelLoop S σ) (outputs : List (TaskOutput S)) :
    PregelLoop S σ × Except JunctureError Unit :=
  match scheduleNext l.scheduleEnv l.nextUuid (executedOutputs outputs) l.state
    l.persistedWrites.2 with
  | .error e => (l, .error e)
  | .ok tasks =>
    ({ l with
        pendingTasks := tasks
        nextUuid := freshUuid l.nextUuid tasks
        store := l.persistedWrites.1 },
      .ok ())

/-! ### Checkpoints -/

/-- `effective_durability`. -/
def effectiveDurability (l : PregelLoop S σ) : Durability :=
  l.runnableConfig.durability.getD .sync

/-- The checkpoint of the loop, with the given serialized state, tasks, interrupts and counters. -/
def checkpoint (l : PregelLoop S σ) (channelValues : Json)
    (pendingTasks : List CheckpointPendingTask) (pendingInterrupts : List InterruptSignal)
    (counters : Dict DeltaCounters) : Checkpoint where
  id := l.nextUuid
  channelValues
  channelVersions := l.fieldVersions.versions
  versionsSeen := Dict.ofList (l.nodes.keys.map fun n => (n, l.versionsSeen.getSeen n))
  pendingTasks
  pendingSends := []
  pendingInterrupts
  schemaVersion := State.schemaVersion S
  createdAt := l.now
  newVersions := l.fieldVersions.versions
  countersSinceDeltaSnapshot := counters

/-- Its metadata. -/
def checkpointMetadata (l : PregelLoop S σ) (source : CheckpointSource) : CheckpointMetadata where
  source
  step := min l.step (2 ^ 63 - 1)
  runId := l.runId

/-- The pending tasks as a checkpoint keeps them: without the state of a `Send` task. -/
def checkpointTasks (l : PregelLoop S σ) : List CheckpointPendingTask :=
  l.pendingTasks.map fun t => { id := t.id, node := t.nodeName }

/-- A write that the caller waits for. -/
def putCheckpoint (l : PregelLoop S σ) (cp : CheckpointSaver σ) (checkpoint : Checkpoint)
    (metadata : CheckpointMetadata) : PregelLoop S σ × Except JunctureError Unit :=
  match cp.put l.store l.runnableConfig checkpoint metadata with
  | (store, .ok config) =>
    ({ l with
        store
        runnableConfig := { l.runnableConfig with checkpointId := config.checkpointId }
        nextUuid := l.nextUuid + 1
        written := l.written ++ [(checkpoint, metadata)] },
      .ok ())
  | (store, .error e) =>
    ({ l with store, nextUuid := l.nextUuid + 1 }, .error (.ofCheckpointError e))

/-- A write in the durability mode of the run. -/
def writeCheckpoint (l : PregelLoop S σ) (cp : CheckpointSaver σ) (checkpoint : Checkpoint)
    (metadata : CheckpointMetadata) : PregelLoop S σ × Except JunctureError Unit :=
  match l.effectiveDurability with
  | .async =>
    ({ l with
        backgroundPuts := l.backgroundPuts ++ [(l.runnableConfig, checkpoint, metadata)]
        written := l.written ++ [(checkpoint, metadata)]
        nextUuid := l.nextUuid + 1
        deltaCounters := ∅ },
      .ok ())
  | .sync | .exit =>
    andThen (l.putCheckpoint cp checkpoint metadata) fun l _ => ({ l with deltaCounters := ∅ }, .ok ())

/-- `save_interrupt_checkpoint`.  A state that does not serialize is not saved. -/
def saveInterruptCheckpoint (l : PregelLoop S σ) : PregelLoop S σ × Except JunctureError Unit :=
  match l.checkpointer, State.toValue l.state with
  | some cp, .ok values =>
    l.writeCheckpoint cp (l.checkpoint values [] l.pendingInterrupts l.deltaCounters)
      (l.checkpointMetadata (.interrupt (interruptNodeName l.pendingInterrupts)))
  | _, _ => (l, .ok ())

/-- `should_take_full_snapshot`. -/
def shouldTakeFullSnapshot (l : PregelLoop S σ) : Bool :=
  (State.deltaChannelSpecs S).isEmpty || (State.deltaChannelSpecs S).any fun spec =>
    (l.deltaCounters.lookup s!"field_{spec.1}").any fun c => c.exceedsFrequency spec.2

/-- `save_superstep_checkpoint`. -/
def saveSuperstepCheckpoint (l : PregelLoop S σ) : PregelLoop S σ × Except JunctureError Unit :=
  if l.effectiveDurability = .exit ∨ l.shouldTakeFullSnapshot = false then (l, .ok ())
  else match l.checkpointer, State.toValue l.state with
    | some cp, .ok values =>
      l.writeCheckpoint cp (l.checkpoint values l.checkpointTasks [] l.deltaCounters)
        (l.checkpointMetadata .loop)
    | _, _ => (l, .ok ())

/-- `save_exit_checkpoint`: a failed write is only logged. -/
def saveExitCheckpoint (l : PregelLoop S σ) : PregelLoop S σ :=
  match l.checkpointer, State.toValue l.state with
  | some cp, .ok values =>
    (l.putCheckpoint cp (l.checkpoint values l.checkpointTasks [] ∅) (l.checkpointMetadata .loop)).1
  | _, _ => l

/-! ### Stopping or going on -/

/-- `handle_bubble_up_parent_command`: an update that is rejected is only logged. -/
def handleParentCommand (l : PregelLoop S σ) (c : ParentCommand S) : PregelLoop S σ :=
  match c.command.update with
  | none => l
  | some update =>
    match State.tryApply l.state update with
    | (state, .ok changed) => { l with state, fieldVersions := l.fieldVersions.bumpAll changed }
    | (state, .error _) => { l with state }

/-- One report in `handle_bubble_ups`; the flag says that the run has to stop. -/
def handleBubbleUp (acc : PregelLoop S σ × Bool) : BubbleUp S → PregelLoop S σ × Bool
  | .interrupt i => (acc.1.raise i.interrupts (.interruptAfter i.interrupts), true)
  | .drained _ => ({ acc.1 with status := .drained }, true)
  | .parentCommand c => (acc.1.handleParentCommand c, acc.2)

/-- `handle_bubble_ups`. -/
def handleBubbleUps (l : PregelLoop S σ) (bubbleUps : List (BubbleUp S)) :
    PregelLoop S σ × Bool :=
  bubbleUps.foldl handleBubbleUp (l, false)

/-- The exits of `after_tick` that stop the run: the step is not counted. -/
def stop (l : PregelLoop S σ) : PregelLoop S σ × Except JunctureError Unit :=
  if l.status.isInterrupted then
    andThen l.saveInterruptCheckpoint fun l _ => (l.finishAllChannels, .ok ())
  else (l.finishAllChannels, .ok ())

/-- The exit of `after_tick` that counts the step. -/
def countStep (l : PregelLoop S σ) : PregelLoop S σ :=
  let l :=
    if l.pendingTasks.isEmpty then
      if l.effectiveDurability = .exit then l.finishAllChannels.saveExitCheckpoint
      else l.finishAllChannels
    else l
  { l with step := l.step + 1, budgetTracker := l.budgetTracker.map BudgetTracker.reportStep }

/-- The last phase of `after_tick`: the first of an interrupt signal of a node, a report of a
subgraph and a static interrupt stops the run. -/
def finishTick [InterruptHash] (l : PregelLoop S σ) (bubbleUps : List (BubbleUp S)) :
    PregelLoop S σ × Except JunctureError Unit :=
  let signals := l.interruptRx.getD []
  let l := { l with interruptRx := none }
  if signals.isEmpty then
    let (l, stopped) := l.handleBubbleUps bubbleUps
    if stopped then l.stop
    else match l.interruptAfter with
      | some signals => (l.seeVersions.raise signals (.interruptAfter signals)).stop
      | none => (l.countStep, .ok ())
  else (l.raise signals (.interruptAfter signals)).stop

/-- `after_tick`. -/
def afterTick [InterruptHash] (l : PregelLoop S σ) (result : SuperstepResult S) :
    PregelLoop S σ × Except JunctureError Unit :=
  let versions := l.fieldVersions.versions
  andThen (l.mergeWrites result.taskOutputs) fun l changed =>
  andThen ((l.commitWrites versions changed result.taskOutputs).scheduleTasks result.taskOutputs)
    fun l _ =>
  andThen { l with previousSuperstepChangedFields := changed }.saveSuperstepCheckpoint fun l _ =>
  l.finishTick result.bubbleUps

/-- The loop whose state the next tasks are computed in. -/
def committed (l : PregelLoop S σ) (result : SuperstepResult S) : PregelLoop S σ :=
  match l.mergeWrites result.taskOutputs with
  | (l', .ok changed) => l'.commitWrites l.fieldVersions.versions changed result.taskOutputs
  | (l', .error _) => l'

/-- **A successful `afterTick`.** -/
theorem afterTick_eq_ok_iff [InterruptHash] {l l' : PregelLoop S σ} {result : SuperstepResult S} :
    l.afterTick result = (l', .ok ()) ↔
      ∃ l₁ changed l₂ l₃, l.mergeWrites result.taskOutputs = (l₁, .ok changed) ∧
        (l.committed result).scheduleTasks result.taskOutputs = (l₂, .ok ()) ∧
        { l₂ with previousSuperstepChangedFields := changed }.saveSuperstepCheckpoint =
          (l₃, .ok ()) ∧
        l₃.finishTick result.bubbleUps = (l', .ok ()) := by
  simp only [afterTick, andThen_eq_ok_iff]
  constructor
  · rintro ⟨l₁, changed, h₁, l₂, ⟨⟩, h₂, l₃, ⟨⟩, h₃, h₄⟩
    exact ⟨l₁, changed, l₂, l₃, h₁, by simpa only [committed, h₁] using h₂, h₃, h₄⟩
  · rintro ⟨l₁, changed, l₂, l₃, h₁, h₂, h₃, h₄⟩
    exact ⟨l₁, changed, h₁, l₂, (), by simpa only [committed, h₁] using h₂, l₃, (), h₃, h₄⟩

/-! ### What decides how the run goes on -/

/-- What a run goes on with. -/
structure Course (S : Type) where
  /-- Tasks of the next superstep. -/
  pendingTasks : List (PendingTask S)
  /-- Step counter. -/
  step : ℕ
  /-- Its limit. -/
  recursionLimit : ℕ

/-- The course of a loop. -/
def course (l : PregelLoop S σ) : Course S :=
  ⟨l.pendingTasks, l.step, l.runnableConfig.recursionLimit⟩

/-- Course and status, which most of the phases leave alone. -/
def progress (l : PregelLoop S σ) : Course S × LoopStatus := (l.course, l.status)

section Progress

variable (l : PregelLoop S σ)

@[simp] theorem progress_finishAllChannels : l.finishAllChannels.progress = l.progress := by
  unfold finishAllChannels
  split <;> rfl

@[simp] theorem progress_commitWrites (versions : List ℕ) (changed : FieldsChanged)
    (outputs : List (TaskOutput S)) :
    (l.commitWrites versions changed outputs).progress = l.progress := rfl

@[simp] theorem progress_mergeWrites (outputs : List (TaskOutput S)) :
    (l.mergeWrites outputs).1.progress = l.progress := by
  unfold mergeWrites
  rcases applyWrites l.state (executedOutputs outputs) l.fieldVersions l.nodeRegistration with
    ⟨state, versions, e | changed⟩
  · rfl
  · dsimp only
    split <;> rfl

@[simp] theorem progress_committed (result : SuperstepResult S) :
    (l.committed result).progress = l.progress := by
  have hm := l.progress_mergeWrites result.taskOutputs
  unfold committed
  split
  · rename_i l' changed h
    rw [h] at hm
    exact hm
  · rename_i l' e h
    rw [h] at hm
    exact hm

@[simp] theorem progress_putCheckpoint (cp : CheckpointSaver σ) (c : Checkpoint)
    (m : CheckpointMetadata) : (l.putCheckpoint cp c m).1.progress = l.progress := by
  unfold putCheckpoint
  split <;> rfl

@[simp] theorem progress_writeCheckpoint (cp : CheckpointSaver σ) (c : Checkpoint)
    (m : CheckpointMetadata) : (l.writeCheckpoint cp c m).1.progress = l.progress := by
  have hput := l.progress_putCheckpoint cp c m
  unfold writeCheckpoint
  split
  · rfl
  all_goals
    unfold andThen
    split <;> rename_i h <;> rw [h] at hput <;> exact hput

@[simp] theorem progress_saveInterruptCheckpoint :
    l.saveInterruptCheckpoint.1.progress = l.progress := by
  unfold saveInterruptCheckpoint
  split <;> simp

@[simp] theorem progress_saveSuperstepCheckpoint :
    l.saveSuperstepCheckpoint.1.progress = l.progress := by
  unfold saveSuperstepCheckpoint
  split_ifs
  · rfl
  · split <;> simp

@[simp] theorem progress_saveExitCheckpoint : l.saveExitCheckpoint.progress = l.progress := by
  unfold saveExitCheckpoint
  split <;> simp

end Progress

variable {l l' : PregelLoop S σ}

/-- Scheduling replaces the pending tasks and nothing else. -/
theorem progress_scheduleTasks {outputs : List (TaskOutput S)}
    (h : l.scheduleTasks outputs = (l', .ok ())) :
    ∃ tasks, scheduleNext l.scheduleEnv l.nextUuid (executedOutputs outputs) l.state
        l.persistedWrites.2 = .ok tasks ∧
      l'.progress = ({ l.course with pendingTasks := tasks }, l.status) := by
  unfold scheduleTasks at h
  split at h
  · cases h
  · rename_i tasks htasks
    cases h
    exact ⟨tasks, htasks, rfl⟩

theorem progress_stop (h : l.stop = (l', .ok ())) : l'.progress = l.progress := by
  unfold stop at h
  split_ifs at h
  · obtain ⟨l₁, ⟨⟩, h₁, h₂⟩ := andThen_eq_ok_iff.1 h
    have hs := l.progress_saveInterruptCheckpoint
    rw [h₁] at hs
    cases h₂
    rw [progress_finishAllChannels, hs]
  · cases h
    exact l.progress_finishAllChannels

theorem progress_countStep (l : PregelLoop S σ) :
    l.countStep.progress = ({ l.course with step := l.step + 1 }, l.status) := by
  have hcount : ∀ k : PregelLoop S σ, k.progress = l.progress →
      { k with step := k.step + 1, budgetTracker := k.budgetTracker.map .reportStep }.progress =
        ({ l.course with step := l.step + 1 }, l.status) := by
    intro k hk
    rw [← show k.step = l.step from congrArg (fun p => p.1.step) hk,
      ← show k.course = l.course from congrArg Prod.fst hk,
      ← show k.status = l.status from congrArg Prod.snd hk]
    rfl
  unfold countStep
  split_ifs
  · exact hcount _ (by simp)
  · exact hcount _ (by simp)
  · exact hcount _ rfl

/-- What the reports of subgraphs can change. -/
theorem handleBubbleUps_eq (l : PregelLoop S σ) (bubbleUps : List (BubbleUp S)) :
    ∃ state fieldVersions pendingInterrupts status, (l.handleBubbleUps bubbleUps).1 =
      { l with state, fieldVersions, pendingInterrupts, status } := by
  have hfold : ∀ (us : List (BubbleUp S)) (acc : PregelLoop S σ × Bool),
      ∃ state fieldVersions pendingInterrupts status, (us.foldl handleBubbleUp acc).1 =
        { acc.1 with state, fieldVersions, pendingInterrupts, status } := by
    intro us
    induction us with
    | nil => exact fun acc => ⟨_, _, _, _, rfl⟩
    | cons u us ih =>
      intro acc
      obtain ⟨_, _, _, _, heq⟩ := ih (handleBubbleUp acc u)
      rw [List.foldl_cons, heq]
      cases u with
      | interrupt i => exact ⟨_, _, _, _, rfl⟩
      | drained d => exact ⟨_, _, _, _, rfl⟩
      | parentCommand c =>
        -- The update of a command is merged, or what is left of a rejected one stays.
        simp only [handleBubbleUp, handleParentCommand]
        split
        · exact ⟨_, _, _, _, rfl⟩
        · split
          · exact ⟨_, _, _, _, rfl⟩
          · exact ⟨_, _, _, _, rfl⟩
  exact hfold bubbleUps (l, false)

theorem progress_handleParentCommand (l : PregelLoop S σ) (c : ParentCommand S) :
    (l.handleParentCommand c).progress = l.progress := by
  unfold handleParentCommand
  split
  · rfl
  · split <;> rfl

/-- What reports may have done to the loop `l`: they leave its course alone, and halt it when they
stop the run. -/
def Reported (l : PregelLoop S σ) (acc : PregelLoop S σ × Bool) : Prop :=
  acc.1.course = l.course ∧
    if acc.2 then acc.1.status.halted = true else acc.1.status = l.status

theorem Reported.step {acc : PregelLoop S σ × Bool} (h : l.Reported acc) (b : BubbleUp S) :
    l.Reported (handleBubbleUp acc b) := by
  obtain ⟨k, stopped⟩ := acc
  obtain ⟨hc, hs⟩ := h
  cases b with
  | interrupt i => exact ⟨hc, rfl⟩
  | drained d => exact ⟨hc, rfl⟩
  | parentCommand c =>
    have hk := k.progress_handleParentCommand c
    refine ⟨(congrArg Prod.fst hk).trans hc, ?_⟩
    rw [← show (k.handleParentCommand c).status = k.status from congrArg Prod.snd hk] at hs
    exact hs

theorem reported_handleBubbleUps (l : PregelLoop S σ) (bubbleUps : List (BubbleUp S)) :
    l.Reported (l.handleBubbleUps bubbleUps) := by
  have hfold : ∀ (bs : List (BubbleUp S)) (acc : PregelLoop S σ × Bool), l.Reported acc →
      l.Reported (bs.foldl handleBubbleUp acc) := by
    intro bs
    induction bs with
    | nil => intro acc h; exact h
    | cons b bs ih => intro acc h; exact ih _ (h.step b)
  exact hfold bubbleUps (l, false) ⟨rfl, rfl⟩

theorem halted_of_stop {k : PregelLoop S σ} (hc : k.course = l.course)
    (hhalt : k.status.halted = true) (h : k.stop = (l', .ok ())) :
    l'.status.halted = true ∧ l'.course = l.course := by
  have hp := progress_stop h
  rw [show l'.status = k.status from congrArg Prod.snd hp,
    show l'.course = k.course from congrArg Prod.fst hp]
  exact ⟨hhalt, hc⟩

/-- **How a superstep ends.**  Either the loop is halted and the step not counted, or the step is
counted and the status is as it was. -/
theorem finishTick_progress [InterruptHash] {bubbleUps : List (BubbleUp S)}
    (h : l.finishTick bubbleUps = (l', .ok ())) :
    l'.status.halted = true ∧ l'.course = l.course ∨
      l'.progress = ({ l.course with step := l.step + 1 }, l.status) := by
  unfold finishTick at h
  simp only at h
  have hrep := reported_handleBubbleUps { l with interruptRx := none } bubbleUps
  generalize { l with interruptRx := none }.handleBubbleUps bubbleUps = r at h hrep
  obtain ⟨k, stopped⟩ := r
  obtain ⟨hc, hs⟩ := hrep
  have hc : k.course = l.course := hc
  split_ifs at h with hsig hstop
  · have hstop : stopped = true := hstop
    rw [hstop] at hs
    exact .inl (halted_of_stop hc hs h)
  · have hstop : stopped = false := by simpa using hstop
    have hs : k.status = l.status := by simpa [hstop] using hs
    split at h
    · rename_i signals _
      exact .inl (halted_of_stop (k := k.seeVersions.raise signals (.interruptAfter signals)) hc rfl h)
    · cases h
      right
      rw [progress_countStep, hc, hs, show k.step = l.step from congrArg Course.step hc]
  · exact .inl (halted_of_stop (k := { l with interruptRx := none }.raise _ _) rfl rfl h)

/-- **Where a successful `afterTick` leads.** -/
theorem afterTick_course [InterruptHash] {result : SuperstepResult S}
    (h : l.afterTick result = (l', .ok ())) :
    ∃ tasks, scheduleNext (l.committed result).scheduleEnv (l.committed result).nextUuid
        (executedOutputs result.taskOutputs) (l.committed result).state
        (l.committed result).persistedWrites.2 = .ok tasks ∧
      (l'.status.halted = true ∧ l'.course = { l.course with pendingTasks := tasks } ∨
        l'.status = l.status ∧
          l'.course = { l.course with pendingTasks := tasks, step := l.step + 1 }) := by
  obtain ⟨l₁, changed, l₂, l₃, -, h₂, h₃, h₄⟩ := afterTick_eq_ok_iff.1 h
  obtain ⟨tasks, htasks, hp₂⟩ := progress_scheduleTasks h₂
  have hp₃ := { l₂ with previousSuperstepChangedFields := changed }.progress_saveSuperstepCheckpoint
  rw [h₃] at hp₃
  have hp : l₃.progress = ({ l.course with pendingTasks := tasks }, l.status) := by
    have hcom := l.progress_committed result
    rw [show (l.committed result).course = l.course from congrArg Prod.fst hcom,
      show (l.committed result).status = l.status from congrArg Prod.snd hcom] at hp₂
    exact hp₃.trans hp₂
  have hc : l₃.course = { l.course with pendingTasks := tasks } := congrArg Prod.fst hp
  have hs : l₃.status = l.status := congrArg Prod.snd hp
  refine ⟨tasks, htasks, ?_⟩
  obtain ⟨hhalt, hc'⟩ | hp' := finishTick_progress h₄
  · exact .inl ⟨hhalt, hc'.trans hc⟩
  · refine .inr ⟨(congrArg Prod.snd hp').trans hs, ?_⟩
    have hstep : l₃.step = l.step := congrArg Course.step hc
    rw [show l'.course = _ from congrArg Prod.fst hp', hc, hstep]

end PregelLoop

end Juncture
