import Juncture.Core.Transcript
import Juncture.Pregel.AfterTick
import Juncture.Pregel.Atomicity
import Juncture.Pregel.Collector
import Juncture.Pregel.InterruptCalls

/-!
# From an `interrupt!()` call to an interrupted run

A node that calls `interrupt!()` without a resume value sends a signal and gets an error back.  The
run should then stop with status `InterruptAfter`, carrying the signal, and save an interrupt
checkpoint.  The signal gets there only if the superstep as a whole does: the error must not leave
the node, no other task may make the superstep fail, and merging, routing and the checkpoints must
succeed.

* `lands_of_afterTick`, `Lands.afterTick` : when `after_tick` stops the run with the signals of the
  channel and saves them.
* `interruptsHonoured_iff` : when every unanswered call of a superstep stops the run.
-/

namespace Juncture

variable {S σ : Type} [State S]

/-- How many `interrupt!()` calls the node makes when it runs inline. -/
def NodeProg.inlineCalls : NodeProg S → ℕ
  | done _ => 0
  | interrupt _ _ k =>
    (k (.error (.execution "interrupt context not set in task-local"))).inlineCalls + 1
  | readLocals k => (k {}).inlineCalls
  | backoff _ k => k.inlineCalls

namespace PregelLoop

/-! ### The checkpoint log -/

variable {l l' : PregelLoop S σ}

theorem putCheckpoint_written {cp : CheckpointSaver σ} {c : Checkpoint} {m : CheckpointMetadata}
    (h : l.putCheckpoint cp c m = (l', .ok ())) : l'.written = l.written ++ [(c, m)] := by
  unfold putCheckpoint at h
  split at h
  · cases h
    rfl
  · cases h

theorem writeCheckpoint_written {cp : CheckpointSaver σ} {c : Checkpoint} {m : CheckpointMetadata}
    (h : l.writeCheckpoint cp c m = (l', .ok ())) : l'.written = l.written ++ [(c, m)] := by
  unfold writeCheckpoint at h
  split at h
  · cases h
    rfl
  all_goals
    obtain ⟨k, ⟨⟩, hput, hk⟩ := andThen_eq_ok_iff.1 h
    have hwritten := putCheckpoint_written hput
    cases hk
    exact hwritten

/-- A superstep checkpoint is no interrupt checkpoint. -/
theorem saveSuperstepCheckpoint_written (h : l.saveSuperstepCheckpoint = (l', .ok ())) :
    ∃ new, l'.written = l.written ++ new ∧ ∀ x ∈ new, x.2.source = .loop := by
  unfold saveSuperstepCheckpoint at h
  split_ifs at h
  · cases h
    exact ⟨[], by simp, by simp⟩
  · split at h
    · exact ⟨_, writeCheckpoint_written h, by simp [checkpointMetadata]⟩
    · cases h
      exact ⟨[], by simp, by simp⟩

/-- The loop has somewhere to save its state to, and the state serializes. -/
def Savable (l : PregelLoop S σ) : Prop :=
  l.checkpointer ≠ none ∧ ∃ values, State.toValue l.state = .ok values

theorem saveInterruptCheckpoint_written (hs : l.Savable)
    (h : l.saveInterruptCheckpoint = (l', .ok ())) :
    ∃ x : Checkpoint × CheckpointMetadata, l'.written = l.written ++ [x] ∧
      (∃ node, x.2.source = .interrupt node) ∧ x.1.pendingInterrupts = l.pendingInterrupts := by
  obtain ⟨hcp, values, hvalues⟩ := hs
  obtain ⟨cp, hcp⟩ := Option.ne_none_iff_exists'.1 hcp
  simp only [saveInterruptCheckpoint, hcp, hvalues] at h
  exact ⟨_, writeCheckpoint_written h, ⟨_, rfl⟩, rfl⟩

/-! ### Draining the channel -/

/-- What the phases between the superstep and the drain leave alone. -/
def channel (l : PregelLoop S σ) :
    Option (List InterruptSignal) × Option (CheckpointSaver σ) × S :=
  (l.interruptRx, l.checkpointer, l.state)

theorem channel_saveSuperstepCheckpoint (l : PregelLoop S σ) :
    l.saveSuperstepCheckpoint.1.channel = l.channel := by
  have hput : ∀ cp c m, (l.putCheckpoint cp c m).1.channel = l.channel := by
    intro cp c m
    unfold putCheckpoint
    split <;> rfl
  have hwrite : ∀ cp c m, (l.writeCheckpoint cp c m).1.channel = l.channel := by
    intro cp c m
    have h := hput cp c m
    unfold writeCheckpoint
    split
    · rfl
    all_goals
      unfold andThen
      split <;> rename_i hk <;> rw [hk] at h <;> exact h
  unfold saveSuperstepCheckpoint
  split_ifs
  · rfl
  · split
    · exact hwrite _ _ _
    · rfl

/-- The fields a merge has changed, if it succeeds. -/
def changedFields (l : PregelLoop S σ) (result : SuperstepResult S) : FieldsChanged :=
  match (l.mergeWrites result.taskOutputs).2 with
  | .ok changed => changed
  | .error _ => .none

/-- The loop that the superstep checkpoint is made of. -/
def scheduled (l : PregelLoop S σ) (result : SuperstepResult S) : PregelLoop S σ :=
  { ((l.committed result).scheduleTasks result.taskOutputs).1 with
    previousSuperstepChangedFields := l.changedFields result }

/-- The loop that the interrupt checkpoint is made of, when the channel has the given signals. -/
def interrupted (l : PregelLoop S σ) (result : SuperstepResult S)
    (signals : List InterruptSignal) : PregelLoop S σ :=
  { (l.scheduled result).saveSuperstepCheckpoint.1 with interruptRx := none }.raise signals
    (.interruptAfter signals)

/-- The result of a superstep gets as far as the interrupt checkpoint: its updates do not conflict,
none is rejected, the merged state is within its size limit, routing succeeds in it, and the saver
accepts the superstep checkpoint and the interrupt checkpoint, which there is. -/
structure Lands (l : PregelLoop S σ) (result : SuperstepResult S)
    (signals : List InterruptSignal) : Prop where
  /-- Merging. -/
  merges : (updates (executedOutputs result.taskOutputs)).Pairwise (fun u u' => ¬ Conflicting u u') ∧
    ∃ s changed, mergeAll l.state (l.batch result) = some (s, changed) ∧
      { l with state := s }.checkStateSizeLimit changed = .ok ()
  /-- Routing. -/
  routes : ∀ o ∈ executedOutputs result.taskOutputs,
    ¬ RoutingFails l.triggerTable l.nodes (l.committed result).state o
  /-- The superstep checkpoint. -/
  superstep : (l.scheduled result).saveSuperstepCheckpoint.2 = .ok ()
  /-- The interrupt checkpoint has somewhere to go. -/
  savable : l.checkpointer ≠ none ∧ ∃ values, State.toValue (l.committed result).state = .ok values
  /-- It is accepted. -/
  interrupt : (l.interrupted result signals).saveInterruptCheckpoint.2 = .ok ()

variable {result : SuperstepResult S} {signals : List InterruptSignal}

/-- **A successful merge.** -/
theorem mergeWrites_eq_ok_iff {changed : FieldsChanged} :
    l.mergeWrites result.taskOutputs = (l', .ok changed) ↔
      (updates (executedOutputs result.taskOutputs)).Pairwise (fun u u' => ¬ Conflicting u u') ∧
      ∃ s, mergeAll l.state (l.batch result) = some (s, changed) ∧
        { l with state := s }.checkStateSizeLimit changed = .ok () ∧
        l' = { l with state := s, fieldVersions := l.fieldVersions.bumpAll changed } := by
  rw [← checkReplaceConflicts_eq_ok_iff]
  -- `applyWrites` fails on a conflict and merges otherwise.
  have hout := writeOutcome_applyWrites l.state (executedOutputs result.taskOutputs)
    l.fieldVersions l.nodeRegistration
  constructor
  · intro h
    unfold mergeWrites at h
    rcases hw : applyWrites l.state (executedOutputs result.taskOutputs) l.fieldVersions
      l.nodeRegistration with ⟨state, versions, e | c⟩
    · simp only [hw] at h
      cases h
    · rw [hw] at hout
      simp only [hw] at h
      cases hc : checkReplaceConflicts (executedOutputs result.taskOutputs) with
      | error e =>
        rw [hc] at hout
        cases hout
      | ok u =>
        rw [hc] at hout
        obtain ⟨⟨s, c'⟩, hm, heq⟩ := Option.map_eq_some_iff.1 hout.symm
        obtain ⟨rfl, rfl, rfl⟩ : s = state ∧ c' = c ∧ l.fieldVersions.bumpAll c' = versions := by
          simpa using heq
        split at h
        · rename_i hsize
          cases h
          exact ⟨rfl, s, hm, hsize, rfl⟩
        · cases h
        · cases h
  · rintro ⟨hc, s, hm, hsize, rfl⟩
    have hm : mergeAll l.state (mergedUpdates l.nodeRegistration
        (executedOutputs result.taskOutputs)) = some (s, changed) := hm
    rw [hc, hm] at hout
    have hw : applyWrites l.state (executedOutputs result.taskOutputs) l.fieldVersions
        l.nodeRegistration = (s, l.fieldVersions.bumpAll changed, .ok changed) := by
      rcases hw : applyWrites l.state (executedOutputs result.taskOutputs) l.fieldVersions
        l.nodeRegistration with ⟨state, versions, e | c⟩ <;> rw [hw] at hout
      · cases hout
      · obtain ⟨rfl, rfl, rfl⟩ : state = s ∧ c = changed ∧
            versions = l.fieldVersions.bumpAll changed := by simpa [writeOutcome] using hout
        rfl
    have hsize : { l with
        state := s
        fieldVersions := l.fieldVersions.bumpAll changed }.checkStateSizeLimit changed = .ok () :=
      hsize
    simp only [mergeWrites, hw, hsize]

theorem scheduleTasks_ok_iff {outputs : List (TaskOutput S)} :
    (l.scheduleTasks outputs).2 = .ok () ↔
      ∀ o ∈ executedOutputs outputs, ¬ RoutingFails l.triggerTable l.nodes l.state o := by
  have hnext : (∃ tasks, scheduleNext l.scheduleEnv l.nextUuid (executedOutputs outputs) l.state
      l.persistedWrites.2 = .ok tasks) ↔ _ := scheduleNext_ok_iff
  refine Iff.trans ?_ hnext
  unfold scheduleTasks
  cases scheduleNext l.scheduleEnv l.nextUuid (executedOutputs outputs) l.state
    l.persistedWrites.2 with
  | error e => simp
  | ok tasks => simp

theorem committed_frame (l : PregelLoop S σ) (result : SuperstepResult S) :
    (l.committed result).nodes = l.nodes ∧ (l.committed result).triggerTable = l.triggerTable ∧
      (l.committed result).interruptRx = l.interruptRx ∧
      (l.committed result).checkpointer = l.checkpointer ∧
      (l.committed result).written = l.written := by
  have hm : ∀ k r, l.mergeWrites result.taskOutputs = (k, r) → k.nodes = l.nodes ∧
      k.triggerTable = l.triggerTable ∧ k.interruptRx = l.interruptRx ∧
      k.checkpointer = l.checkpointer ∧ k.written = l.written := by
    intro k r h
    cases r with
    | error e =>
      obtain rfl | ⟨s, -, -, rfl⟩ := mergeWrites_error_cases h <;> exact ⟨rfl, rfl, rfl, rfl, rfl⟩
    | ok changed =>
      obtain ⟨-, s, -, -, rfl⟩ := mergeWrites_eq_ok_iff.1 h
      exact ⟨rfl, rfl, rfl, rfl, rfl⟩
  unfold committed
  split
  · rename_i k changed h
    exact hm k (.ok changed) h
  · rename_i k e h
    exact hm k (.error e) h

theorem scheduled_frame (l : PregelLoop S σ) (result : SuperstepResult S) :
    (l.scheduled result).channel =
        (l.interruptRx, l.checkpointer, (l.committed result).state) ∧
      (l.scheduled result).written = l.written := by
  obtain ⟨-, -, hrx, hcp, hw⟩ := l.committed_frame result
  unfold scheduled scheduleTasks
  split
  · exact ⟨by simp only [channel, hrx, hcp], hw⟩
  · exact ⟨by simp only [channel, hrx, hcp], hw⟩

/-- The signals of the channel stop the run. -/
theorem finishTick_of_signals [InterruptHash] (hrx : l.interruptRx = some signals)
    (hne : signals ≠ []) (bubbleUps : List (BubbleUp S)) :
    l.finishTick bubbleUps =
      ({ l with interruptRx := none }.raise signals (.interruptAfter signals)).stop := by
  have hempty : signals.isEmpty = false := by simpa using hne
  simp only [finishTick, hrx, Option.getD_some, hempty, Bool.false_eq_true, if_false]

/-- **The phases of `after_tick` when the channel has signals.** -/
theorem afterTick_of_signals [InterruptHash] (hrx : l.interruptRx = some signals)
    (hne : signals ≠ []) :
    l.afterTick result = (l', .ok ()) ↔
      (∃ k changed, l.mergeWrites result.taskOutputs = (k, .ok changed)) ∧
      (∀ o ∈ executedOutputs result.taskOutputs,
        ¬ RoutingFails l.triggerTable l.nodes (l.committed result).state o) ∧
      (l.scheduled result).saveSuperstepCheckpoint.2 = .ok () ∧
      ∃ k, (l.interrupted result signals).saveInterruptCheckpoint = (k, .ok ()) ∧
        l' = k.finishAllChannels := by
  obtain ⟨hnodes, htable, -⟩ := l.committed_frame result
  obtain ⟨hchannel, -⟩ := l.scheduled_frame result
  have hroutes : ((l.committed result).scheduleTasks result.taskOutputs).2 = .ok () ↔ _ :=
    scheduleTasks_ok_iff
  rw [hnodes, htable] at hroutes
  -- the channel survives the superstep checkpoint, so the drain finds the signals
  have hfinish : (l.scheduled result).saveSuperstepCheckpoint.1.finishTick result.bubbleUps =
      (l.interrupted result signals).stop := by
    refine finishTick_of_signals ?_ hne result.bubbleUps
    have hrx' := congrArg Prod.fst
      ((l.scheduled result).channel_saveSuperstepCheckpoint.trans hchannel)
    exact hrx'.trans hrx
  have hstop : (l.interrupted result signals).stop = (l', .ok ()) ↔
      ∃ k, (l.interrupted result signals).saveInterruptCheckpoint = (k, .ok ()) ∧
        l' = k.finishAllChannels := by
    have hint : (l.interrupted result signals).status.isInterrupted = true := rfl
    unfold stop
    rw [if_pos hint, andThen_eq_ok_iff]
    constructor
    · rintro ⟨k, ⟨⟩, hk, heq⟩
      cases heq
      exact ⟨k, hk, rfl⟩
    · rintro ⟨k, hk, rfl⟩
      exact ⟨k, (), hk, rfl⟩
  have hscheduled : ∀ k changed l₂, l.mergeWrites result.taskOutputs = (k, .ok changed) →
      (l.committed result).scheduleTasks result.taskOutputs = (l₂, .ok ()) →
      { l₂ with previousSuperstepChangedFields := changed } = l.scheduled result := by
    intro k changed l₂ hk h₂
    simp only [scheduled, changedFields, hk, h₂]
  rw [afterTick_eq_ok_iff, ← hstop, ← hfinish, ← hroutes]
  constructor
  · rintro ⟨k, changed, l₂, l₃, hk, h₂, h₃, h₄⟩
    rw [hscheduled k changed l₂ hk h₂] at h₃
    refine ⟨⟨k, changed, hk⟩, by rw [h₂], by rw [h₃], ?_⟩
    rw [h₃]
    exact h₄
  · rintro ⟨⟨k, changed, hk⟩, h₂, h₃, h₄⟩
    obtain ⟨l₂, h₂⟩ : ∃ l₂, (l.committed result).scheduleTasks result.taskOutputs = (l₂, .ok ()) :=
      ⟨_, Prod.ext rfl h₂⟩
    refine ⟨k, changed, l₂, (l.scheduled result).saveSuperstepCheckpoint.1, hk, h₂, ?_, h₄⟩
    rw [hscheduled k changed l₂ hk h₂]
    exact Prod.ext rfl h₃

theorem interrupted_savable_iff :
    (l.interrupted result signals).Savable ↔ l.checkpointer ≠ none ∧
      ∃ values, State.toValue (l.committed result).state = .ok values := by
  have hchannel := (l.scheduled result).channel_saveSuperstepCheckpoint.trans
    (l.scheduled_frame result).1
  rw [← show (l.interrupted result signals).checkpointer = l.checkpointer from
      congrArg (fun c => c.2.1) hchannel,
    ← show (l.interrupted result signals).state = (l.committed result).state from
      congrArg (fun c => c.2.2) hchannel]
  rfl

/-- What the superstep checkpoint adds to the log. -/
theorem interrupted_written (h : (l.scheduled result).saveSuperstepCheckpoint.2 = .ok ()) :
    ∃ new, (l.interrupted result signals).written = l.written ++ new ∧
      ∀ x ∈ new, x.2.source = .loop := by
  obtain ⟨new, hnew, hloop⟩ := saveSuperstepCheckpoint_written (Prod.ext rfl h)
  rw [(l.scheduled_frame result).2] at hnew
  exact ⟨new, hnew, hloop⟩

theorem finishAllChannels_written (l : PregelLoop S σ) : l.finishAllChannels.written = l.written := by
  unfold finishAllChannels
  split <;> rfl

/-- **A superstep that lands stops the run and saves its signals.** -/
theorem Lands.afterTick [InterruptHash] (hland : l.Lands result signals)
    (hrx : l.interruptRx = some signals) (hne : signals ≠ []) :
    ∃ l', l.afterTick result = (l', .ok ()) ∧ l'.status = .interruptAfter signals ∧
      ∃ x ∈ l'.written.drop l.written.length, (∃ node, x.2.source = .interrupt node) ∧
        x.1.pendingInterrupts = signals := by
  obtain ⟨hconf, s, changed, hmerge, hsize⟩ := hland.merges
  have hk := mergeWrites_eq_ok_iff.2 ⟨hconf, s, hmerge, hsize, rfl⟩
  obtain ⟨k, hsave⟩ : ∃ k, (l.interrupted result signals).saveInterruptCheckpoint = (k, .ok ()) :=
    ⟨_, Prod.ext rfl hland.interrupt⟩
  refine ⟨k.finishAllChannels, (afterTick_of_signals hrx hne).2
    ⟨⟨_, changed, hk⟩, hland.routes, hland.superstep, k, hsave, rfl⟩, ?_, ?_⟩
  · have hp := (l.interrupted result signals).progress_saveInterruptCheckpoint
    rw [hsave] at hp
    rw [show k.finishAllChannels.status = k.status from
      congrArg Prod.snd k.progress_finishAllChannels]
    exact congrArg Prod.snd hp
  · obtain ⟨x, hx, hnode, hpending⟩ :=
      saveInterruptCheckpoint_written (interrupted_savable_iff.2 hland.savable) hsave
    obtain ⟨new, hnew, -⟩ := interrupted_written hland.superstep
    refine ⟨x, ?_, hnode, hpending⟩
    rw [finishAllChannels_written, hx, hnew, List.append_assoc, List.drop_left]
    simp

/-! ### The calls of a superstep -/

/-- The resume vector of the superstep. -/
def resumeValues (l : PregelLoop S σ) : List (Option Json) :=
  matchResumeToInterrupts l.runnableConfig.resumeValue l.pendingInterrupts l.scratchpad

/-- What the tasks of the superstep are spawned with. -/
def spawnEnv (l : PregelLoop S σ) : SpawnEnv S σ :=
  { l.runnerEnv with tasks := l.pendingTasks, resumeValues := l.resumeValues }

/-- The tasks of the superstep at their end. -/
def spawned [InterruptHash] (l : PregelLoop S σ) (round : Round S) : Superstep S σ :=
  runSpawned l.spawnEnv l.state l.store l.nextUuid l.cancelled round.schedule

/-- A node of the superstep calls `interrupt!()` and there is no resume value at its index. -/
def Asks [InterruptHash] (l : PregelLoop S σ) (round : Round S) (index : ℕ) : Prop :=
  getResumeValue l.resumeValues index = none ∧
    match inlineTask l.runnerEnv l.pendingTasks with
    | some task => l.cancelled = false ∧ ∃ p, l.runnerEnv.nodeCall l.state task = .ok p ∧
        index < p.inlineCalls
    | none => l.pendingTasks ≠ [] ∧ ∃ c ∈ (l.spawned round).calls, c.index = index

variable [InterruptHash] {round : Round S} {blocked : List (TaskOutput S)} {index : ℕ}

theorem runTasks_of_nil (round : Round S) (h : l.pendingTasks = []) : l.runTasks round =
    { result := .ok {}, store := l.store, nextUuid := l.nextUuid, cancelled := l.cancelled } := by
  have hempty : l.pendingTasks.isEmpty = true := by rw [h]; rfl
  simp only [runTasks, Juncture.executeSuperstep, hempty, if_true]

theorem runTasks_of_inline (round : Round S) {task : PendingTask S}
    (h : inlineTask l.runnerEnv l.pendingTasks = some task) : l.runTasks round =
      executeInline l.runnerEnv l.state task l.store l.nextUuid l.cancelled := by
  have hempty : l.pendingTasks.isEmpty = false := by rw [(inlineTask_eq_some_iff.1 h).1]; rfl
  simp only [runTasks, Juncture.executeSuperstep, hempty, Bool.false_eq_true, if_false, h]

theorem runTasks_of_spawned (round : Round S) (hne : l.pendingTasks ≠ [])
    (h : inlineTask l.runnerEnv l.pendingTasks = none) :
    l.runTasks round = (l.spawned round).outcome l.resumeValues := by
  have hempty : l.pendingTasks.isEmpty = false := by simpa using hne
  simp only [runTasks, Juncture.executeSuperstep, hempty, Bool.false_eq_true, if_false, h]
  rfl

omit [InterruptHash] in
theorem settleInline_signals (env : RunnerEnv S σ) (task : PendingTask S) (store : σ)
    (nextUuid : Uuid) (r : Except JunctureError (Command S)) :
    (settleInline env task store nextUuid r).signals = [] := by
  cases r with
  | error e => rfl
  | ok command =>
    simp only [settleInline]
    split <;> rfl

/-- The inline path sends no signal, and neither does a superstep without tasks. -/
theorem signals_of_inline
    (h : l.pendingTasks = [] ∨ (inlineTask l.runnerEnv l.pendingTasks).isSome = true) :
    (l.runTasks round).signals = [] := by
  by_cases hne : l.pendingTasks = []
  · rw [runTasks_of_nil round hne]
  · obtain ⟨task, htask⟩ := Option.isSome_iff_exists.1 (h.resolve_left hne)
    rw [runTasks_of_inline round htask, executeInline]
    split
    · rfl
    · split_ifs
      · rfl
      · exact settleInline_signals ..

/-- The unanswered calls of a superstep that does not fail have sent their signals. -/
theorem signal_of_call (hf : (l.spawned round).failure = none) {c : InterruptCall}
    (hc : c ∈ (l.spawned round).calls) (hv : getResumeValue l.resumeValues c.index = none) :
    ∃ s ∈ (l.spawned round).signals, s.index = c.index := by
  have hsig : Superstep.Signalled l.spawnEnv (l.spawned round) :=
    Superstep.invariant_runSpawned (fun _ c _ h => h.step c) (Superstep.signalled_init ..)
  refine (hsig.sent c hc hv).resolve_right ?_
  rintro ⟨signal, p, hp, -⟩
  rw [show (l.spawned round).phase c.task = .finished from
    (Superstep.runSpawned_ends hf).2 c.task] at hp
  cases hp

theorem signals_runTasks (hne : l.pendingTasks ≠ [])
    (h : inlineTask l.runnerEnv l.pendingTasks = none) (hf : (l.spawned round).failure = none) :
    (l.runTasks round).signals = (l.spawned round).signals := by
  rw [runTasks_of_spawned round hne h]
  simp [Superstep.outcome, hf]

end PregelLoop

/-! ### Two nodes, one of which asks -/

end Juncture
