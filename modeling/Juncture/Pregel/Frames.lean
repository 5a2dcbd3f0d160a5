import Juncture.Pregel.Halting
import Juncture.Pregel.InterruptStop

/-!
# What the phases of a turn can change

Each phase of a turn changes a few fields of the loop and leaves the others alone.  The lemmas here
say so once, as equations between the loop after the phase and an update of the loop before it, and
take the last phase of `after_tick` apart into its exits.

* `saved_saveSuperstepCheckpoint`, `saved_of_stop` : saving a checkpoint.
* `superstep_frame` : everything up to `after_tick`.
* `finishTick_cases` : the exits of `after_tick`.
-/

namespace Juncture

namespace PregelLoop

variable {S σ : Type} [State S] {l l' k : PregelLoop S σ}

/-! ### Saving -/

/-- The loop after a checkpoint may have been saved. -/
def Saved (l l' : PregelLoop S σ) : Prop :=
  ∃ store checkpointId nextUuid backgroundPuts written deltaCounters,
    l' = { l with
      store
      runnableConfig := { l.runnableConfig with checkpointId }
      nextUuid
      backgroundPuts
      written
      deltaCounters }

theorem Saved.refl (l : PregelLoop S σ) : l.Saved l := ⟨_, _, _, _, _, _, rfl⟩

theorem Saved.trans (h : l.Saved k) (h' : k.Saved l') : l.Saved l' := by
  obtain ⟨_, _, _, _, _, _, rfl⟩ := h
  obtain ⟨_, _, _, _, _, _, rfl⟩ := h'
  exact ⟨_, _, _, _, _, _, rfl⟩

theorem saved_putCheckpoint (l : PregelLoop S σ) (cp : CheckpointSaver σ) (c : Checkpoint)
    (m : CheckpointMetadata) : l.Saved (l.putCheckpoint cp c m).1 := by
  unfold putCheckpoint
  split
  · exact ⟨_, _, _, _, _, _, rfl⟩
  · exact ⟨_, _, _, _, _, _, rfl⟩

theorem saved_writeCheckpoint (l : PregelLoop S σ) (cp : CheckpointSaver σ) (c : Checkpoint)
    (m : CheckpointMetadata) : l.Saved (l.writeCheckpoint cp c m).1 := by
  have hput := l.saved_putCheckpoint cp c m
  unfold writeCheckpoint
  split
  · exact ⟨_, _, _, _, _, _, rfl⟩
  all_goals
    unfold andThen
    split
    · rename_i heq
      rw [heq] at hput
      exact hput.trans ⟨_, _, _, _, _, _, rfl⟩
    · rename_i heq
      rw [heq] at hput
      exact hput

theorem saved_saveSuperstepCheckpoint (l : PregelLoop S σ) :
    l.Saved l.saveSuperstepCheckpoint.1 := by
  unfold saveSuperstepCheckpoint
  split
  · exact .refl l
  · split
    · exact l.saved_writeCheckpoint _ _ _
    · exact .refl l

theorem saved_saveInterruptCheckpoint (l : PregelLoop S σ) :
    l.Saved l.saveInterruptCheckpoint.1 := by
  unfold saveInterruptCheckpoint
  split
  · exact l.saved_writeCheckpoint _ _ _
  · exact .refl l

theorem saved_saveExitCheckpoint (l : PregelLoop S σ) : l.Saved l.saveExitCheckpoint := by
  unfold saveExitCheckpoint
  split
  · exact l.saved_putCheckpoint _ _ _
  · exact .refl l

/-- The exits that stop the run save at most a checkpoint. -/
theorem saved_of_stop (h : l.stop = (l', .ok ())) :
    ∃ k, l.Saved k ∧ l' = k.finishAllChannels := by
  unfold stop at h
  split_ifs at h
  · obtain ⟨k, ⟨⟩, hk, hl⟩ := andThen_eq_ok_iff.1 h
    have hsaved := l.saved_saveInterruptCheckpoint
    rw [hk] at hsaved
    cases hl
    exact ⟨k, hsaved, rfl⟩
  · cases h
    exact ⟨l, .refl l, rfl⟩

/-- The exit that counts the step finishes the channels, and saves at most a checkpoint, when
nothing is pending. -/
theorem saved_of_countStep (l : PregelLoop S σ) :
    ∃ k, (k = l ∨ l.finishAllChannels.Saved k) ∧ l.countStep = { k with
      step := k.step + 1
      budgetTracker := k.budgetTracker.map BudgetTracker.reportStep } := by
  unfold countStep
  split_ifs
  · exact ⟨_, .inr (saved_saveExitCheckpoint _), rfl⟩
  · exact ⟨_, .inr (.refl _), rfl⟩
  · exact ⟨l, .inl rfl, rfl⟩

/-! ### Before `after_tick` -/

/-- The loop when `after_tick` is called. -/
def Ran (l l' : PregelLoop S σ) : Prop :=
  ∃ pendingTasks circuitBreakerStates store backgroundPuts nextUuid cancelled drainRequested now
    lags budgetTracker scratchpad interruptRx,
    l' = { l with
      pendingTasks
      circuitBreakerStates
      store
      backgroundPuts
      nextUuid
      cancelled
      drainRequested
      now
      lags
      budgetTracker
      scratchpad
      interruptRx }

theorem Ran.trans (h : l.Ran k) (h' : k.Ran l') : l.Ran l' := by
  obtain ⟨_, _, _, _, _, _, _, _, _, _, _, _, rfl⟩ := h
  obtain ⟨_, _, _, _, _, _, _, _, _, _, _, _, rfl⟩ := h'
  exact ⟨_, _, _, _, _, _, _, _, _, _, _, _, rfl⟩

theorem ran_outside (l : PregelLoop S σ) (round : Round S) : l.Ran (l.outside round) := by
  obtain ⟨_, _, h⟩ := l.outside_eq round
  rw [h]
  exact ⟨_, _, _, _, _, _, _, _, _, _, _, _, rfl⟩

theorem ran_prepare (l : PregelLoop S σ) : l.Ran l.prepare.1 := by
  unfold prepare
  split
  · exact ⟨_, _, _, _, _, _, _, _, _, _, _, _, rfl⟩
  · dsimp only [checkCircuitBreakers]
    split_ifs
    · exact ⟨_, _, _, _, _, _, _, _, _, _, _, _, rfl⟩
    · exact ⟨_, _, _, _, _, _, _, _, _, _, _, _, rfl⟩

variable [InterruptHash]

theorem ran_runPrepared (l : PregelLoop S σ) (round : Round S) (blocked : List (TaskOutput S)) :
    l.Ran (l.runPrepared round blocked).1 := by
  unfold runPrepared
  dsimp only
  split
  · exact ⟨_, _, _, _, _, _, _, _, _, _, _, _, rfl⟩
  · exact ⟨_, _, _, _, _, _, _, _, _, _, _, _, rfl⟩

theorem ran_executeSuperstep (l : PregelLoop S σ) (round : Round S) :
    l.Ran (l.executeSuperstep round).1 := by
  have hprep := l.ran_prepare
  unfold executeSuperstep andThen
  split
  · rename_i k blocked hk
    rw [hk] at hprep
    exact hprep.trans (k.ran_runPrepared round blocked)
  · rename_i k e hk
    rw [hk] at hprep
    exact hprep

/-- **What a superstep changes before `after_tick` is called.** -/
theorem ran_superstep {round : Round S} {result : SuperstepResult S}
    (h : l.superstep round = some (l', result)) : l.Ran l' := by
  obtain ⟨-, r, hexec, -⟩ := superstep_eq_some_iff.1 h
  have hran := (l.outside round).ran_executeSuperstep round
  rw [hexec] at hran
  exact (l.ran_outside round).trans hran

/-! ### The exits of `after_tick` -/

/-- The loop after the reports of subgraphs. -/
def reported (l : PregelLoop S σ) (bubbleUps : List (BubbleUp S)) : PregelLoop S σ × Bool :=
  { l with interruptRx := none }.handleBubbleUps bubbleUps

omit [InterruptHash] in
theorem reported_eq (l : PregelLoop S σ) (bubbleUps : List (BubbleUp S)) :
    ∃ state fieldVersions pendingInterrupts status, (l.reported bubbleUps).1 =
      { l with state, fieldVersions, pendingInterrupts, status, interruptRx := none } :=
  { l with interruptRx := none }.handleBubbleUps_eq bubbleUps

omit [InterruptHash] in
theorem step_reported (l : PregelLoop S σ) (bubbleUps : List (BubbleUp S)) :
    (l.reported bubbleUps).1.step = l.step := by
  obtain ⟨_, _, _, _, heq⟩ := l.reported_eq bubbleUps
  rw [heq]

/-- **The exits of `after_tick`**: an interrupt signal of a node, a report of a subgraph, a static
interrupt, or the step is counted. -/
theorem finishTick_cases {bubbleUps : List (BubbleUp S)}
    (h : l.finishTick bubbleUps = (l', .ok ())) :
    (∃ signals, l.interruptRx = some signals ∧ signals ≠ [] ∧
      ({ l with interruptRx := none }.raise signals (.interruptAfter signals)).stop =
        (l', .ok ())) ∨
    l.interruptRx.getD [] = [] ∧
      ((l.reported bubbleUps).2 = true ∧ (l.reported bubbleUps).1.stop = (l', .ok ()) ∨
      (l.reported bubbleUps).2 = false ∧
        ((∃ signals, (l.reported bubbleUps).1.interruptAfter = some signals ∧
          ((l.reported bubbleUps).1.seeVersions.raise signals (.interruptAfter signals)).stop =
            (l', .ok ())) ∨
        (l.reported bubbleUps).1.interruptAfter = none ∧
          l' = (l.reported bubbleUps).1.countStep)) := by
  unfold finishTick at h
  dsimp only at h
  split_ifs at h with hsig hstop
  · exact .inr ⟨by simpa using hsig, .inl ⟨hstop, h⟩⟩
  · refine .inr ⟨by simpa using hsig, .inr ⟨by simpa [reported] using hstop, ?_⟩⟩
    split at h
    · rename_i signals hafter
      exact .inl ⟨signals, hafter, h⟩
    · rename_i hafter
      cases h
      exact .inr ⟨hafter, rfl⟩
  · cases hrx : l.interruptRx with
    | none => simp [hrx] at hsig
    | some signals =>
      rw [hrx] at hsig h
      exact .inl ⟨signals, rfl, by simpa using hsig, h⟩

/-- **A successful `after_tick`** as its phases: merge and commit, schedule, save, and one of the
exits. -/
theorem afterTick_phases {result : SuperstepResult S} (h : l.afterTick result = (l', .ok ())) :
    ∃ s changed tasks k,
      l.mergeWrites result.taskOutputs =
        ({ l with state := s, fieldVersions := l.fieldVersions.bumpAll changed }, .ok changed) ∧
      scheduleNext (l.committed result).scheduleEnv (l.committed result).nextUuid
        (executedOutputs result.taskOutputs) (l.committed result).state
        (l.committed result).persistedWrites.2 = .ok tasks ∧
      { l.committed result with
          pendingTasks := tasks
          nextUuid := freshUuid (l.committed result).nextUuid tasks
          store := (l.committed result).persistedWrites.1
          previousSuperstepChangedFields := changed }.saveSuperstepCheckpoint = (k, .ok ()) ∧
      k.finishTick result.bubbleUps = (l', .ok ()) := by
  obtain ⟨l₁, changed, l₂, k, hm, hs, hk, hf⟩ := afterTick_eq_ok_iff.1 h
  obtain ⟨-, s, -, -, rfl⟩ := mergeWrites_eq_ok_iff.1 hm
  unfold scheduleTasks at hs
  split at hs
  · cases hs
  · rename_i tasks htasks
    cases hs
    exact ⟨s, changed, tasks, k, hm, htasks, hk, hf⟩

/-- The loop before the last phase of `after_tick`. -/
def Advanced (l : PregelLoop S σ) (result : SuperstepResult S) (tasks : List (PendingTask S))
    (k : PregelLoop S σ) : Prop :=
  ∃ deltaCounters nextUuid store checkpointId backgroundPuts written,
    k = { l with
      state := (l.committed result).state
      fieldVersions := l.fieldVersions.bumpAll (l.changedFields result)
      versionsSeen := (l.committed result).versionsSeen
      deltaCounters
      pendingTasks := tasks
      nextUuid
      store
      previousSuperstepChangedFields := l.changedFields result
      runnableConfig := { l.runnableConfig with checkpointId }
      backgroundPuts
      written }

section Advanced

omit [InterruptHash]

variable {result : SuperstepResult S} {tasks : List (PendingTask S)}

theorem Advanced.state (h : l.Advanced result tasks k) : k.state = (l.committed result).state := by
  obtain ⟨_, _, _, _, _, _, rfl⟩ := h
  rfl

theorem Advanced.pendingTasks (h : l.Advanced result tasks k) : k.pendingTasks = tasks := by
  obtain ⟨_, _, _, _, _, _, rfl⟩ := h
  rfl

theorem Advanced.step (h : l.Advanced result tasks k) : k.step = l.step := by
  obtain ⟨_, _, _, _, _, _, rfl⟩ := h
  rfl

theorem Advanced.interruptRx (h : l.Advanced result tasks k) : k.interruptRx = l.interruptRx := by
  obtain ⟨_, _, _, _, _, _, rfl⟩ := h
  rfl

end Advanced

/-- **A successful `after_tick`**, up to its exits. -/
theorem afterTick_advanced {result : SuperstepResult S} (h : l.afterTick result = (l', .ok ())) :
    ∃ tasks k,
      scheduleNext (l.committed result).scheduleEnv (l.committed result).nextUuid
        (executedOutputs result.taskOutputs) (l.committed result).state
        (l.committed result).persistedWrites.2 = .ok tasks ∧
      l.Advanced result tasks k ∧ k.finishTick result.bubbleUps = (l', .ok ()) := by
  obtain ⟨s, changed, tasks, k, hmerge, htasks, hk, hf⟩ := afterTick_phases h
  refine ⟨tasks, k, htasks, ?_, hf⟩
  have hchanged : l.changedFields result = changed := by
    unfold changedFields
    rw [hmerge]
  obtain ⟨state, versionsSeen, deltaCounters, hcommitted⟩ :
      ∃ state versionsSeen deltaCounters, l.committed result = { l with
        state
        fieldVersions := l.fieldVersions.bumpAll changed
        versionsSeen
        deltaCounters } := by
    unfold committed
    rw [hmerge]
    exact ⟨_, _, _, rfl⟩
  have hsaved := saved_saveSuperstepCheckpoint { l.committed result with
    pendingTasks := tasks
    nextUuid := freshUuid (l.committed result).nextUuid tasks
    store := (l.committed result).persistedWrites.1
    previousSuperstepChangedFields := changed }
  unfold Advanced
  rw [hk, hcommitted] at hsaved
  rw [hchanged, hcommitted]
  obtain ⟨_, _, _, _, _, _, rfl⟩ := hsaved
  exact ⟨_, _, _, _, _, _, rfl⟩

/-- The loop after one of the exits. -/
def Settled (l l' : PregelLoop S σ) : Prop :=
  ∃ k, (k = l ∨ k = l.finishAllChannels) ∧
    ∃ status pendingInterrupts interruptVersionsSeen step budgetTracker store checkpointId nextUuid
      backgroundPuts written deltaCounters,
      l' = { k with
        status
        pendingInterrupts
        interruptVersionsSeen
        step
        budgetTracker
        store
        runnableConfig := { k.runnableConfig with checkpointId }
        nextUuid
        backgroundPuts
        written
        deltaCounters }

omit [InterruptHash] in
theorem settled_of_stop {status : LoopStatus} {pendingInterrupts : List InterruptSignal}
    {interruptVersionsSeen : List ℕ}
    (h : { l with status, pendingInterrupts, interruptVersionsSeen }.stop = (l', .ok ())) :
    l.Settled l' := by
  obtain ⟨k, hk, rfl⟩ := saved_of_stop h
  obtain ⟨_, _, _, _, _, _, rfl⟩ := hk
  refine ⟨_, .inr rfl, ?_⟩
  unfold finishAllChannels
  split_ifs
  · exact ⟨_, _, _, _, _, _, _, _, _, _, _, rfl⟩
  · exact ⟨_, _, _, _, _, _, _, _, _, _, _, rfl⟩

omit [InterruptHash] in
theorem settled_countStep (l : PregelLoop S σ) : l.Settled l.countStep := by
  obtain ⟨k, rfl | hk, heq⟩ := l.saved_of_countStep
  · rw [heq]
    exact ⟨k, .inl rfl, _, _, _, _, _, _, _, _, _, _, _, rfl⟩
  · rw [heq]
    obtain ⟨_, _, _, _, _, _, rfl⟩ := hk
    exact ⟨_, .inr rfl, _, _, _, _, _, _, _, _, _, _, _, rfl⟩

/-- **What the exits of `after_tick` change**, the reports of subgraphs apart: these are not looked
at when a node has sent a signal. -/
theorem finishTick_settled {bubbleUps : List (BubbleUp S)}
    (h : l.finishTick bubbleUps = (l', .ok ())) :
    l.interruptRx.getD [] ≠ [] ∧ { l with interruptRx := none }.Settled l' ∨
      l.interruptRx.getD [] = [] ∧ (l.reported bubbleUps).1.Settled l' := by
  obtain ⟨signals, hsig, hne, hstop⟩ | ⟨hsig, hexit⟩ := finishTick_cases h
  · refine .inl ⟨by rw [hsig]; exact hne, settled_of_stop hstop⟩
  · refine .inr ⟨hsig, ?_⟩
    obtain ⟨-, hstop⟩ | ⟨-, ⟨signals, -, hstop⟩ | ⟨-, rfl⟩⟩ := hexit
    · exact settled_of_stop hstop
    · exact settled_of_stop hstop
    · exact settled_countStep _

/-! ### What a run never changes -/

/-- The loops share what a run never changes. -/
structure Fixed (l l' : PregelLoop S σ) : Prop where
  nodes : l'.nodes = l.nodes
  nodeRegistration : l'.nodeRegistration = l.nodeRegistration
  triggerTable : l'.triggerTable = l.triggerTable
  triggerToNodes : l'.triggerToNodes = l.triggerToNodes
  checkpointer : l'.checkpointer = l.checkpointer
  errorHandlerMap : l'.errorHandlerMap = l.errorHandlerMap
  retryPolicies : l'.retryPolicies = l.retryPolicies
  timeoutPolicies : l'.timeoutPolicies = l.timeoutPolicies
  circuitBreakerConfigs : l'.circuitBreakerConfigs = l.circuitBreakerConfigs
  fallbackMap : l'.fallbackMap = l.fallbackMap
  runId : l'.runId = l.runId
  config : { l'.runnableConfig with checkpointId := none } =
    { l.runnableConfig with checkpointId := none }

section Fixed

omit [InterruptHash]

theorem Fixed.refl (l : PregelLoop S σ) : l.Fixed l :=
  ⟨rfl, rfl, rfl, rfl, rfl, rfl, rfl, rfl, rfl, rfl, rfl, rfl⟩

theorem Fixed.trans (h : l.Fixed k) (h' : k.Fixed l') : l.Fixed l' where
  nodes := h'.nodes.trans h.nodes
  nodeRegistration := h'.nodeRegistration.trans h.nodeRegistration
  triggerTable := h'.triggerTable.trans h.triggerTable
  triggerToNodes := h'.triggerToNodes.trans h.triggerToNodes
  checkpointer := h'.checkpointer.trans h.checkpointer
  errorHandlerMap := h'.errorHandlerMap.trans h.errorHandlerMap
  retryPolicies := h'.retryPolicies.trans h.retryPolicies
  timeoutPolicies := h'.timeoutPolicies.trans h.timeoutPolicies
  circuitBreakerConfigs := h'.circuitBreakerConfigs.trans h.circuitBreakerConfigs
  fallbackMap := h'.fallbackMap.trans h.fallbackMap
  runId := h'.runId.trans h.runId
  config := h'.config.trans h.config

theorem Ran.fixed (h : l.Ran l') : l.Fixed l' := by
  obtain ⟨_, _, _, _, _, _, _, _, _, _, _, _, rfl⟩ := h
  exact ⟨rfl, rfl, rfl, rfl, rfl, rfl, rfl, rfl, rfl, rfl, rfl, rfl⟩

theorem Advanced.fixed {result : SuperstepResult S} {tasks : List (PendingTask S)}
    (h : l.Advanced result tasks k) : l.Fixed k := by
  obtain ⟨_, _, _, _, _, _, rfl⟩ := h
  exact ⟨rfl, rfl, rfl, rfl, rfl, rfl, rfl, rfl, rfl, rfl, rfl, rfl⟩

theorem Settled.fixed (h : l.Settled l') : l.Fixed l' := by
  obtain ⟨k, hk, _, _, _, _, _, _, _, _, _, _, _, rfl⟩ := h
  obtain rfl | rfl := hk
  · exact ⟨rfl, rfl, rfl, rfl, rfl, rfl, rfl, rfl, rfl, rfl, rfl, rfl⟩
  · unfold finishAllChannels
    split_ifs <;> exact ⟨rfl, rfl, rfl, rfl, rfl, rfl, rfl, rfl, rfl, rfl, rfl, rfl⟩

theorem fixed_clear (l : PregelLoop S σ) : l.Fixed { l with interruptRx := none } :=
  ⟨rfl, rfl, rfl, rfl, rfl, rfl, rfl, rfl, rfl, rfl, rfl, rfl⟩

theorem fixed_reported (l : PregelLoop S σ) (bubbleUps : List (BubbleUp S)) :
    l.Fixed (l.reported bubbleUps).1 := by
  obtain ⟨_, _, _, _, heq⟩ := l.reported_eq bubbleUps
  rw [heq]
  exact ⟨rfl, rfl, rfl, rfl, rfl, rfl, rfl, rfl, rfl, rfl, rfl, rfl⟩

theorem Fixed.scheduleEnv (h : l.Fixed l') : l'.scheduleEnv = l.scheduleEnv := by
  unfold PregelLoop.scheduleEnv
  rw [h.nodes, h.triggerTable, h.triggerToNodes, h.fallbackMap, h.errorHandlerMap]

end Fixed

theorem fixed_afterTick {result : SuperstepResult S} (h : l.afterTick result = (l', .ok ())) :
    l.Fixed l' := by
  obtain ⟨tasks, k, -, hk, hf⟩ := afterTick_advanced h
  obtain ⟨-, hset⟩ | ⟨-, hset⟩ := finishTick_settled hf
  · exact hk.fixed.trans (k.fixed_clear.trans hset.fixed)
  · exact hk.fixed.trans ((k.fixed_reported _).trans hset.fixed)

omit [InterruptHash] in
theorem fixed_committed (l : PregelLoop S σ) (result : SuperstepResult S) :
    l.Fixed (l.committed result) := by
  have hm : ∀ k r, l.mergeWrites result.taskOutputs = (k, r) → l.Fixed k := by
    intro k r h
    cases r with
    | error e =>
      obtain rfl | ⟨s, -, -, rfl⟩ := mergeWrites_error_cases h
      · exact .refl _
      · exact ⟨rfl, rfl, rfl, rfl, rfl, rfl, rfl, rfl, rfl, rfl, rfl, rfl⟩
    | ok changed =>
      obtain ⟨-, s, -, -, rfl⟩ := mergeWrites_eq_ok_iff.1 h
      exact ⟨rfl, rfl, rfl, rfl, rfl, rfl, rfl, rfl, rfl, rfl, rfl, rfl⟩
  unfold committed
  split
  · rename_i k changed h
    exact (hm k (.ok changed) h).trans ⟨rfl, rfl, rfl, rfl, rfl, rfl, rfl, rfl, rfl, rfl, rfl, rfl⟩
  · rename_i k e h
    exact hm k (.error e) h

/-- **What a run never changes**, over a whole run. -/
theorem fixed_head {l₀ : PregelLoop S σ} {rounds : ℕ → Round S} {n : ℕ}
    (h : l₀.head rounds n = some l) : l₀.Fixed l := by
  refine Machine.trace_invariant (I := fun _ l => l₀.Fixed l) (.refl l₀) ?_ h
  intro n t u _ ih hturn
  obtain ⟨l₁, result, hs, ha⟩ := turn_eq_some_iff.1 hturn
  exact ih.trans ((ran_superstep hs).fixed.trans (fixed_afterTick ha))

theorem TurnAt.fixed {l₀ l₁ : PregelLoop S σ} {rounds : ℕ → Round S} {n : ℕ}
    {result : SuperstepResult S} (h : l₀.TurnAt rounds n l₁ result l) : l₀.Fixed l₁ := by
  obtain ⟨t, ht, hs, -⟩ := h
  exact (fixed_head ht).trans (ran_superstep hs).fixed

end PregelLoop

end Juncture
