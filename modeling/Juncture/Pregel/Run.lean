import Juncture.Pregel.AfterTick

/-!
# Runs

The driver of the graph is `while tick()? { execute_superstep()?; after_tick()? }`.  `turn` is one
iteration of it that gets to its end, as a partial step: the run ends where `tick` returns `false`
or something fails.  `head l₀ rounds n` is the loop after `n` turns from `l₀`, where the outside
world behaves as `rounds` says; so `n` is the number of supersteps executed.

* `ticks_tick` : what `tick` can do.
* `turn_course` : a turn leads to the tasks its outputs ask for, and either halts the loop or counts
  a step.
-/

namespace Juncture

variable {S σ : Type} [State S]

namespace PregelLoop

/-- A background write completes.  A failed one is only logged. -/
def completeWrite (l : PregelLoop S σ) (i : ℕ) : PregelLoop S σ :=
  match l.checkpointer, l.backgroundPuts[i]? with
  | some cp, some (config, checkpoint, metadata) =>
    { l with
      store := (cp.put l.store config checkpoint metadata).1
      backgroundPuts := l.backgroundPuts.eraseIdx i }
  | _, _ => l

/-- What happens outside the loop before a tick. -/
def outside (l : PregelLoop S σ) (round : Round S) : PregelLoop S σ :=
  let l := round.writes.foldl completeWrite l
  { l with
    now := l.now + round.pause
    lags := round.checkLags
    cancelled := l.cancelled || round.cancel
    drainRequested := l.drainRequested || round.drain }

/-- **What happens outside**: background writes change the store and leave fewer of them to come. -/
theorem outside_eq (l : PregelLoop S σ) (round : Round S) :
    ∃ store backgroundPuts, l.outside round = { l with
      store
      backgroundPuts
      now := l.now + round.pause
      lags := round.checkLags
      cancelled := l.cancelled || round.cancel
      drainRequested := l.drainRequested || round.drain } := by
  have hwrites : ∀ (is : List ℕ) (k : PregelLoop S σ), ∃ store backgroundPuts,
      is.foldl completeWrite k = { k with store, backgroundPuts } := by
    intro is
    induction is with
    | nil => exact fun k => ⟨_, _, rfl⟩
    | cons i is ih =>
      intro k
      have hstep : ∃ store backgroundPuts, k.completeWrite i = { k with store, backgroundPuts } := by
        unfold completeWrite
        split
        · exact ⟨_, _, rfl⟩
        · exact ⟨_, _, rfl⟩
      obtain ⟨_, _, hstep⟩ := hstep
      rw [List.foldl_cons, hstep]
      exact ih _
  obtain ⟨store, backgroundPuts, h⟩ := hwrites round.writes l
  refine ⟨store, backgroundPuts, ?_⟩
  unfold outside
  rw [h]

variable [InterruptHash]

/-- The first half of a turn: the loop and the result that `after_tick` is called with. -/
def superstep (l : PregelLoop S σ) (round : Round S) :
    Option (PregelLoop S σ × SuperstepResult S) :=
  match (l.outside round).tick with
  | (l, .ok true) =>
    match l.executeSuperstep round with
    | (l, .ok result) => some (l, { result with bubbleUps := result.bubbleUps ++ round.bubbleUps })
    | (_, .error _) => none
  | _ => none

/-- One turn of the driver. -/
def turn (l : PregelLoop S σ) (round : Round S) : Option (PregelLoop S σ) :=
  (l.superstep round).bind fun p =>
    match p.1.afterTick p.2 with
    | (l, .ok ()) => some l
    | (_, .error _) => none

/-- The loop after `n` turns. -/
def head (l₀ : PregelLoop S σ) (rounds : ℕ → Round S) : ℕ → Option (PregelLoop S σ) :=
  Machine.trace turn rounds l₀

variable {l l' l₁ : PregelLoop S σ} {round : Round S} {result : SuperstepResult S}

theorem turn_eq_some_iff :
    l.turn round = some l' ↔
      ∃ l₁ result, l.superstep round = some (l₁, result) ∧ l₁.afterTick result = (l', .ok ()) := by
  unfold turn
  rw [Option.bind_eq_some_iff]
  constructor
  · rintro ⟨⟨l₁, result⟩, h, h'⟩
    refine ⟨l₁, result, h, ?_⟩
    split at h'
    · rename_i heq
      cases h'
      exact heq
    · cases h'
  · rintro ⟨l₁, result, h, h'⟩
    exact ⟨(l₁, result), h, by simp only [h']⟩

/-! ### Tick -/

/-- Nothing that `tick` looks at ends the run. -/
structure GoesOn (l : PregelLoop S σ) : Prop where
  /-- The step limit is not reached. -/
  limit : l.step < l.runnableConfig.recursionLimit
  /-- The run is not cancelled. -/
  cancelled : l.cancelled = false
  /-- The budget is not exceeded. -/
  budget : l.budgetExceeded = none
  /-- Tasks are pending. -/
  pending : l.pendingTasks ≠ []
  /-- There is no interrupt before them. -/
  interrupt : l.interruptBefore = none

/-- What `tick` can do: the tests in their order, each with what it returns and the status it leaves
behind. -/
inductive Ticks (l : PregelLoop S σ) : LoopStatus → Except JunctureError Bool → Prop
  | limit (h : l.runnableConfig.recursionLimit ≤ l.step) :
    Ticks l .outOfSteps (.error (.recursionLimit l.step l.runnableConfig.recursionLimit))
  | cancelled (hl : l.step < l.runnableConfig.recursionLimit) (h : l.cancelled = true) :
    Ticks l .cancelled (.ok false)
  | budget (reason : BudgetExceededReason) (hl : l.step < l.runnableConfig.recursionLimit)
    (hc : l.cancelled = false) (h : l.budgetExceeded = some reason) :
    Ticks l .budgetExceeded (.error (.execution s!"Budget exceeded: {reason.display}"))
  | done (hl : l.step < l.runnableConfig.recursionLimit) (hc : l.cancelled = false)
    (hb : l.budgetExceeded = none) (h : l.pendingTasks = []) : Ticks l .done (.ok false)
  | interrupt (signals : List InterruptSignal) (hl : l.step < l.runnableConfig.recursionLimit)
    (hc : l.cancelled = false) (hb : l.budgetExceeded = none) (hp : l.pendingTasks ≠ [])
    (h : l.interruptBefore = some signals) : Ticks l (.interruptBefore signals) (.ok false)
  | goesOn (h : l.GoesOn) : Ticks l l.status (.ok true)

/-- **What `tick` can do.** -/
theorem ticks_tick (l : PregelLoop S σ) : l.Ticks l.tick.1.status l.tick.2 := by
  have hfinish : ∀ k : PregelLoop S σ, k.finishAllChannels.status = k.status :=
    fun k => congrArg Prod.snd k.progress_finishAllChannels
  by_cases hlimit : l.runnableConfig.recursionLimit ≤ l.step
  · simp only [tick, if_pos hlimit, hfinish]
    exact .limit hlimit
  have hl : l.step < l.runnableConfig.recursionLimit := by omega
  cases hc : l.cancelled with
  | true =>
    simp only [tick, if_neg hlimit, hc, if_true, hfinish]
    exact .cancelled hl hc
  | false =>
    cases hb : l.budgetExceeded with
    | some reason =>
      simp only [tick, if_neg hlimit, hc, Bool.false_eq_true, if_false, hb, hfinish]
      exact .budget reason hl hc hb
    | none =>
      by_cases hp : l.pendingTasks = []
      · simp only [tick, if_neg hlimit, hc, Bool.false_eq_true, if_false, hb, hp,
          List.isEmpty_nil, if_true]
        exact .done hl hc hb hp
      have hempty : l.pendingTasks.isEmpty = false := by simpa using hp
      cases hi : l.interruptBefore with
      | some signals =>
        simp only [tick, if_neg hlimit, hc, Bool.false_eq_true, if_false, hb, hempty, hi, hfinish]
        exact .interrupt signals hl hc hb hp hi
      | none =>
        simp only [tick, if_neg hlimit, hc, Bool.false_eq_true, if_false, hb, hempty, hi]
        exact .goesOn ⟨hl, hc, hb, hp, hi⟩

/-- `tick` leaves what the run goes on with. -/
theorem course_tick (l : PregelLoop S σ) : l.tick.1.course = l.course := by
  have hfinish : ∀ k : PregelLoop S σ, k.course = l.course → k.finishAllChannels.course = l.course :=
    fun k hk => (congrArg Prod.fst k.progress_finishAllChannels).trans hk
  unfold tick
  split_ifs
  · exact hfinish _ rfl
  · exact hfinish _ rfl
  · split
    · exact hfinish _ rfl
    · exact hfinish l rfl
  · split
    · exact hfinish _ rfl
    · split
      · exact hfinish _ rfl
      · rfl

theorem tick_eq_false_iff :
    l.tick.2 = .ok false ↔
      l.step < l.runnableConfig.recursionLimit ∧
        (l.cancelled = true ∨
          l.budgetExceeded = none ∧ (l.pendingTasks = [] ∨ l.interruptBefore.isSome = true)) := by
  have h := l.ticks_tick
  generalize l.tick.2 = r, l.tick.1.status = status at h
  cases h with
  | limit h => simp; omega
  | cancelled hl h => simp [hl, h]
  | budget reason hl hc h => simp [hc, h]
  | done hl hc hb h => simp [hl, hb, h]
  | interrupt signals hl hc hb hp h => simp [hl, hb, h]
  | goesOn h => simp [h.cancelled, h.pending, h.interrupt]

theorem goesOn_of_tick (h : l.tick.2 = .ok true) : l.GoesOn := by
  have ht := l.ticks_tick
  rw [h] at ht
  generalize l.tick.1.status = status at ht
  cases ht with
  | goesOn h => exact h

theorem limit_le_of_tick {step limit : ℕ} (h : l.tick.2 = .error (.recursionLimit step limit)) :
    l.runnableConfig.recursionLimit ≤ l.step := by
  have ht := l.ticks_tick
  rw [h] at ht
  generalize l.tick.1.status = status at ht
  cases ht with
  | limit hle => exact hle

theorem tick_of_empty (hl : l.step < l.runnableConfig.recursionLimit) (hc : l.cancelled = false)
    (hb : l.budgetExceeded = none) (hp : l.pendingTasks = []) :
    l.tick.2 = .ok false ∧ l.tick.1.status = .done := by
  have hlimit : ¬ l.runnableConfig.recursionLimit ≤ l.step := by omega
  simp only [tick, if_neg hlimit, hc, Bool.false_eq_true, if_false, hb, hp, List.isEmpty_nil,
    if_true, and_self]

theorem tick_of_goesOn (h : l.GoesOn) : l.tick = (l, .ok true) := by
  have hlimit : ¬ l.runnableConfig.recursionLimit ≤ l.step := by have := h.limit; omega
  have hempty : l.pendingTasks.isEmpty = false := by simpa using h.pending
  simp only [tick, if_neg hlimit, h.cancelled, Bool.false_eq_true, if_false, h.budget, hempty,
    h.interrupt]

/-- A `tick` that goes on leaves the loop as it is. -/
theorem eq_of_tick {k : PregelLoop S σ} (h : l.tick = (k, .ok true)) : l.GoesOn ∧ l = k := by
  have hgo : l.GoesOn := goesOn_of_tick (by rw [h])
  rw [tick_of_goesOn hgo] at h
  exact ⟨hgo, congrArg Prod.fst h⟩

/-! ### Turns -/

/-- The first half of a turn as its two calls. -/
theorem superstep_eq_some_iff :
    l.superstep round = some (l₁, result) ↔
      (l.outside round).GoesOn ∧ ∃ r, (l.outside round).executeSuperstep round = (l₁, .ok r) ∧
        result = { r with bubbleUps := r.bubbleUps ++ round.bubbleUps } := by
  unfold superstep
  constructor
  · intro h
    split at h
    · rename_i k htick
      obtain ⟨hgo, rfl⟩ := eq_of_tick htick
      split at h
      · rename_i k' r hexec
        cases h
        exact ⟨hgo, r, hexec, rfl⟩
      · cases h
    · cases h
  · rintro ⟨hgo, r, hexec, rfl⟩
    simp only [tick_of_goesOn hgo, hexec]

omit [InterruptHash] in
theorem prepare_frame (l : PregelLoop S σ) :
    l.prepare.1.step = l.step ∧ l.prepare.1.runnableConfig = l.runnableConfig ∧
      l.prepare.1.status = l.status := by
  unfold prepare
  split
  · exact ⟨rfl, rfl, rfl⟩
  · dsimp only [checkCircuitBreakers]
    split_ifs <;> exact ⟨rfl, rfl, rfl⟩

theorem runPrepared_frame (l : PregelLoop S σ) (round : Round S) (blocked : List (TaskOutput S)) :
    (l.runPrepared round blocked).1.step = l.step ∧
      (l.runPrepared round blocked).1.runnableConfig = l.runnableConfig ∧
      (l.runPrepared round blocked).1.status = l.status := by
  cases hr : (l.runTasks round).result with
  | error e => simp only [runPrepared, hr]; exact ⟨rfl, rfl, rfl⟩
  | ok r => simp only [runPrepared, hr]; exact ⟨rfl, rfl, rfl⟩

/-- The runner may drop tasks of the superstep but leaves the step, its limit and the status. -/
theorem executeSuperstep_frame (l : PregelLoop S σ) (round : Round S) :
    (l.executeSuperstep round).1.step = l.step ∧
      (l.executeSuperstep round).1.runnableConfig = l.runnableConfig ∧
      (l.executeSuperstep round).1.status = l.status := by
  have hprep := l.prepare_frame
  unfold executeSuperstep andThen
  split
  · rename_i k blocked hk
    rw [hk] at hprep
    obtain ⟨hs, hc, ht⟩ := k.runPrepared_frame round blocked
    exact ⟨hs.trans hprep.1, hc.trans hprep.2.1, ht.trans hprep.2.2⟩
  · rename_i k e hk
    rw [hk] at hprep
    exact hprep

/-- No task follows a superstep: no output routes to a node or has a recovery task, and no failure
marker is left. -/
def LeadsNowhere (l : PregelLoop S σ) (result : SuperstepResult S) : Prop :=
  let k := l.committed result
  let outputs := executedOutputs result.taskOutputs
  (∀ pre o post, outputs = pre ++ o :: post →
    Routes k.triggerTable k.triggerToNodes k.state o = ∅ ∧
      recoveryFor k.scheduleEnv pre o post = (none, none)) ∧
    markerTargets k.scheduleEnv outputs k.persistedWrites.2 = ∅

omit [InterruptHash] in
theorem progress_outside (l : PregelLoop S σ) (round : Round S) :
    (l.outside round).progress = l.progress := by
  obtain ⟨_, _, h⟩ := l.outside_eq round
  rw [h]
  rfl

section Outside

omit [InterruptHash]

variable (l : PregelLoop S σ) (round : Round S)

@[simp] theorem step_outside : (l.outside round).step = l.step :=
  congrArg (fun p => p.1.step) (l.progress_outside round)

@[simp] theorem recursionLimit_outside :
    (l.outside round).runnableConfig.recursionLimit = l.runnableConfig.recursionLimit :=
  congrArg (fun p => p.1.recursionLimit) (l.progress_outside round)

@[simp] theorem pendingTasks_outside : (l.outside round).pendingTasks = l.pendingTasks :=
  congrArg (fun p => p.1.pendingTasks) (l.progress_outside round)

@[simp] theorem status_outside : (l.outside round).status = l.status :=
  congrArg Prod.snd (l.progress_outside round)

end Outside

/-- **Where a turn leads.** -/
theorem turn_course (h : l.superstep round = some (l₁, result))
    (h' : l₁.afterTick result = (l', .ok ())) :
    (l'.pendingTasks = [] ↔ l₁.LeadsNowhere result) ∧
      l'.runnableConfig.recursionLimit = l.runnableConfig.recursionLimit ∧
      l.step < l.runnableConfig.recursionLimit ∧
      (l'.status.halted = true ∧ l'.step = l.step ∨
        l'.status = l.status ∧ l'.step = l.step + 1) := by
  obtain ⟨hgo, r, hexec, -⟩ := superstep_eq_some_iff.1 h
  obtain ⟨hs, hc, ht⟩ := (l.outside round).executeSuperstep_frame round
  rw [hexec] at hs hc ht
  obtain ⟨tasks, htasks, hcourse⟩ := afterTick_course h'
  have hgo := hgo.limit
  rw [step_outside, recursionLimit_outside] at hgo
  have hend : l'.pendingTasks = tasks ∧
      l'.runnableConfig.recursionLimit = l₁.runnableConfig.recursionLimit ∧
      (l'.status.halted = true ∧ l'.step = l₁.step ∨
        l'.status = l₁.status ∧ l'.step = l₁.step + 1) := by
    obtain ⟨hhalt, hcourse⟩ | ⟨hkeep, hcourse⟩ := hcourse
    · exact ⟨congrArg Course.pendingTasks hcourse, congrArg Course.recursionLimit hcourse,
        .inl ⟨hhalt, congrArg Course.step hcourse⟩⟩
    · exact ⟨congrArg Course.pendingTasks hcourse, congrArg Course.recursionLimit hcourse,
        .inr ⟨hkeep, congrArg Course.step hcourse⟩⟩
  obtain ⟨hpending, hlim, hend⟩ := hend
  refine ⟨?_, ?_, hgo, ?_⟩
  · rw [hpending, scheduleNext_eq_nil_iff htasks]
    rfl
  · rw [hlim, hc, recursionLimit_outside]
  · rw [hs, step_outside, ht, status_outside] at hend
    exact hend

end PregelLoop

end Juncture
