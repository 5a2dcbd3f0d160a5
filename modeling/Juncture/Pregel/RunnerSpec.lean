import Juncture.Pregel.Runner

/-!
# What a superstep can do

`Superstep.Move` lists the moves of a spawned superstep with their guards and effects; every fact
about the machine is proved by cases on it and carried along a run by `Machine.Reaches.invariant`.

* `step_move` : a step does nothing, is a move, or is the cancellation from outside.
* `reaches_drain` : draining is itself made of steps, none of them a cancellation.
* `drain_ends` : after draining, the superstep has failed or every task has returned and been joined.
-/

namespace Juncture

variable {S σ : Type} [State S] [InterruptHash]

/-- What an `interrupt!()` call with the given index returns. -/
def interruptResult (resumeValues : List (Option Json)) (index : ℕ) : Except JunctureError Json :=
  match getResumeValue resumeValues index with
  | some value => .ok value
  | none => .error (.interrupted index)

/-- A program run on its own, with the calls taking indices from `index` on: what it returns, and
the index after its last call. -/
def NodeProg.solo (l : TaskLocals) (resumeValues : List (Option Json)) :
    NodeProg S → ℕ → Except JunctureError (Command S) × ℕ
  | done r, index => (r, index)
  | interrupt _ _ k, index => (k (interruptResult resumeValues index)).solo l resumeValues (index + 1)
  | readLocals k, index => (k l).solo l resumeValues index
  | backoff _ k, index => k.solo l resumeValues index

omit [InterruptHash] in
theorem NodeProg.le_solo (l : TaskLocals) (resumeValues : List (Option Json)) (p : NodeProg S) :
    ∀ index, index ≤ (p.solo l resumeValues index).2 := by
  induction p with
  | done r => intro index; exact le_refl index
  | interrupt payload id k ih => intro index; exact (Nat.le_succ index).trans (ih _ _)
  | readLocals k ih => intro index; exact ih l index
  | backoff _ k ih => intro index; exact ih index

namespace Superstep

variable {env : SpawnEnv S σ} {e e' : Superstep S σ} {i j : ℕ}

/-! ### Effects on the components -/

section Effects

omit [InterruptHash]

@[simp] theorem setPhase_phase_self (ph : TaskPhase S) : (e.setPhase i ph).phase i = ph := by
  simp [setPhase]

theorem setPhase_phase (ph : TaskPhase S) :
    (e.setPhase i ph).phase j = if j = i then ph else e.phase j := rfl

@[simp] theorem complete_phase_self (r : Except JunctureError (Command S)) :
    (e.complete i r).phase i = .finished := by
  simp [complete, setPhase]

theorem complete_phase (r : Except JunctureError (Command S)) :
    (e.complete i r).phase j = if j = i then .finished else e.phase j := rfl

/-- The collector touches neither the tasks nor the interrupt context. -/
theorem collect_eq (env : SpawnEnv S σ) (e : Superstep S σ) (task : PendingTask S)
    (r : Except JunctureError (Command S)) : ∃ outputs store nextUuid cancelled failure,
      e.collect env task r = { e with outputs, store, nextUuid, cancelled, failure } := by
  cases r with
  | ok command =>
    simp only [collect]
    split
    · exact ⟨_, _, e.nextUuid, e.cancelled, e.failure, rfl⟩
    · exact ⟨e.outputs, _, e.nextUuid, true, some _, rfl⟩
  | error error =>
    simp only [collect]
    split
    · split
      · exact ⟨_, _, _, e.cancelled, e.failure, rfl⟩
      · exact ⟨e.outputs, _, e.nextUuid, true, some _, rfl⟩
    · exact ⟨e.outputs, e.store, e.nextUuid, true, some error, rfl⟩

theorem collect_cancelled (env : SpawnEnv S σ) (e : Superstep S σ) (task : PendingTask S)
    (r : Except JunctureError (Command S)) (h : (e.collect env task r).failure = none) :
    (e.collect env task r).cancelled = e.cancelled := by
  cases r with
  | ok command =>
    simp only [collect] at h ⊢
    split at h
    · rfl
    · simp [fail] at h
  | error error =>
    simp only [collect] at h ⊢
    split at h
    · split at h
      · rename_i hr _ _ _
        simp [hr]
      · simp [fail] at h
    · simp [fail] at h

theorem cancelled_collect (env : SpawnEnv S σ) (e : Superstep S σ) (task : PendingTask S)
    (r : Except JunctureError (Command S)) (h : e.cancelled = true) :
    (e.collect env task r).cancelled = true := by
  cases r with
  | ok command =>
    simp only [collect]
    split
    · exact h
    · rfl
  | error error =>
    simp only [collect]
    split
    · split
      · exact h
      · rfl
    · rfl

end Effects

/-! ### Moves -/

/-- Why task `i` can be cut short with the given error: a cancellation, or a timeout of its node. -/
def MayCut (env : SpawnEnv S σ) (e : Superstep S σ) (i : ℕ) (err : JunctureError) : Prop :=
  (e.cancelled = true ∧ err = taskCancelled) ∨
    ∃ t te, env.tasks[i]? = some t ∧ env.timeoutPolicies.containsKey t.nodeName = true ∧
      err = .nodeTimeout te

/-- The moves of a superstep that has not failed. -/
inductive Move (env : SpawnEnv S σ) (e : Superstep S σ) : Superstep S σ → Prop
  /-- A waiting task gets a permit. -/
  | start (i : ℕ) (p : NodeProg S) (h : e.phase i = .waiting p) (hc : e.cancelled = false) :
    Move env e (e.setPhase i (.running p))
  /-- A task is cancelled or times out. -/
  | cut (i : ℕ) (p : NodeProg S) (err : JunctureError)
    (h : e.phase i = .waiting p ∨ e.phase i = .running p) (hc : MayCut env e i err) :
    Move env e (e.complete i (.error err))
  /-- A node returns. -/
  | done (i : ℕ) (r : Except JunctureError (Command S)) (h : e.phase i = .running (.done r)) :
    Move env e (e.complete i r)
  /-- A node reads its task-locals. -/
  | read (i : ℕ) (k : TaskLocals → NodeProg S) (h : e.phase i = .running (.readLocals k)) :
    Move env e (e.setPhase i (.running (k env.locals)))
  /-- A node goes into another attempt. -/
  | retry (i : ℕ) (error : JunctureError) (k : NodeProg S)
    (h : e.phase i = .running (.backoff error k)) : Move env e (e.nextAttempt i error k)
  /-- An `interrupt!()` call finds a resume value. -/
  | answer (i : ℕ) (payload : Json) (id : Option String)
    (k : Except JunctureError Json → NodeProg S) (value : Json)
    (h : e.phase i = .running (.interrupt payload id k))
    (hv : getResumeValue env.resumeValues e.currentIndex = some value) :
    Move env e ((e.nextIndex i).setPhase i (.running (k (.ok value))))
  /-- An `interrupt!()` call finds no resume value. -/
  | raise (i : ℕ) (payload : Json) (id : Option String)
    (k : Except JunctureError Json → NodeProg S)
    (h : e.phase i = .running (.interrupt payload id k))
    (hv : getResumeValue env.resumeValues e.currentIndex = none) :
    Move env e ((e.nextIndex i).setPhase i (.sending (unansweredSignal e.currentIndex payload id)
      (k (.error (.interrupted e.currentIndex)))))
  /-- The signal of such a call is sent. -/
  | send (i : ℕ) (signal : InterruptSignal) (p : NodeProg S) (h : e.phase i = .sending signal p) :
    Move env e (e.sendInterrupt i signal p)
  /-- A node that does not exist ends the superstep. -/
  | spawnFail (err : JunctureError) (h : e.spawnError = some err) :
    Move env e { e with failure := some err }
  /-- The collector handles a completed task. -/
  | join (i : ℕ) (r : Except JunctureError (Command S)) (task : PendingTask S)
    (hs : e.spawnError = none) (h : e.completed[e.joined]? = some (i, r))
    (ht : env.tasks[i]? = some task) :
    Move env e ({ e with joined := e.joined + 1 }.collect env task r)

omit [InterruptHash] in
theorem mayCut_of_timeoutPolicy {p : String × TimeoutPolicy} (h : timeoutPolicy env i = some p)
    (te : NodeTimeoutError) : MayCut env e i (.nodeTimeout te) := by
  unfold timeoutPolicy at h
  obtain ⟨t, ht, hp⟩ := Option.bind_eq_some_iff.1 h
  obtain ⟨policy, hl, -⟩ := Option.map_eq_some_iff.1 hp
  exact .inr ⟨t, te, ht, by simp [Dict.containsKey, hl], rfl⟩

theorem stepTask_move :
    e.stepTask env i = e ∨ Move env e (e.stepTask env i) := by
  unfold stepTask
  cases hp : e.phase i with
  | waiting p =>
    by_cases ha : e.activeCount env.tasks.length < max env.config.maxParallelTasks 1
    · cases hc : e.cancelled with
      | true => simpa [ha, hc] using .inr (.cut i p _ (.inl hp) (.inl ⟨hc, rfl⟩))
      | false => simpa [ha, hc] using .inr (.start i p hp hc)
    · simp [ha]
  | running p =>
    right
    cases p with
    | done r => exact .done i r hp
    | readLocals k => exact .read i k hp
    | backoff error k => exact .retry i error k hp
    | interrupt payload id k =>
      cases hv : getResumeValue env.resumeValues e.currentIndex with
      | some value => simpa [advance, interruptCall, hv] using Move.answer i payload id k value hp hv
      | none => simpa [advance, interruptCall, hv] using Move.raise i payload id k hp hv
  | sending signal p => exact .inr (.send i signal p hp)
  | finished => exact .inl rfl

theorem cutShort_move {error : Option JunctureError}
    (h : ∀ err, error = some err → MayCut env e i err) :
    e.cutShort i error = e ∨ Move env e (e.cutShort i error) := by
  unfold cutShort
  cases hp : e.phase i with
  | running p =>
    cases error with
    | some err => exact .inr (.cut i p err (.inr hp) (h err rfl))
    | none => exact .inl rfl
  | _ => exact .inl rfl

omit [InterruptHash] in
theorem joinNext_of_spawnError {err : JunctureError} (h : e.spawnError = some err) :
    e.joinNext env = { e with failure := some err } := by
  simp [joinNext, h]

omit [InterruptHash] in
theorem joinNext_of_completed {r : Except JunctureError (Command S)} {task : PendingTask S}
    (hs : e.spawnError = none) (h : e.completed[e.joined]? = some (i, r))
    (ht : env.tasks[i]? = some task) :
    e.joinNext env = { e with joined := e.joined + 1 }.collect env task r := by
  simp [joinNext, hs, h, ht]

theorem joinNext_move : e.joinNext env = e ∨ Move env e (e.joinNext env) := by
  cases hs : e.spawnError with
  | some err => exact .inr (joinNext_of_spawnError hs ▸ .spawnFail err hs)
  | none =>
    cases hc : e.completed[e.joined]? with
    | none => exact .inl (by simp [joinNext, hs, hc])
    | some c =>
      obtain ⟨i, r⟩ := c
      cases ht : env.tasks[i]? with
      | none => exact .inl (by simp [joinNext, hs, hc, ht])
      | some task => exact .inr (joinNext_of_completed hs hc ht ▸ .join i r task hs hc ht)

/-- **A step does nothing, is a move, or is the cancellation from outside.** -/
theorem step_move (env : SpawnEnv S σ) (e : Superstep S σ) (c : Choice) :
    e.step env c = e ∨ (e.failure = none ∧ Move env e (e.step env c)) ∨
      (c = .cancel ∧ e.failure = none ∧ e.step env c = { e with cancelled := true }) := by
  unfold step
  cases hf : e.failure with
  | some err => exact .inl rfl
  | none =>
    cases c with
    | step i => exact stepTask_move.imp_right fun h => .inl ⟨rfl, h⟩
    | abort i =>
      refine (cutShort_move fun err h => ?_).imp_right fun h => .inl ⟨rfl, h⟩
      cases hc : e.cancelled with
      | true => exact .inl ⟨hc, by simpa [hc] using h.symm⟩
      | false => simp [hc] at h
    | runTimeout i =>
      refine (cutShort_move fun err h => ?_).imp_right fun h => .inl ⟨rfl, h⟩
      obtain ⟨p, hp, rfl⟩ := Option.map_eq_some_iff.1 h
      exact mayCut_of_timeoutPolicy hp _
    | idleTimeout i =>
      refine (cutShort_move fun err h => ?_).imp_right fun h => .inl ⟨rfl, h⟩
      obtain ⟨p, hp, ht⟩ := Option.bind_eq_some_iff.1 h
      obtain ⟨t, -, rfl⟩ := Option.map_eq_some_iff.1 ht
      exact mayCut_of_timeoutPolicy hp _
    | join => exact joinNext_move.imp_right fun h => .inl ⟨rfl, h⟩
    | cancel => exact .inr (.inr ⟨rfl, rfl, rfl⟩)

theorem Move.spawnError (hm : Move env e e') : e'.spawnError = e.spawnError := by
  cases hm with
  | join i r task =>
    obtain ⟨_, _, _, _, _, heq⟩ := collect_eq env { e with joined := e.joined + 1 } task r
    rw [heq]
  | _ => rfl

theorem step_spawnError (c : Choice) : (e.step env c).spawnError = e.spawnError := by
  rcases step_move env e c with he | ⟨-, hm⟩ | ⟨-, -, he⟩
  · rw [he]
  · exact hm.spawnError
  · rw [he]

/-! ### Draining -/

theorem step_of_failure {err : JunctureError} (h : e.failure = some err) (c : Choice) :
    e.step env c = e := by
  simp [step, h]

theorem step_running {p : NodeProg S} (hf : e.failure = none) (h : e.phase i = .running p) :
    e.step env (.step i) = e.advance env i p := by
  simp [step, hf, stepTask, h]

theorem step_sending {signal : InterruptSignal} {p : NodeProg S} (hf : e.failure = none)
    (h : e.phase i = .sending signal p) :
    e.step env (.step i) = e.sendInterrupt i signal p := by
  simp [step, hf, stepTask, h]

/-- Steps other than the cancellation from outside. -/
abbrev Reaches (env : SpawnEnv S σ) (e e' : Superstep S σ) : Prop :=
  Machine.Reaches (step env) (· ≠ .cancel) e e'

theorem reaches_step (e : Superstep S σ) (i : ℕ) : Reaches env e (e.step env (.step i)) :=
  Machine.Reaches.single (c := Choice.step i) (by simp)

theorem reaches_driveTask (p : NodeProg S) : ∀ e : Superstep S σ,
    Reaches env e (driveTask env i p e) := by
  induction p with
  | done r => intro e; exact reaches_step e i
  | readLocals k ih => intro e; exact (reaches_step e i).trans (ih env.locals _)
  | backoff _ k ih => intro e; exact (reaches_step e i).trans (ih _)
  | interrupt payload id k ih =>
    intro e
    unfold driveTask
    split
    · exact (reaches_step e i).trans (ih _ _)
    · exact (reaches_step e i).trans ((reaches_step _ i).trans (ih _ _))

theorem reaches_leaveNode (e : Superstep S σ) (i : ℕ) : Reaches env e (e.leaveNode env i) := by
  unfold leaveNode
  split
  · split
    · exact Machine.Reaches.single (c := Choice.abort i) (by simp)
    · exact reaches_driveTask _ e
  · exact .refl e

theorem reaches_finishTask (e : Superstep S σ) (i : ℕ) : Reaches env e (e.finishTask env i) := by
  unfold finishTask
  split
  · exact (reaches_step e i).trans (reaches_leaveNode _ i)
  · exact (reaches_step e i).trans (reaches_leaveNode _ i)
  · exact reaches_leaveNode e i

theorem reaches_join (e : Superstep S σ) : Reaches env e (e.step env .join) :=
  Machine.Reaches.single (c := Choice.join) (by simp)

theorem reaches_joinAll (e : Superstep S σ) : Reaches env e (e.joinAll env) :=
  Machine.reaches_iterate reaches_join _ e

theorem reaches_settleTask (e : Superstep S σ) (i : ℕ) : Reaches env e (e.settleTask env i) :=
  (reaches_finishTask e i).trans (reaches_joinAll _)

theorem reaches_settleActive (e : Superstep S σ) (i : ℕ) :
    Reaches env e (e.settleActive env i) := by
  unfold settleActive
  split
  · exact reaches_settleTask e i
  · exact .refl e

/-- **Draining is made of steps.** -/
theorem reaches_drain (e : Superstep S σ) : Reaches env e (e.drain env) := by
  have hjoin : Reaches env e ((e.step env .join).joinAll env) :=
    (reaches_join e).trans (reaches_joinAll _)
  exact (hjoin.trans (Machine.reaches_foldl reaches_settleActive _ _)).trans
    (Machine.reaches_foldl reaches_settleTask _ _)

/-! ### The end of a superstep -/

/-- Facts about positions and counters. -/
structure WellFormed (env : SpawnEnv S σ) (e : Superstep S σ) : Prop where
  /-- Only the tasks of the superstep run. -/
  bound : ∀ i, env.tasks.length ≤ i → e.phase i = .finished
  /-- Only they return. -/
  completed : ∀ c ∈ e.completed, c.1 < env.tasks.length
  /-- A task is joined after it has returned. -/
  joined : e.joined ≤ e.completed.length

omit [InterruptHash] in
theorem WellFormed.setPhase (h : WellFormed env e) {ph : TaskPhase S}
    (hi : e.phase i ≠ .finished) : WellFormed env (e.setPhase i ph) where
  bound j hj := by
    have hji : j ≠ i := fun hji => hi (hji ▸ h.bound j hj)
    simp [setPhase_phase, hji, h.bound j hj]
  completed := h.completed
  joined := h.joined

omit [InterruptHash] in
theorem WellFormed.complete (h : WellFormed env e) {r : Except JunctureError (Command S)}
    (hi : e.phase i ≠ .finished) : WellFormed env (e.complete i r) where
  bound := (h.setPhase hi).bound
  completed c hc := by
    have hlt : i < env.tasks.length := not_le.1 fun hle => hi (h.bound i hle)
    rcases List.mem_append.1 hc with hc | hc
    · exact h.completed c hc
    · obtain rfl := List.mem_singleton.1 hc
      exact hlt
  joined := by
    have := h.joined
    simp only [Superstep.complete, List.length_append, List.length_singleton]
    exact this.trans (Nat.le_succ _)

theorem WellFormed.move (h : WellFormed env e) (hm : Move env e e') : WellFormed env e' := by
  cases hm with
  | start i p hp => exact h.setPhase (by simp [hp])
  | cut i p err hp => exact h.complete (by rcases hp with hp | hp <;> simp [hp])
  | done i r hp => exact h.complete (by simp [hp])
  | read i k hp => exact h.setPhase (by simp [hp])
  | retry i error k hp =>
    have hw : WellFormed env (e.setPhase i (.running k)) := h.setPhase (by simp [hp])
    exact ⟨hw.bound, hw.completed, hw.joined⟩
  | answer i payload id k value hp =>
    have hw : WellFormed env (e.nextIndex i) := ⟨h.bound, h.completed, h.joined⟩
    exact hw.setPhase (by simp [nextIndex, hp])
  | raise i payload id k hp =>
    have hw : WellFormed env (e.nextIndex i) := ⟨h.bound, h.completed, h.joined⟩
    exact hw.setPhase (by simp [nextIndex, hp])
  | send i signal p hp =>
    have hw : WellFormed env (e.setPhase i (.running p)) := h.setPhase (by simp [hp])
    exact ⟨hw.bound, hw.completed, hw.joined⟩
  | spawnFail err => exact ⟨h.bound, h.completed, h.joined⟩
  | join i r task hs hc =>
    obtain ⟨_, _, _, _, _, heq⟩ := collect_eq env { e with joined := e.joined + 1 } task r
    rw [heq]
    exact ⟨h.bound, h.completed, (List.getElem?_eq_some_iff.1 hc).1⟩

theorem WellFormed.step (h : WellFormed env e) (c : Choice) : WellFormed env (e.step env c) := by
  rcases step_move env e c with he | ⟨-, hm⟩ | ⟨-, -, he⟩
  · rw [he]; exact h
  · exact h.move hm
  · rw [he]; exact ⟨h.bound, h.completed, h.joined⟩

theorem WellFormed.reaches (h : WellFormed env e) (hr : Reaches env e e') : WellFormed env e' :=
  hr.invariant (fun _ c _ h => h.step c) h

theorem failure_of_reaches {err : JunctureError} (h : e.failure = some err)
    (hr : Reaches env e e') : e' = e := by
  refine hr.invariant (I := fun e' => e' = e) (fun s c _ hs => ?_) rfl
  subst hs
  exact step_of_failure h c

/-- Task `i` ran alone from `e` to `e'`, made the calls with indices below `last`, and returned. -/
structure Driven (i last : ℕ) (e e' : Superstep S σ) : Prop where
  phase : ∀ j, e'.phase j = if j = i then .finished else e.phase j
  failure : e'.failure = none
  joined : e'.joined = e.joined
  spawnError : e'.spawnError = e.spawnError
  mono : e.calls ⊆ e'.calls
  calls : ∀ k, e.currentIndex ≤ k → k < last →
    { task := i, ordinal := e.made i + (k - e.currentIndex), index := k } ∈ e'.calls

section

omit [InterruptHash]

variable {last : ℕ}

/-- A move of the task that makes no call comes before. -/
theorem Driven.of_quiet {e₁ : Superstep S σ} (h : Driven i last e₁ e')
    (hphase : ∀ j, j ≠ i → e₁.phase j = e.phase j) (hj : e₁.joined = e.joined)
    (hs : e₁.spawnError = e.spawnError) (hi : e₁.currentIndex = e.currentIndex)
    (hc : e₁.calls = e.calls) : Driven i last e e' where
  phase j := by
    rw [h.phase j]
    split
    · rfl
    · exact hphase j ‹_›
  failure := h.failure
  joined := h.joined.trans hj
  spawnError := h.spawnError.trans hs
  mono := hc ▸ h.mono
  calls := by simpa only [made, hi, hc] using h.calls

theorem made_nextIndex : (e.nextIndex i).made i = e.made i + 1 := by
  simp [made, nextIndex]

/-- A call comes before. -/
theorem Driven.of_call (h : Driven i last (e.nextIndex i) e') : Driven i last e e' where
  phase := h.phase
  failure := h.failure
  joined := h.joined
  spawnError := h.spawnError
  mono c hc := h.mono (List.mem_append_left _ hc)
  calls k hk hlast := by
    rcases hk.eq_or_lt with rfl | hlt
    · exact h.mono (by simp [nextIndex])
    · have hmem := h.calls k hlt hlast
      rw [made_nextIndex] at hmem
      have hord : e.made i + 1 + (k - (e.currentIndex + 1)) = e.made i + (k - e.currentIndex) := by
        omega
      exact hord ▸ hmem

end

/-- **A task on its own.**  It makes the calls its program makes on its own, and returns. -/
theorem driven_driveTask (env : SpawnEnv S σ) (p : NodeProg S) : ∀ e : Superstep S σ, e.failure = none →
    e.phase i = .running p →
    Driven i (p.solo env.locals env.resumeValues e.currentIndex).2 e (driveTask env i p e) := by
  induction p with
  | done r =>
    intro e hf hp
    rw [driveTask, step_running hf hp]
    exact
      { phase := fun j => rfl
        failure := hf
        joined := rfl
        spawnError := rfl
        mono := fun c hc => hc
        calls := fun k hk hlt => absurd hlt (not_lt.2 hk) }
  | readLocals k ih =>
    intro e hf hp
    rw [driveTask, step_running hf hp]
    have hdriven := ih env.locals (e.setPhase i (.running (k env.locals))) hf
      (setPhase_phase_self _)
    exact hdriven.of_quiet (fun j hj => by simp [setPhase_phase, hj]) rfl rfl rfl rfl
  | backoff error k ih =>
    intro e hf hp
    rw [driveTask, step_running hf hp]
    have hdriven := ih (e.nextAttempt i error k) hf (setPhase_phase_self _)
    exact hdriven.of_quiet (fun j hj => by simp [nextAttempt, setPhase_phase, hj]) rfl rfl rfl rfl
  | interrupt payload id k ih =>
    intro e hf hp
    rw [driveTask, step_running hf hp]
    refine .of_call ?_
    cases hv : getResumeValue env.resumeValues e.currentIndex with
    | some value =>
      have hdriven := ih (.ok value) ((e.nextIndex i).setPhase i (.running (k (.ok value)))) hf
        (setPhase_phase_self _)
      simp only [advance, interruptCall, hv, NodeProg.solo, interruptResult]
      exact hdriven.of_quiet (fun j hj => by simp [setPhase_phase, hj]) rfl rfl rfl rfl
    -- Without a value the call takes two turns: the signal is sent in the second.
    | none =>
      simp only [advance, interruptCall, hv, NodeProg.solo, interruptResult]
      rw [step_sending (e := (e.nextIndex i).setPhase i _) hf (setPhase_phase_self _)]
      have hdriven := ih (.error (.interrupted e.currentIndex))
        (((e.nextIndex i).setPhase i (.sending (unansweredSignal e.currentIndex payload id)
          (k (.error (.interrupted e.currentIndex))))).sendInterrupt i
            (unansweredSignal e.currentIndex payload id) (k (.error (.interrupted e.currentIndex))))
        hf (setPhase_phase_self _)
      exact hdriven.of_quiet (fun j hj => by simp [sendInterrupt, setPhase_phase, hj])
        rfl rfl rfl rfl

/-- Between `e` and `e'` task `i` returned, and no other task moved. -/
def Returns (i : ℕ) (e e' : Superstep S σ) : Prop :=
  e'.failure = none ∧ e'.phase = fun j => if j = i then .finished else e.phase j

theorem returns_leaveNode {p : NodeProg S} (hf : e.failure = none) (hp : e.phase i = .running p) :
    Returns i e (e.leaveNode env i) := by
  simp only [leaveNode, hp]
  cases hc : e.cancelled with
  | true =>
    simp only [if_true]
    have habort : e.step env (.abort i) = e.complete i (.error taskCancelled) := by
      simp [step, hf, cutShort, hp, hc]
    rw [habort]
    exact ⟨hf, rfl⟩
  | false =>
    have hdriven := driven_driveTask (i := i) env p e hf hp
    simp only [Bool.false_eq_true, if_false]
    exact ⟨hdriven.failure, funext hdriven.phase⟩

theorem leaveNode_of_finished (h : e.phase i = .finished) : e.leaveNode env i = e := by
  simp [leaveNode, h]

theorem returns_finishTask (hf : e.failure = none)
    (hpermit : (e.phase i).active = true ∨
      e.activeCount env.tasks.length < max env.config.maxParallelTasks 1) :
    Returns i e (e.finishTask env i) := by
  cases hp : e.phase i with
  | waiting p =>
    have hperm := hpermit.resolve_left (by simp [hp, TaskPhase.active])
    simp only [finishTask, hp]
    cases hc : e.cancelled with
    | true =>
      have hstep : e.step env (.step i) = e.complete i (.error taskCancelled) := by
        simp [step, hf, stepTask, hp, hperm, hc]
      rw [hstep, leaveNode_of_finished (complete_phase_self _)]
      exact ⟨hf, rfl⟩
    | false =>
      have hstep : e.step env (.step i) = e.setPhase i (.running p) := by
        simp [step, hf, stepTask, hp, hperm, hc]
      rw [hstep]
      obtain ⟨hf', hphase⟩ := returns_leaveNode (e := e.setPhase i (.running p)) hf
        (setPhase_phase_self _)
      refine ⟨hf', hphase.trans (funext fun j => ?_)⟩
      by_cases hj : j = i <;> simp [setPhase_phase, hj]
  | running p =>
    simp only [finishTask, hp]
    exact returns_leaveNode hf hp
  | sending signal p =>
    simp only [finishTask, hp]
    rw [step_sending hf hp]
    obtain ⟨hf', hphase⟩ := returns_leaveNode (e := e.sendInterrupt i signal p) hf
      (setPhase_phase_self _)
    refine ⟨hf', hphase.trans (funext fun j => ?_)⟩
    by_cases hj : j = i <;> simp [sendInterrupt, setPhase_phase, hj]
  | finished =>
    simp only [finishTask, hp]
    rw [leaveNode_of_finished hp]
    refine ⟨hf, funext fun j => ?_⟩
    by_cases hj : j = i <;> simp [hj, hp]

/-- Joining a completed task. -/
theorem step_join_eq (hw : WellFormed env e) (hf : e.failure = none) (hs : e.spawnError = none)
    (hlt : e.joined < e.completed.length) :
    ∃ i r task, e.completed[e.joined]? = some (i, r) ∧ env.tasks[i]? = some task ∧
      e.step env .join = { e with joined := e.joined + 1 }.collect env task r := by
  obtain ⟨⟨i, r⟩, hc⟩ : ∃ c, e.completed[e.joined]? = some c := ⟨_, List.getElem?_eq_getElem hlt⟩
  have hi : i < env.tasks.length := hw.completed (i, r) (List.mem_of_getElem? hc)
  refine ⟨i, r, env.tasks[i], hc, List.getElem?_eq_getElem hi, ?_⟩
  have hstep : e.step env .join = e.joinNext env := by simp [step, hf]
  exact hstep.trans (joinNext_of_completed hs hc (List.getElem?_eq_getElem hi))

theorem step_join (hw : WellFormed env e) (hf : e.failure = none) (hs : e.spawnError = none)
    (hlt : e.joined < e.completed.length) :
    (e.step env .join).phase = e.phase ∧ (e.step env .join).completed = e.completed ∧
      (e.step env .join).spawnError = none ∧ (e.step env .join).joined = e.joined + 1 := by
  obtain ⟨i, r, task, -, -, hstep⟩ := step_join_eq hw hf hs hlt
  obtain ⟨_, _, _, _, _, heq⟩ := collect_eq env { e with joined := e.joined + 1 } task r
  rw [hstep, heq]
  exact ⟨rfl, rfl, hs, rfl⟩

/-- Joining moves no task, and ends with a failure or with everything joined. -/
theorem joinAll_ends (hw : WellFormed env e) (hs : e.spawnError = none) :
    (e.joinAll env).phase = e.phase ∧
      ((e.joinAll env).failure = none →
        (e.joinAll env).joined = (e.joinAll env).completed.length ∧
          (e.joinAll env).spawnError = none) := by
  unfold joinAll
  generalize hn : e.completed.length - e.joined = n
  induction n generalizing e with
  | zero =>
    have hle := hw.joined
    exact ⟨rfl, fun _ => ⟨by simp only [Function.iterate_zero, id]; omega, hs⟩⟩
  | succ n ih =>
    rw [Function.iterate_succ_apply]
    cases hf : e.failure with
    | some err =>
      have hstay : ((fun e => e.step env .join)^[n] (e.step env .join)) = e :=
        failure_of_reaches hf ((reaches_join e).trans (Machine.reaches_iterate reaches_join n _))
      rw [hstay]
      exact ⟨rfl, fun h => by simp [hf] at h⟩
    | none =>
      obtain ⟨hphase, hcompleted, hs', hjoined⟩ := step_join hw hf hs (by omega)
      obtain ⟨hphase', hend⟩ := ih (hw.step .join) hs' (by rw [hcompleted, hjoined]; omega)
      exact ⟨hphase'.trans hphase, hend⟩

/-- Nothing is left to join, and every task could be spawned. -/
structure Settled (env : SpawnEnv S σ) (e : Superstep S σ) : Prop extends WellFormed env e where
  failure : e.failure = none
  spawnError : e.spawnError = none
  allJoined : e.joined = e.completed.length

/-- A task returns and is joined: a failure, or nothing else has changed. -/
theorem settled_settleTask (h : Settled env e)
    (hpermit : (e.phase i).active = true ∨
      e.activeCount env.tasks.length < max env.config.maxParallelTasks 1)
    (hend : (e.settleTask env i).failure = none) :
    Settled env (e.settleTask env i) ∧
      (e.settleTask env i).phase = fun j => if j = i then .finished else e.phase j := by
  obtain ⟨-, hphase⟩ := returns_finishTask h.failure hpermit
  have hs : (e.finishTask env i).spawnError = none :=
    (reaches_finishTask e i).invariant (I := fun e => e.spawnError = none)
      (fun _ c _ hs => (step_spawnError c).trans hs) h.spawnError
  have hw := h.toWellFormed.reaches (reaches_finishTask e i)
  obtain ⟨hphase', hjoined⟩ := joinAll_ends hw hs
  exact ⟨⟨hw.reaches (reaches_joinAll _), hend, (hjoined hend).2, (hjoined hend).1⟩,
    hphase'.trans hphase⟩

/-- A failure stays to the end of a loop over the tasks. -/
theorem failure_of_foldl {f : Superstep S σ → ℕ → Superstep S σ}
    (hf : ∀ e i, Reaches env e (f e i)) {l : List ℕ} (h : (l.foldl f e).failure = none) :
    e.failure = none := by
  cases he : e.failure with
  | none => rfl
  | some err =>
    rw [failure_of_reaches he (Machine.reaches_foldl hf l e), he] at h
    exact absurd h (by simp)

theorem settled_foldl_settleActive {l : List ℕ} : ∀ {e : Superstep S σ}, Settled env e →
    (l.foldl (settleActive env) e).failure = none →
    Settled env (l.foldl (settleActive env) e) ∧
      ∀ j, (j ∈ l ∨ (e.phase j).active = false) →
        ((l.foldl (settleActive env) e).phase j).active = false := by
  induction l with
  | nil => intro e h _; exact ⟨h, fun j hj => hj.resolve_left (by simp)⟩
  | cons i l ih =>
    intro e h hend
    have hend' : (e.settleActive env i).failure = none :=
      failure_of_foldl (l := l) reaches_settleActive hend
    have hstep : Settled env (e.settleActive env i) ∧
        ∀ j, (j = i ∨ (e.phase j).active = false) →
          ((e.settleActive env i).phase j).active = false := by
      unfold settleActive at hend' ⊢
      by_cases hact : (e.phase i).active = true
      · rw [if_pos hact] at hend' ⊢
        obtain ⟨hset, hphase⟩ := settled_settleTask h (.inl hact) hend'
        refine ⟨hset, fun j hj => ?_⟩
        rw [hphase]
        by_cases hji : j = i
        · simp [hji, TaskPhase.active]
        · simpa [hji] using hj
      · rw [if_neg hact]
        refine ⟨h, fun j hj => ?_⟩
        rcases hj with rfl | hj
        exacts [by simpa using hact, hj]
    obtain ⟨hset, hinactive⟩ := ih hstep.1 hend
    refine ⟨hset, fun j hj => hinactive j ?_⟩
    simp only [List.mem_cons] at hj
    rcases hj with (rfl | hj) | hj
    exacts [.inr (hstep.2 _ (.inl rfl)), .inl hj, .inr (hstep.2 j (.inr hj))]

omit [InterruptHash] in
theorem activeCount_eq_zero (h : ∀ j, (e.phase j).active = false) (n : ℕ) :
    e.activeCount n = 0 := by
  simp [activeCount, h]

theorem settled_foldl_settleTask {l : List ℕ} : ∀ {e : Superstep S σ}, Settled env e →
    (∀ j, (e.phase j).active = false) → (l.foldl (settleTask env) e).failure = none →
    Settled env (l.foldl (settleTask env) e) ∧
      ∀ j, (j ∈ l ∨ e.phase j = .finished) →
        (l.foldl (settleTask env) e).phase j = .finished := by
  induction l with
  | nil => intro e h _ _; exact ⟨h, fun j hj => hj.resolve_left (by simp)⟩
  | cons i l ih =>
    intro e h hinactive hend
    have hend' : (e.settleTask env i).failure = none :=
      failure_of_foldl (l := l) reaches_settleTask hend
    have hpermit : e.activeCount env.tasks.length < max env.config.maxParallelTasks 1 := by
      rw [activeCount_eq_zero hinactive]; omega
    obtain ⟨hset, hphase⟩ := settled_settleTask h (.inr hpermit) hend'
    have hinactive' (j : ℕ) : ((e.settleTask env i).phase j).active = false := by
      rw [hphase]
      by_cases hji : j = i
      · simp [hji, TaskPhase.active]
      · simpa [hji] using hinactive j
    obtain ⟨hset', hfin⟩ := ih hset hinactive' hend
    refine ⟨hset', fun j hj => hfin j ?_⟩
    rw [hphase]
    simp only [List.mem_cons] at hj
    rcases hj with (rfl | hj) | hj
    exacts [.inr (by simp), .inl hj, .inr (by simp [hj])]

/-- **After draining, the superstep has failed, or every task has returned and been joined.** -/
theorem drain_ends (hw : WellFormed env e) (hend : (e.drain env).failure = none) :
    Settled env (e.drain env) ∧ ∀ j, (e.drain env).phase j = .finished := by
  have h₂ := failure_of_foldl reaches_settleTask hend
  have h₁ := failure_of_foldl reaches_settleActive h₂
  have hjoin : Settled env ((e.step env .join).joinAll env) := by
    have hw' := hw.step .join
    have hs : (e.step env .join).spawnError = none := by
      cases hs : e.spawnError with
      | none => exact (step_spawnError _).trans hs
      | some err =>
        cases hf : e.failure with
        | some err' =>
          have hreach : Reaches env e ((e.step env .join).joinAll env) :=
            (reaches_join e).trans (reaches_joinAll _)
          exact absurd h₁ (by simp [failure_of_reaches hf hreach, hf])
        | none =>
          have hfail : (e.step env .join).failure = some err := by
            have hstep : e.step env .join = e.joinNext env := by simp [step, hf]
            rw [hstep, joinNext_of_spawnError hs]
          have hreach : Reaches env (e.step env .join) ((e.step env .join).joinAll env) :=
            reaches_joinAll _
          exact absurd h₁ (by simp [failure_of_reaches hfail hreach, hfail])
    obtain ⟨-, hjoined⟩ := joinAll_ends hw' hs
    exact ⟨hw'.reaches (reaches_joinAll _), h₁, (hjoined h₁).2, (hjoined h₁).1⟩
  obtain ⟨hset, hinactive⟩ := settled_foldl_settleActive hjoin h₂
  have hall (j : ℕ) : (((List.range env.tasks.length).foldl (settleActive env)
      ((e.step env .join).joinAll env)).phase j).active = false := by
    by_cases hj : j < env.tasks.length
    · exact hinactive j (.inl (List.mem_range.2 hj))
    · rw [hset.bound j (not_lt.1 hj)]; rfl
  obtain ⟨hset', hfin⟩ := settled_foldl_settleTask hset hall hend
  refine ⟨hset', fun j => ?_⟩
  by_cases hj : j < env.tasks.length
  · exact hfin j (.inl (List.mem_range.2 hj))
  · exact hset'.bound j (not_lt.1 hj)

end Superstep

/-! ### The start of a superstep -/

section Start

omit [InterruptHash]

theorem length_spawnTasks_le (env : RunnerEnv S σ) (state : S) (tasks : List (PendingTask S)) :
    (spawnTasks env state tasks).1.length ≤ tasks.length := by
  induction tasks with
  | nil => exact le_refl _
  | cons task tasks ih =>
    simp only [spawnTasks]
    split
    · simp
    · simpa using ih

/-- A spawned program is the program of its task. -/
theorem spawnTasks_getElem? {env : RunnerEnv S σ} {state : S} {tasks : List (PendingTask S)} {i : ℕ}
    {p : NodeProg S} (h : (spawnTasks env state tasks).1[i]? = some p) :
    ∃ task, tasks[i]? = some task ∧ env.taskProg state task = .ok p := by
  induction tasks generalizing i with
  | nil => simp [spawnTasks] at h
  | cons task tasks ih =>
    simp only [spawnTasks] at h
    split at h
    · simp at h
    · rename_i q hq
      cases i with
      | zero => exact ⟨task, rfl, by simpa [hq] using h⟩
      | succ i => exact ih (by simpa using h)

theorem Superstep.wellFormed_init (env : SpawnEnv S σ) (state : S) (store : σ) (nextUuid : Uuid)
    (cancelled : Bool) : WellFormed env (.init env state store nextUuid cancelled) where
  bound i hi := by
    have hle := length_spawnTasks_le env.toRunnerEnv state env.tasks
    simp [init, List.getElem?_eq_none (hle.trans hi)]
  completed c hc := by simp [init] at hc
  joined := le_refl _

end Start

/-- What every step preserves holds at the end; the run is cancelled from outside only when the
schedule says so. -/
theorem Superstep.invariant_runSpawned {I : Superstep S σ → Prop} {env : SpawnEnv S σ} {state : S}
    {store : σ} {nextUuid : Uuid} {cancelled : Bool} {schedule : List Choice}
    (hstep : ∀ e c, (c = .cancel → .cancel ∈ schedule) → I e → I (e.step env c))
    (h : I (.init env state store nextUuid cancelled)) :
    I (runSpawned env state store nextUuid cancelled schedule) := by
  have hrun : Machine.Reaches (step env) (fun c => c = .cancel → .cancel ∈ schedule) _
      (schedule.foldl (step env) (.init env state store nextUuid cancelled)) :=
    .of_foldl fun c hc hcancel => hcancel ▸ hc
  exact (hrun.trans ((reaches_drain _).mono fun c hc hcancel => absurd hcancel hc)).invariant hstep h

/-- **The end of a superstep that does not fail.** -/
theorem Superstep.runSpawned_ends {env : SpawnEnv S σ} {state : S} {store : σ} {nextUuid : Uuid}
    {cancelled : Bool} {schedule : List Choice}
    (h : (runSpawned env state store nextUuid cancelled schedule).failure = none) :
    Settled env (runSpawned env state store nextUuid cancelled schedule) ∧
      ∀ j, (runSpawned env state store nextUuid cancelled schedule).phase j = .finished := by
  have hrun : Machine.Reaches (step env) (fun _ => True) _
      (schedule.foldl (step env) (.init env state store nextUuid cancelled)) :=
    .of_foldl fun _ _ => trivial
  have hw := hrun.invariant (fun _ c _ hw => hw.step c)
    (wellFormed_init env state store nextUuid cancelled)
  exact drain_ends hw h

theorem Superstep.wellFormed_runSpawned (env : SpawnEnv S σ) (state : S) (store : σ)
    (nextUuid : Uuid) (cancelled : Bool) (schedule : List Choice) :
    WellFormed env (runSpawned env state store nextUuid cancelled schedule) :=
  invariant_runSpawned (fun _ c _ hw => hw.step c)
    (wellFormed_init env state store nextUuid cancelled)

/-! ### The inline path -/

omit [InterruptHash] in
/-- The inline path is taken by one plain task. -/
theorem inlineTask_eq_some_iff {env : RunnerEnv S σ} {tasks : List (PendingTask S)}
    {task : PendingTask S} :
    inlineTask env tasks = some task ↔ tasks = [task] ∧ env.needsSpawn task.nodeName = false := by
  rcases tasks with _ | ⟨t, _ | ⟨t', ts⟩⟩
  · simp [inlineTask]
  · simp only [inlineTask, List.cons.injEq, and_true]
    cases hneeds : env.needsSpawn t.nodeName with
    | true =>
      simp only [if_true, reduceCtorEq, false_iff]
      rintro ⟨rfl, hplain⟩
      rw [hneeds] at hplain
      cases hplain
    | false =>
      simp only [Bool.false_eq_true, if_false, Option.some.injEq]
      constructor
      · rintro rfl
        exact ⟨rfl, hneeds⟩
      · exact fun h => h.1
  · simp [inlineTask]

omit [InterruptHash] in
/-- The inline path, when it succeeds. -/
theorem executeInline_eq_ok {env : RunnerEnv S σ} {state : S} {task : PendingTask S} {store : σ}
    {nextUuid : Uuid} {cancelled : Bool} {a : SuperstepResult S}
    (ha : (executeInline env state task store nextUuid cancelled).result = .ok a) :
    ∃ p command, env.nodeCall state task = .ok p ∧ p.runInline = .ok command ∧
      a = { taskOutputs := [successOutput task command] } ∧
      (executeInline env state task store nextUuid cancelled).signals = [] ∧
      (executeInline env state task store nextUuid cancelled).cancelled = false := by
  unfold executeInline at ha ⊢
  cases hcall : env.nodeCall state task with
  | error e => simp [hcall] at ha
  | ok p =>
    cases cancelled with
    | true => simp [hcall] at ha
    | false =>
      cases hrun : p.runInline with
      | error e => simp [hcall, hrun, settleInline] at ha
      | ok command =>
        rcases hput : persistWrites env (successOutput task command) store with ⟨store', e | ⟨⟩⟩
        · simp [hcall, hrun, settleInline, hput] at ha
        · simp only [hcall, hrun, settleInline, hput, Bool.false_eq_true, if_false] at ha ⊢
          exact ⟨p, command, rfl, hrun, (Except.ok.inj ha).symm, trivial, trivial⟩

omit [InterruptHash] in
/-- The spawned path, when it succeeds. -/
theorem Superstep.outcome_eq_ok_iff {resumeValues : List (Option Json)} {e : Superstep S σ}
    {result : SuperstepResult S} :
    (e.outcome resumeValues).result = .ok result ↔
      e.failure = none ∧ result = { taskOutputs := e.outputs } := by
  unfold Superstep.outcome
  dsimp only
  cases e.failure with
  | some err => simp
  | none => simp [eq_comm]

end Juncture
