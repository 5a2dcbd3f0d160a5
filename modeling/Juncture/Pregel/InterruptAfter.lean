import Juncture.Pregel.VersionRuns

/-!
# Interrupts after a node

`interrupt_after` names nodes after which a run should stop.  At the end of a superstep `after_tick`
asks `should_interrupt` about the pending tasks, which by then are the tasks of the next superstep.
So the run stops in front of the named nodes and not behind them.

* `shouldInterrupt_isSome_iff` : when `should_interrupt` returns signals.
* `stopsAfter_iff` : when a superstep stops the run.
* `stopsAfterExecuted_iff` : the runs that stop where they should.
-/

namespace Juncture

/-! ### `should_interrupt` -/

section Signals

variable [InterruptHash]

theorem interruptSignalsOf_eq_nil_iff {before after : List String} {signals : List InterruptSignal}
    {name : String} :
    interruptSignalsOf before after signals name = [] ↔
      signals = [] ∧ (isHiddenNode name = true ∨ name ∉ before ∧ name ∉ after) := by
  unfold interruptSignalsOf
  by_cases hhidden : isHiddenNode name = true
  · simp [hhidden]
  · by_cases hb : name ∈ before <;> by_cases ha : name ∈ after <;> simp [hhidden, hb, ha]

/-- **When `should_interrupt` returns signals**: the version gate is open, and some pending node that
is not hidden is among the named ones. -/
theorem shouldInterrupt_isSome_iff {names before after : List String} {versions seen : List ℕ} :
    (shouldInterrupt names before after versions seen).isSome = true ↔
      versionGate versions seen = true ∧
        ∃ n ∈ names, isHiddenNode n = false ∧ (n ∈ before ∨ n ∈ after) := by
  -- No signal is added exactly if every name is hidden or on neither list.
  have hfold : ∀ (ns : List String) (acc : List InterruptSignal),
      ns.foldl (interruptSignalsOf before after) acc = [] ↔
        acc = [] ∧ ∀ n ∈ ns, isHiddenNode n = true ∨ n ∉ before ∧ n ∉ after := by
    intro ns
    induction ns with
    | nil => intro acc; simp
    | cons n ns ih =>
      intro acc
      rw [List.foldl_cons, ih, interruptSignalsOf_eq_nil_iff, List.forall_mem_cons, and_assoc]
  unfold shouldInterrupt
  by_cases hgate : versionGate versions seen = true
  · rw [if_pos hgate]
    dsimp only
    have hnil := hfold names []
    by_cases hempty : names.foldl (interruptSignalsOf before after) [] = []
    · have hnone := (hnil.1 hempty).2
      rw [hempty]
      simp only [List.isEmpty_nil, if_true, Option.isSome_none, Bool.false_eq_true, false_iff,
        not_and, not_exists]
      rintro - n hn hhidden hmem
      obtain h | ⟨hb, ha⟩ := hnone n hn
      · rw [hhidden] at h
        cases h
      · exact hmem.elim hb ha
    · rw [if_neg (by simpa using hempty)]
      simp only [Option.isSome_some, hgate, true_and, true_iff]
      by_contra hno
      refine hempty (hnil.2 ⟨rfl, fun n hn => ?_⟩)
      by_contra h
      rw [not_or, Bool.not_eq_true] at h
      refine hno ⟨n, hn, h.1, ?_⟩
      by_contra hmem
      rw [not_or] at hmem
      exact h.2 hmem
  · rw [if_neg hgate]
    simp [hgate]

end Signals

namespace PregelLoop

variable {S σ : Type} [State S] {l l' l₀ : PregelLoop S σ} {result : SuperstepResult S}
  {rounds : ℕ → Round S}

/-! ### One superstep -/

/-- The nodes to stop after. -/
def afterNodes (l : PregelLoop S σ) : List String := l.runnableConfig.interruptAfter.getD []

/-- A node follows the superstep: an output routes to it, it recovers from a failure, or a failure
marker asks for it. -/
def Follows (l : PregelLoop S σ) (result : SuperstepResult S) (n : String) : Prop :=
  let k := l.committed result
  let outputs := executedOutputs result.taskOutputs
  (∃ pre o post, outputs = pre ++ o :: post ∧
    (n ∈ Routes k.triggerTable k.triggerToNodes k.state o ∨
      (recoveryFor k.scheduleEnv pre o post).1 = some n ∨
      (recoveryFor k.scheduleEnv pre o post).2 = some n)) ∨
    n ∈ markerTargets k.scheduleEnv outputs k.persistedWrites.2

/-- Neither a node nor a subgraph stops the run: no node has sent a signal, and no subgraph reports
an interrupt or a drain. -/
def Quiet (l : PregelLoop S σ) (result : SuperstepResult S) : Prop :=
  l.interruptRx.getD [] = [] ∧ ∀ u ∈ result.bubbleUps, ∃ c, u = .parentCommand c

/-- The last report of a subgraph that stops the run is an interrupt. -/
def endsInterrupted (bubbleUps : List (BubbleUp S)) : Bool :=
  bubbleUps.foldl (fun b u =>
    match u with
    | .interrupt _ => true
    | .drained _ => false
    | .parentCommand _ => b) false

/-- A node or a subgraph interrupts the run. -/
def SelfInterrupted (l : PregelLoop S σ) (result : SuperstepResult S) : Prop :=
  l.interruptRx.getD [] ≠ [] ∨ endsInterrupted result.bubbleUps = true

/-- The superstep stops the run with status `InterruptAfter`. -/
def StopsAfter (l l' : PregelLoop S σ) : Prop :=
  l'.step = l.step ∧ ∃ signals, l'.status = .interruptAfter signals

/-- Some field has changed since the last static interrupt. -/
def GateOpen (l : PregelLoop S σ) (result : SuperstepResult S) : Prop :=
  versionGate ((l.superstepChanges result).foldl FieldVersionTracker.bumpAll
    l.fieldVersions).versions l.interruptVersionsSeen = true

/-- The part of the loop that static interrupts look at, the pending tasks and versions apart. -/
def watching (l : PregelLoop S σ) : List ℕ × Option (List String) :=
  (l.interruptVersionsSeen, l.runnableConfig.interruptAfter)

theorem watching_reported (k : PregelLoop S σ) (bubbleUps : List (BubbleUp S)) :
    (k.reported bubbleUps).1.watching = k.watching := by
  obtain ⟨_, _, _, _, heq⟩ := k.reported_eq bubbleUps
  rw [heq]
  rfl

theorem reported_stopped_iff (k : PregelLoop S σ) (bubbleUps : List (BubbleUp S)) :
    (k.reported bubbleUps).2 = false ↔ ∀ u ∈ bubbleUps, ∃ c, u = .parentCommand c := by
  have hfold : ∀ (us : List (BubbleUp S)) (acc : PregelLoop S σ × Bool),
      (us.foldl handleBubbleUp acc).2 = false ↔
        acc.2 = false ∧ ∀ u ∈ us, ∃ c, u = .parentCommand c := by
    intro us
    induction us with
    | nil => intro acc; simp
    | cons u us ih =>
      intro acc
      rw [List.foldl_cons, ih, List.forall_mem_cons, ← and_assoc]
      refine and_congr ?_ Iff.rfl
      cases u with
      | interrupt i => simp [handleBubbleUp]
      | drained d => simp [handleBubbleUp]
      | parentCommand c => simp [handleBubbleUp]
  exact (hfold bubbleUps ({ k with interruptRx := none }, false)).trans (and_iff_right rfl)

/-- The last report that stops the run decides the status. -/
theorem status_reported (k : PregelLoop S σ) (bubbleUps : List (BubbleUp S))
    (h : (k.reported bubbleUps).2 = true) :
    (∃ signals, (k.reported bubbleUps).1.status = .interruptAfter signals) ↔
      endsInterrupted bubbleUps = true := by
  -- What the fold has seen so far decides the status, once a report has stopped the run.
  have hfold : ∀ (f : Bool → BubbleUp S → Bool) (_ : ∀ b i, f b (.interrupt i) = true)
      (_ : ∀ b d, f b (.drained d) = false) (_ : ∀ b c, f b (.parentCommand c) = b)
      (us : List (BubbleUp S)) (acc : PregelLoop S σ × Bool) (b : Bool),
      (acc.2 = true → ((∃ signals, acc.1.status = .interruptAfter signals) ↔ b = true)) →
      (us.foldl handleBubbleUp acc).2 = true →
      ((∃ signals, (us.foldl handleBubbleUp acc).1.status = .interruptAfter signals) ↔
        us.foldl f b = true) := by
    intro f hinterrupt hdrained hparent us
    induction us with
    | nil => exact fun acc b hb hs => hb hs
    | cons u us ih =>
      intro acc b hb
      refine ih _ _ fun hs => ?_
      cases u with
      | interrupt i => simp [handleBubbleUp, raise, hinterrupt]
      | drained d => simp [handleBubbleUp, hdrained]
      | parentCommand c =>
        have hstatus : (acc.1.handleParentCommand c).status = acc.1.status :=
          congrArg Prod.snd (acc.1.progress_handleParentCommand c)
        simp only [handleBubbleUp, hstatus, hparent]
        exact hb hs
  refine hfold _ (fun _ _ => rfl) (fun _ _ => rfl) (fun _ _ => rfl) bubbleUps _ false ?_ h
  intro hs
  cases hs

theorem endsInterrupted_eq_false {bubbleUps : List (BubbleUp S)}
    (h : ∀ u ∈ bubbleUps, ∃ c, u = .parentCommand c) : endsInterrupted bubbleUps = false := by
  unfold endsInterrupted
  induction bubbleUps with
  | nil => rfl
  | cons u us ih =>
    obtain ⟨c, rfl⟩ := h u List.mem_cons_self
    exact ih fun u hu => h u (List.mem_cons_of_mem _ hu)

variable [InterruptHash]

theorem interruptAfter_isSome_iff (k : PregelLoop S σ) :
    k.interruptAfter.isSome = true ↔
      versionGate k.fieldVersions.versions k.interruptVersionsSeen = true ∧
        ∃ n ∈ k.pendingTasks.map PendingTask.nodeName, isHiddenNode n = false ∧ n ∈ k.afterNodes := by
  unfold interruptAfter afterNodes staticInterrupt
  cases k.runnableConfig.interruptAfter with
  | none => simp
  | some nodes =>
    rw [Option.bind_some, shouldInterrupt_isSome_iff]
    simp

/-- A static interrupt is asked for after a quiet superstep exactly when the gate is open and one of
the named nodes, not hidden, comes next. -/
theorem interruptAfter_reported_iff {tasks : List (PendingTask S)} {k : PregelLoop S σ}
    (htasks : scheduleNext (l.committed result).scheduleEnv (l.committed result).nextUuid
      (executedOutputs result.taskOutputs) (l.committed result).state
      (l.committed result).persistedWrites.2 = .ok tasks)
    (hk : l.Advanced result tasks k) (hsig : l.interruptRx.getD [] = []) :
    (k.reported result.bubbleUps).1.interruptAfter.isSome = true ↔
      l.GateOpen result ∧
        ∃ n, l.Follows result n ∧ isHiddenNode n = false ∧ n ∈ l.afterNodes := by
  have hkw : k.watching = l.watching := by
    obtain ⟨_, _, _, _, _, _, rfl⟩ := hk
    rfl
  have hw := (k.watching_reported result.bubbleUps).trans hkw
  have hpending : (k.reported result.bubbleUps).1.pendingTasks = tasks := by
    have hcourse := (reported_handleBubbleUps { k with interruptRx := none } result.bubbleUps).1
    exact (congrArg Course.pendingTasks hcourse).trans hk.pendingTasks
  have hversions : (k.reported result.bubbleUps).1.fieldVersions =
      (l.superstepChanges result).foldl .bumpAll l.fieldVersions := by
    have hv := versioning_handleBubbleUps result.bubbleUps { k with interruptRx := none }
    refine (congrArg Prod.fst hv).trans ?_
    unfold superstepChanges
    rw [if_pos hsig, List.foldl_cons]
    obtain ⟨_, _, _, _, _, _, rfl⟩ := hk
    rfl
  have hseen : (k.reported result.bubbleUps).1.interruptVersionsSeen = l.interruptVersionsSeen :=
    congrArg Prod.fst hw
  have hnodes : (k.reported result.bubbleUps).1.afterNodes = l.afterNodes :=
    congrArg (fun w : List ℕ × Option (List String) => w.2.getD []) hw
  rw [interruptAfter_isSome_iff, hversions, hseen, hnodes, hpending]
  refine and_congr Iff.rfl (exists_congr fun n => ?_)
  rw [mem_scheduleNext_iff htasks]
  rfl

omit [InterruptHash] in
theorem stopsAfter_of_stop {k : PregelLoop S σ} (h : k.stop = (l', .ok ()))
    (hstep : k.step = l.step) :
    l.StopsAfter l' ↔ ∃ signals, k.status = .interruptAfter signals := by
  have hp := progress_stop h
  have hs : l'.step = l.step := (congrArg (fun p => p.1.step) hp).trans hstep
  unfold StopsAfter
  rw [show l'.status = k.status from congrArg Prod.snd hp]
  exact and_iff_right hs

/-- **When a superstep stops the run**: a node or a subgraph interrupts it; or the gate is open and
one of the named nodes, not hidden, comes next. -/
theorem stopsAfter_iff (h : l.afterTick result = (l', .ok ())) :
    l.StopsAfter l' ↔ l.SelfInterrupted result ∨ l.Quiet result ∧ l.GateOpen result ∧
      ∃ n, l.Follows result n ∧ isHiddenNode n = false ∧ n ∈ l.afterNodes := by
  obtain ⟨tasks, k, htasks, hk, hf⟩ := afterTick_advanced h
  have hrstep : (k.reported result.bubbleUps).1.step = l.step := (k.step_reported _).trans hk.step
  obtain ⟨signals, hsig, hne, hstop⟩ | ⟨hsig, hexit⟩ := finishTick_cases hf
  · rw [stopsAfter_of_stop hstop hk.step]
    refine iff_of_true ⟨signals, rfl⟩ (.inl (.inl ?_))
    rw [← hk.interruptRx, hsig]
    exact hne
  rw [hk.interruptRx] at hsig
  have hafter := interruptAfter_reported_iff htasks hk hsig
  unfold SelfInterrupted Quiet
  rw [← hafter, ← k.reported_stopped_iff]
  obtain ⟨hstopped, hstop⟩ | ⟨hstopped, hexit⟩ := hexit
  · rw [stopsAfter_of_stop hstop hrstep, k.status_reported _ hstopped]
    simp [hsig, hstopped]
  have hends := endsInterrupted_eq_false ((k.reported_stopped_iff _).1 hstopped)
  obtain ⟨signals, hsome, hstop⟩ | ⟨hnone, rfl⟩ := hexit
  · rw [stopsAfter_of_stop hstop hrstep]
    exact iff_of_true ⟨signals, rfl⟩ (.inr ⟨⟨hsig, hstopped⟩, by rw [hsome]; rfl⟩)
  · refine iff_of_false (fun hs => ?_) ?_
    · have hcount := congrArg (fun p => p.1.step) (progress_countStep (k.reported result.bubbleUps).1)
      have hcount : (k.reported result.bubbleUps).1.countStep.step =
        (k.reported result.bubbleUps).1.step + 1 := hcount
      have := hs.1
      omega
    · simp [hsig, hends, hnone]

/-! ### Along a run -/

/-- A node to stop after, not hidden, is among the given ones. -/
def Named (l : PregelLoop S σ) (nodes : Set String) : Prop :=
  ∃ n ∈ nodes, isHiddenNode n = false ∧ n ∈ l.afterNodes

/-- Along the run, a superstep stops the run with status `InterruptAfter` exactly when a node or a
subgraph interrupts it, or when nothing else stops it, the gate is open, and it has executed one of
the named nodes. -/
def StopsAfterExecuted (l₀ : PregelLoop S σ) (rounds : ℕ → Round S) : Prop :=
  ∀ n l₁ result l, l₀.TurnAt rounds n l₁ result l →
    (l₁.StopsAfter l ↔ l₁.SelfInterrupted result ∨ l₁.Quiet result ∧ l₁.GateOpen result ∧
      l₁.Named {n | n ∈ executedNodes result})

/-- **The runs that stop where they should**: wherever a static interrupt may stop the run, a named
node has been executed exactly when a named node comes next. -/
theorem stopsAfterExecuted_iff :
    l₀.StopsAfterExecuted rounds ↔
      ∀ n l₁ result l, l₀.TurnAt rounds n l₁ result l → l₁.Quiet result → l₁.GateOpen result →
        (l₁.Named {n | n ∈ executedNodes result} ↔ l₁.Named {n | l₁.Follows result n}) := by
  refine forall₄_congr fun n l₁ result l => forall_congr' fun hturn => ?_
  obtain ⟨t, -, -, ha⟩ := hturn
  rw [stopsAfter_iff ha]
  constructor
  · intro h hq hg
    have hself : ¬ l₁.SelfInterrupted result := by
      rintro (hsig | hends)
      · exact hsig hq.1
      · rw [endsInterrupted_eq_false hq.2] at hends
        cases hends
    constructor
    · intro hexec
      exact ((h.2 (.inr ⟨hq, hg, hexec⟩)).resolve_left hself).2.2
    · intro hnext
      exact ((h.1 (.inr ⟨hq, hg, hnext⟩)).resolve_left hself).2.2
  · intro h
    refine or_congr Iff.rfl ⟨?_, ?_⟩
    · rintro ⟨hq, hg, hnext⟩
      exact ⟨hq, hg, (h hq hg).2 hnext⟩
    · rintro ⟨hq, hg, hexec⟩
      exact ⟨hq, hg, (h hq hg).1 hexec⟩

end PregelLoop

/-- `haltedChain` stops "after" `b` when `a` has been executed and `b` only scheduled. -/
theorem haltedChain_not_stopsAfterExecuted : ¬ haltedChain.StopsAfterExecuted undisturbed := by
  have hsuper : (haltedChain.superstep {}).map (fun p =>
      ((p.1.afterTick p.2).2, (p.1.afterTick p.2).1.step == p.1.step,
        (p.1.afterTick p.2).1.status.halted && (p.1.afterTick p.2).1.status.isInterrupted,
        PregelLoop.executedNodes p.2, p.1.afterNodes, p.1.interruptRx.getD [],
        PregelLoop.endsInterrupted p.2.bubbleUps)) =
      some (.ok (), true, true, ["a"], ["b"], [], false) := rfl
  obtain ⟨⟨l₁, result⟩, hs, heq⟩ := Option.map_eq_some_iff.1 hsuper
  simp only [Prod.mk.injEq] at heq
  obtain ⟨hok, hstep, hstatus, hexec, hnamed, hsig, hends⟩ := heq
  intro h
  have hturn : haltedChain.TurnAt undisturbed 0 l₁ result (l₁.afterTick result).1 :=
    ⟨haltedChain, rfl, hs, Prod.ext rfl hok⟩
  have hstops : l₁.StopsAfter (l₁.afterTick result).1 := by
    refine ⟨by simpa using hstep, ?_⟩
    cases hst : (l₁.afterTick result).1.status with
    | interruptAfter signals => exact ⟨signals, rfl⟩
    | _ => rw [hst] at hstatus; cases hstatus
  obtain (hself | hself) | ⟨-, -, node, hnode, -, hafter⟩ := (h 0 l₁ result _ hturn).1 hstops
  · exact hself hsig
  · rw [hends] at hself
    cases hself
  · rw [Set.mem_ofPred_eq, hexec, List.mem_singleton] at hnode
    rw [hnamed, hnode] at hafter
    exact absurd hafter (by decide)

end Juncture
