import Juncture.Lib.Mealy
import Juncture.Pregel.Completions
import Juncture.Pregel.TaskIds
import Mathlib.Data.List.TakeWhile

/-!
# Circuit breakers

The loop keeps one breaker for each node that has a policy.  Before a superstep it asks the breaker
of each pending task in turn (`checks`), and after it tells the breaker what came of each task that
ran (`records`).  A family of breakers is a family of machines with an answer, so that each of them
can be looked at alone.

* `CircuitBreakerState.checks_due` : what a breaker answers to the tasks of a superstep.
* `CircuitBreakerState.Settled.records` : what recording leaves behind.
* `PregelLoop.checkCircuitBreakers_spec`, `PregelLoop.recordCircuitBreakerResults_spec` : the two
  phases of the loop, seen from one node.
-/

namespace Juncture

/-! ### One breaker -/

namespace CircuitBreakerState

/-- What a breaker is like between supersteps: it is closed or open, an open one knows since when,
and a closed one has nothing left of its last opening and has not failed often enough to open. -/
structure Settled (config : CircuitBreakerConfig) (b : CircuitBreakerState) : Prop where
  /-- It is not half open. -/
  closedOrOpen : b.state = .closed ∨ b.state = .open
  /-- It is open since some time. -/
  opened : b.state = .open → b.openedAt.isSome = true
  /-- It is closed for good. -/
  closed : b.state = .closed → b.openedAt = none ∧ b.halfOpenAttempts = 0 ∧
    b.consecutiveFailures < max config.failureThreshold 1

/-- The breaker is asked once for each task, at the given times: where it ends, and its answers. -/
def checks (config : CircuitBreakerConfig) (b : CircuitBreakerState) (times : List ℕ) :
    CircuitBreakerState × List Bool :=
  Mealy.run (fun b now => b.shouldAllow config now) b times

/-- The breaker is told that a task has failed or succeeded. -/
def record (config : CircuitBreakerConfig) (b : CircuitBreakerState) (p : Bool × ℕ) :
    CircuitBreakerState :=
  if p.1 then b.markHalfOpenAttempt.recordFailure config p.2
  else b.markHalfOpenAttempt.recordSuccess

/-- The breaker is told what came of each task, and when. -/
def records (config : CircuitBreakerConfig) (b : CircuitBreakerState) (ps : List (Bool × ℕ)) :
    CircuitBreakerState :=
  ps.foldl (record config) b

/-- The breaker when its cooldown is over. -/
def halfOpened (b : CircuitBreakerState) : CircuitBreakerState :=
  { b with state := .halfOpen, halfOpenAttempts := 1 }

/-- The times from the first one on at which the cooldown is over. -/
def due (config : CircuitBreakerConfig) (opened : ℕ) (times : List ℕ) : List ℕ :=
  times.dropWhile fun now => decide (now - opened < config.cooldownDuration)

variable {config : CircuitBreakerConfig} {b : CircuitBreakerState} {times : List ℕ} {opened : ℕ}

theorem settled_new (config : CircuitBreakerConfig) : Settled config {} where
  closedOrOpen := .inl rfl
  opened h := by cases h
  closed _ := ⟨rfl, rfl, by simp⟩

/-! #### Checks -/

theorem checks_closed (h : b.state = .closed) : checks config b times = (b, times.map fun _ => true) :=
  Mealy.run_of_fixed fun now _ => by simp [shouldAllow, h]

/-- During the cooldown every task is refused. -/
theorem checks_early (h : b.state = .open) (ho : b.openedAt = some opened)
    (hearly : ∀ now ∈ times, now - opened < config.cooldownDuration) :
    checks config b times = (b, times.map fun _ => false) := by
  refine Mealy.run_of_fixed fun now hnow => ?_
  simp [shouldAllow, h, ho, Nat.not_le.2 (hearly now hnow)]

/-- A breaker that is half open answers all further tasks alike: the probe is not spent yet. -/
theorem checks_halfOpened : checks config b.halfOpened times =
    (b.halfOpened, times.map fun _ => decide (1 < config.halfOpenMaxAttempts)) :=
  Mealy.run_of_fixed fun _ _ => rfl

/-- **What an open breaker answers.**  It refuses until the cooldown is over, allows the task that
half opens it, and treats the ones after that alike. -/
theorem checks_due (config : CircuitBreakerConfig) (times : List ℕ) (h : b.state = .open)
    (ho : b.openedAt = some opened) :
    (due config opened times = [] ∧ checks config b times = (b, times.map fun _ => false)) ∨
    ∃ early now late, times = early ++ now :: late ∧ due config opened times = now :: late ∧
      config.cooldownDuration ≤ now - opened ∧
      checks config b times = (b.halfOpened, (early.map fun _ => false) ++
        true :: late.map fun _ => decide (1 < config.halfOpenMaxAttempts)) := by
  have hsplit : times.takeWhile (fun now => decide (now - opened < config.cooldownDuration)) ++
      due config opened times = times := List.takeWhile_append_dropWhile
  have hearly : ∀ now ∈ times.takeWhile
      (fun now => decide (now - opened < config.cooldownDuration)),
      now - opened < config.cooldownDuration := fun now hnow => by
    simpa using List.mem_takeWhile_imp hnow
  cases hdue : due config opened times with
  | nil =>
    rw [hdue, List.append_nil] at hsplit
    rw [hsplit] at hearly
    exact .inl ⟨rfl, checks_early h ho hearly⟩
  | cons now late =>
    have hlate : config.cooldownDuration ≤ now - opened := by
      have hne : due config opened times ≠ [] := by simp [hdue]
      have hhead := List.head_dropWhile_not
        (fun now => decide (now - opened < config.cooldownDuration)) hne
      have hnow : (due config opened times).head hne = now := by simp [hdue]
      simp only [due] at hnow
      rw [hnow] at hhead
      simpa using hhead
    refine .inr ⟨_, now, late, (hdue ▸ hsplit).symm, rfl, hlate, ?_⟩
    have hallow : b.shouldAllow config now = (b.halfOpened, true) := by
      simp [shouldAllow, h, ho, hlate, halfOpened]
    -- The check that finds the cooldown over half-opens the breaker; the rest see it half-open.
    have hfirst := checks_early h ho hearly
    have hlast : checks config b.halfOpened late = _ := checks_halfOpened
    unfold checks at hfirst hlast
    have hrest : Mealy.run (fun b now => b.shouldAllow config now) b (now :: late) =
        (b.halfOpened, true :: late.map fun _ => decide (1 < config.halfOpenMaxAttempts)) := by
      rw [Mealy.run_cons, hallow, hlast]
    conv_lhs => rw [checks, ← hsplit, hdue, Mealy.run_append, hfirst, hrest]

/-- A refused task leaves the breaker as it is. -/
theorem shouldAllow_of_refused {now : ℕ} (h : (b.shouldAllow config now).2 = false) :
    (b.shouldAllow config now).1 = b := by
  unfold shouldAllow at h ⊢
  split
  · rfl
  · rename_i hopen
    simp only [hopen] at h
    cases ho : b.openedAt with
    | none => simp [ho] at h
    | some opened =>
      simp only [ho] at h ⊢
      split_ifs at h ⊢
      · rfl
  · rfl

/-! #### Records -/

/-- Whatever comes of a task, the breaker is settled afterwards. -/
theorem Settled.record (h : Settled config b ∨ b.state = .halfOpen) (p : Bool × ℕ) :
    Settled config (b.record config p) := by
  obtain ⟨failed, now⟩ := p
  cases hstate : b.state with
  | closed =>
    have h := h.resolve_right (by simp [hstate])
    obtain ⟨ho, ha, hf⟩ := h.closed hstate
    cases failed with
    | false =>
      simp only [CircuitBreakerState.record, markHalfOpenAttempt, recordSuccess, hstate,
        reduceCtorEq, if_false, Bool.false_eq_true]
      exact settled_new config
    | true =>
      simp only [CircuitBreakerState.record, markHalfOpenAttempt, recordFailure, hstate,
        reduceCtorEq, if_false, if_true]
      split_ifs with hthreshold
      · exact ⟨.inr rfl, fun _ => rfl, fun hclosed => by cases hclosed⟩
      · refine ⟨.inl rfl, (fun hopen => by cases hopen), fun _ => ⟨ho, ha, ?_⟩⟩
        simp only
        omega
  | «open» =>
    have h := h.resolve_right (by simp [hstate])
    have ho := h.opened hstate
    cases failed with
    | false =>
      simp only [CircuitBreakerState.record, markHalfOpenAttempt, recordSuccess, hstate,
        reduceCtorEq, if_false, if_true, Bool.false_eq_true]
      exact h
    | true =>
      simp only [CircuitBreakerState.record, markHalfOpenAttempt, recordFailure, hstate,
        reduceCtorEq, if_false, if_true]
      exact ⟨.inr rfl, fun _ => ho, fun hclosed => by cases hclosed⟩
  | halfOpen =>
    cases failed with
    | false =>
      simp only [CircuitBreakerState.record, markHalfOpenAttempt, recordSuccess, hstate,
        reduceCtorEq, if_false, if_true, Bool.false_eq_true]
      exact settled_new config
    | true =>
      simp only [CircuitBreakerState.record, markHalfOpenAttempt, recordFailure, hstate, if_true]
      exact ⟨.inr rfl, fun _ => rfl, fun hclosed => by cases hclosed⟩

/-- **What recording leaves behind**: a settled breaker, unless a half open one hears of no task. -/
theorem Settled.records {ps : List (Bool × ℕ)}
    (h : Settled config b ∨ b.state = .halfOpen ∧ ps ≠ []) :
    Settled config (b.records config ps) := by
  cases ps with
  | nil => exact h.resolve_right fun h => h.2 rfl
  | cons p ps =>
    rw [CircuitBreakerState.records, List.foldl_cons]
    exact ExceptFold.foldl_invariant (f := CircuitBreakerState.record config)
      (I := Settled config) (fun b q _ hb => Settled.record (.inl hb) q)
      (Settled.record (h.imp_right And.left) p)

end CircuitBreakerState

/-! ### The breakers of the loop -/

namespace PregelLoop

variable {S σ : Type} [State S]

/-- A pending task, with its reading of the clock, asks the breaker of its node.  A node without a
policy has none. -/
def allow (configs : Dict CircuitBreakerConfig) (time : ℕ → ℕ) (node : String)
    (b : Option CircuitBreakerState) (p : PendingTask S × ℕ) : Option CircuitBreakerState × Bool :=
  match configs.lookup node, b with
  | some config, some b =>
    (some (b.shouldAllow config (time p.2)).1, (b.shouldAllow config (time p.2)).2)
  | _, b => (b, true)

/-- The breakers and the answers after a list of tasks, as a family of machines. -/
def admitAll (configs : Dict CircuitBreakerConfig) (time : ℕ → ℕ)
    (states : String → Option CircuitBreakerState) (ps : List (PendingTask S × ℕ)) :
    (String → Option CircuitBreakerState) × List Bool :=
  Mealy.runAll (fun p => p.1.nodeName) (allow configs time) states ps

/-- The breakers by node. -/
def breakers (states : Dict CircuitBreakerState) (node : String) : Option CircuitBreakerState :=
  states.lookup node

theorem breakers_insert (states : Dict CircuitBreakerState) (node : String)
    (b : CircuitBreakerState) :
    breakers (states.insert node b) = Function.update (breakers states) node (some b) := by
  funext node'
  by_cases h : node' = node
  · subst h
    rw [Function.update_self]
    exact AList.lookup_insert states
  · rw [Function.update_of_ne h]
    exact AList.lookup_insert_ne h

/-- One check is one step of the machine of the task's node; a refused task is noted. -/
theorem checkBreaker_eq (configs : Dict CircuitBreakerConfig) (time : ℕ → ℕ)
    (acc : Dict CircuitBreakerState × List (TaskOutput S)) (p : PendingTask S × ℕ) :
    breakers (checkBreaker configs (time p.2) acc p.1).1 =
        Function.update (breakers acc.1) p.1.nodeName
          (allow configs time p.1.nodeName (breakers acc.1 p.1.nodeName) p).1 ∧
      (checkBreaker configs (time p.2) acc p.1).2.map TaskOutput.taskId =
        acc.2.map TaskOutput.taskId ++
          if (allow configs time p.1.nodeName (breakers acc.1 p.1.nodeName) p).2 then []
          else [p.1.id] := by
  unfold breakers
  cases hc : configs.lookup p.1.nodeName with
  | none => simp [checkBreaker, allow, hc]
  | some config =>
    cases hb : acc.1.lookup p.1.nodeName with
    | none =>
      simp only [checkBreaker, allow, hc, hb, if_true, List.append_nil, and_true]
      rw [← hb]
      exact (Function.update_eq_self p.1.nodeName (breakers acc.1)).symm
    | some b =>
      simp only [checkBreaker, allow, hc, hb]
      refine ⟨breakers_insert acc.1 p.1.nodeName _, ?_⟩
      cases (b.shouldAllow config (time p.2)).2 with
      | true => simp
      | false => simp [blockedOutput]

/-- **The checks of a superstep are a family of machines.** -/
theorem foldl_checkBreaker (configs : Dict CircuitBreakerConfig) (time : ℕ → ℕ)
    (ps : List (PendingTask S × ℕ)) :
    ∀ acc : Dict CircuitBreakerState × List (TaskOutput S),
      breakers (ps.foldl (fun acc p => checkBreaker configs (time p.2) acc p.1) acc).1 =
          (admitAll configs time (breakers acc.1) ps).1 ∧
        (ps.foldl (fun acc p => checkBreaker configs (time p.2) acc p.1) acc).2.map
            TaskOutput.taskId =
          acc.2.map TaskOutput.taskId ++
            ((ps.zip (admitAll configs time (breakers acc.1) ps).2).filter fun z => !z.2).map
              fun z => z.1.1.id := by
  induction ps with
  | nil => exact fun acc => ⟨rfl, by simp⟩
  | cons p ps ih =>
    intro acc
    obtain ⟨hstates, hids⟩ := ih (checkBreaker configs (time p.2) acc p.1)
    obtain ⟨hstate, hid⟩ := checkBreaker_eq configs time acc p
    rw [hstate] at hstates hids
    refine ⟨hstates, ?_⟩
    rw [List.foldl_cons, hids, hid, List.append_assoc]
    congr 1
    simp only [admitAll, Mealy.runAll, List.zip_cons_cons, List.filter_cons]
    cases (allow configs time p.1.nodeName (breakers acc.1 p.1.nodeName) p).2 with
    | true => simp
    | false => simp

/-- The times at which the tasks of the node are checked. -/
def checkTimes (l : PregelLoop S σ) (node : String) : List ℕ :=
  ((l.pendingTasks.map PendingTask.nodeName).zipIdx.filter fun p => p.1 = node).map
    fun p => l.reading p.2

/-- The pending tasks of the node. -/
def tasksOf (l : PregelLoop S σ) (node : String) : List (PendingTask S) :=
  l.pendingTasks.filter fun t => t.nodeName = node

variable {l k : PregelLoop S σ} {node : String} {config : CircuitBreakerConfig}
  {b : CircuitBreakerState}

theorem checkTimes_eq (l : PregelLoop S σ) (node : String) :
    l.checkTimes node =
      (l.pendingTasks.zipIdx.filter fun p => p.1.nodeName = node).map fun p => l.reading p.2 := by
  unfold checkTimes
  rw [List.zipIdx_map, List.filter_map, List.map_map]
  rfl

omit [State S] in
/-- The machine of a node with a policy is its breaker. -/
theorem run_allow (configs : Dict CircuitBreakerConfig) (time : ℕ → ℕ)
    (hc : configs.lookup node = some config) (b : CircuitBreakerState)
    (ps : List (PendingTask S × ℕ)) :
    Mealy.run (allow configs time node) (some b) ps =
      (some (b.checks config (ps.map fun p => time p.2)).1,
        (b.checks config (ps.map fun p => time p.2)).2) := by
  refine Mealy.run_hom (fun b now => CircuitBreakerState.shouldAllow b config now) _ some
    (fun p => time p.2) (fun b p => ?_) ps b
  simp [allow, hc]

/-- The early return of `check_circuit_breakers` is a shortcut. -/
theorem checkCircuitBreakers_fold (l : PregelLoop S σ) :
    l.checkCircuitBreakers.1 =
      let acc := l.pendingTasks.zipIdx.foldl
        (fun acc p => checkBreaker l.circuitBreakerConfigs (l.reading p.2) acc p.1)
        (l.circuitBreakerStates, [])
      { l with
        circuitBreakerStates := acc.1
        pendingTasks := l.pendingTasks.filter
          fun t => !(acc.2.map TaskOutput.taskId).contains t.id } := by
  unfold checkCircuitBreakers
  split_ifs with hempty
  · have hnone : l.circuitBreakerConfigs = ∅ := AList.ext (List.isEmpty_iff.1 hempty)
    have hfold : ∀ (ps : List (PendingTask S × ℕ))
        (acc : Dict CircuitBreakerState × List (TaskOutput S)),
        ps.foldl (fun acc p => checkBreaker ∅ (l.reading p.2) acc p.1) acc = acc := by
      intro ps
      induction ps with
      | nil => exact fun acc => rfl
      | cons p ps ih => exact fun acc => ih acc
    simp only [hnone, hfold, List.map_nil, List.contains_nil, Bool.not_false, List.filter_true]
    rw [← hnone]
  · rfl

/-- The loop after its breakers have been asked: the breakers are those of the family, and the tasks
left are those that were admitted. -/
theorem checkCircuitBreakers_eq (hids : (l.pendingTasks.map PendingTask.id).Nodup) :
    breakers l.checkCircuitBreakers.1.circuitBreakerStates =
        (admitAll l.circuitBreakerConfigs l.reading (breakers l.circuitBreakerStates)
          l.pendingTasks.zipIdx).1 ∧
      l.checkCircuitBreakers.1.pendingTasks =
        ((l.pendingTasks.zipIdx.zip (admitAll l.circuitBreakerConfigs l.reading
          (breakers l.circuitBreakerStates) l.pendingTasks.zipIdx).2).filter Prod.snd).map
            fun z => z.1.1 := by
  obtain ⟨hstates, hblocked⟩ := foldl_checkBreaker l.circuitBreakerConfigs l.reading
    l.pendingTasks.zipIdx (l.circuitBreakerStates, [])
  rw [checkCircuitBreakers_fold]
  refine ⟨hstates, ?_⟩
  dsimp only
  rw [hblocked]
  set answers := (admitAll l.circuitBreakerConfigs l.reading (breakers l.circuitBreakerStates)
    l.pendingTasks.zipIdx).2 with hanswers
  have hlen : l.pendingTasks.zipIdx.length = answers.length := (Mealy.length_runAll _ _ _ _).symm
  have hpending : (l.pendingTasks.zipIdx.zip answers).map (fun z => z.1.1) = l.pendingTasks := by
    have hfst : (l.pendingTasks.zipIdx.zip answers).map Prod.fst = l.pendingTasks.zipIdx :=
      List.map_fst_zip (by omega)
    rw [show (fun z : (PendingTask S × ℕ) × Bool => z.1.1) = Prod.fst ∘ Prod.fst from rfl,
      ← List.map_map, hfst, List.zipIdx_map_fst]
  -- With different identifiers, a task is left out by identifier exactly when it is refused.
  have hsame : ∀ z ∈ l.pendingTasks.zipIdx.zip answers, ∀ z' ∈ l.pendingTasks.zipIdx.zip answers,
      z.1.1.id = z'.1.1.id → z = z' := by
    have hnodup : ((l.pendingTasks.zipIdx.zip answers).map fun z => z.1.1.id).Nodup := by
      have hmap : ((l.pendingTasks.zipIdx.zip answers).map fun z => z.1.1).map PendingTask.id =
          (l.pendingTasks.zipIdx.zip answers).map fun z => z.1.1.id := List.map_map
      rw [hpending] at hmap
      exact hmap ▸ hids
    exact fun z hz z' hz' => List.inj_on_of_nodup_map hnodup hz hz'
  have hfilter : ∀ q : PendingTask S → Bool, l.pendingTasks.filter q =
      ((l.pendingTasks.zipIdx.zip answers).filter fun z => q z.1.1).map fun z => z.1.1 := by
    intro q
    conv_lhs => rw [← hpending, List.filter_map]
    rfl
  rw [hfilter]
  refine congrArg _ (List.filter_congr fun z hz => ?_)
  simp only [List.map_nil, List.nil_append]
  cases hz2 : z.2 with
  | false =>
    simp only [Bool.not_eq_false', List.contains_iff_mem, List.mem_map, List.mem_filter]
    exact ⟨z, ⟨hz, by simp [hz2]⟩, rfl⟩
  | true =>
    simp only [Bool.not_eq_true', List.contains_eq_mem, decide_eq_false_iff_not, List.mem_map,
      List.mem_filter, not_exists, not_and]
    rintro z' ⟨hz', hrefused⟩ hid
    rw [hsame z' hz' z hz hid, hz2] at hrefused
    simp at hrefused

/-- **The checks of a superstep, seen from one node.**  Its breaker has been asked at the times at
which its tasks were checked, and as many of them are left as it has allowed. -/
theorem checkCircuitBreakers_spec (hids : (l.pendingTasks.map PendingTask.id).Nodup)
    (hc : l.circuitBreakerConfigs.lookup node = some config)
    (hb : l.circuitBreakerStates.lookup node = some b) :
    l.checkCircuitBreakers.1.circuitBreakerStates.lookup node =
        some (b.checks config (l.checkTimes node)).1 ∧
      (l.checkCircuitBreakers.1.tasksOf node).length =
        (b.checks config (l.checkTimes node)).2.count true := by
  obtain ⟨hstates, hpending⟩ := checkCircuitBreakers_eq hids
  have hb' : breakers l.circuitBreakerStates node = some b := hb
  have hrun := run_allow l.circuitBreakerConfigs l.reading hc b
    (l.pendingTasks.zipIdx.filter fun p => p.1.nodeName = node)
  rw [← checkTimes_eq] at hrun
  constructor
  · have hnode := Mealy.runAll_state (fun p : PendingTask S × ℕ => p.1.nodeName)
      (allow l.circuitBreakerConfigs l.reading) node l.pendingTasks.zipIdx
      (breakers l.circuitBreakerStates)
    rw [hb', hrun] at hnode
    exact (congrFun hstates node).trans hnode
  · have hnode := Mealy.filter_zip_runAll (fun p : PendingTask S × ℕ => p.1.nodeName)
      (allow l.circuitBreakerConfigs l.reading) node l.pendingTasks.zipIdx
      (breakers l.circuitBreakerStates)
    rw [hb', hrun] at hnode
    have hcount := Mealy.length_accepted (allow l.circuitBreakerConfigs l.reading node)
      (some b) (l.pendingTasks.zipIdx.filter fun p => p.1.nodeName = node)
    rw [Mealy.accepted, hrun, List.length_map] at hcount
    unfold tasksOf
    rw [hpending, List.filter_map, List.length_map, List.filter_filter, ← hcount, ← hnode,
      List.filter_filter]
    refine congrArg _ (List.filter_congr fun z _ => ?_)
    simp [Bool.and_comm]

/-- The breaker of the node is told what came of a task. -/
def tell (configs : Dict CircuitBreakerConfig) (time : ℕ → ℕ) (node : String)
    (b : Option CircuitBreakerState) (p : TaskOutput S × ℕ) : Option CircuitBreakerState × Unit :=
  match configs.lookup node, b with
  | some config, some b => (some (b.record config (p.1.error.isSome, time p.2)), ())
  | _, b => (b, ())

theorem recordBreaker_eq (configs : Dict CircuitBreakerConfig) (time : ℕ → ℕ)
    (states : Dict CircuitBreakerState) (p : TaskOutput S × ℕ) :
    breakers (recordBreaker configs (time p.2) states p.1) =
      Function.update (breakers states) p.1.nodeName
        (tell configs time p.1.nodeName (breakers states p.1.nodeName) p).1 := by
  unfold breakers
  cases hc : configs.lookup p.1.nodeName with
  | none => simp [recordBreaker, tell, hc]
  | some config =>
    cases hb : states.lookup p.1.nodeName with
    | none =>
      simp only [recordBreaker, tell, hc, hb]
      rw [← hb]
      exact (Function.update_eq_self p.1.nodeName (breakers states)).symm
    | some b =>
      simp only [recordBreaker, tell, hc, hb]
      exact breakers_insert states p.1.nodeName _

theorem foldl_recordBreaker (configs : Dict CircuitBreakerConfig) (time : ℕ → ℕ)
    (ps : List (TaskOutput S × ℕ)) : ∀ states : Dict CircuitBreakerState,
      breakers (ps.foldl (fun states p => recordBreaker configs (time p.2) states p.1) states) =
        (Mealy.runAll (fun p => p.1.nodeName) (tell configs time) (breakers states) ps).1 := by
  induction ps with
  | nil => exact fun states => rfl
  | cons p ps ih =>
    intro states
    rw [List.foldl_cons, ih, recordBreaker_eq]
    rfl

/-- What the breaker of the node is told: which of its tasks failed, and when it hears of it. -/
def recordings (l : PregelLoop S σ) (outputs : List (TaskOutput S)) (node : String) :
    List (Bool × ℕ) :=
  (outputs.zipIdx.filter fun p => p.1.nodeName = node).map
    fun p => (p.1.error.isSome, l.reading p.2)

theorem length_recordings (l : PregelLoop S σ) (outputs : List (TaskOutput S)) (node : String) :
    (l.recordings outputs node).length = (outputs.map TaskOutput.nodeName).count node := by
  unfold recordings
  have hfst : outputs.map TaskOutput.nodeName =
      outputs.zipIdx.map fun p => p.1.nodeName := by
    conv_lhs => rw [← List.zipIdx_map_fst 0 outputs, List.map_map]
    rfl
  rw [List.length_map, hfst, List.count_eq_countP, List.countP_map, ← List.countP_eq_length_filter]
  exact List.countP_congr (by simp)

/-- **The recording of a superstep, seen from one node.** -/
theorem recordCircuitBreakerResults_spec (outputs : List (TaskOutput S))
    (hc : l.circuitBreakerConfigs.lookup node = some config)
    (hb : l.circuitBreakerStates.lookup node = some b) :
    (l.recordCircuitBreakerResults outputs).circuitBreakerStates.lookup node =
      some (b.records config (l.recordings outputs node)) := by
  have hb' : breakers l.circuitBreakerStates node = some b := hb
  have hfold := congrFun (foldl_recordBreaker l.circuitBreakerConfigs l.reading outputs.zipIdx
    l.circuitBreakerStates) node
  have hnode := Mealy.runAll_state (fun p : TaskOutput S × ℕ => p.1.nodeName)
    (tell l.circuitBreakerConfigs l.reading) node outputs.zipIdx
    (breakers l.circuitBreakerStates)
  have hrun := Mealy.run_hom (fun b q => (CircuitBreakerState.record config b q, ()))
    (tell l.circuitBreakerConfigs l.reading node) some
    (fun p : TaskOutput S × ℕ => (p.1.error.isSome, l.reading p.2)) (fun b p => by simp [tell, hc])
    (outputs.zipIdx.filter fun p => p.1.nodeName = node) b
  rw [hb', hrun] at hnode
  refine (hfold.trans hnode).trans (congrArg some ?_)
  exact Mealy.run_state

end PregelLoop

end Juncture
