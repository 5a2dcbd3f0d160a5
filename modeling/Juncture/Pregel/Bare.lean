import Juncture.Pregel.Frames
import Juncture.Pregel.InlinePath

/-!
# Loops without circuit breakers and fallbacks

Some entry points set up circuit breakers and fallbacks, others do not.  `bare` takes them away from
a loop.  The loop then does the same as long as no breaker blocks a task, no node with a fallback
fails, and no node is spawned only because it has a fallback.

* `runSpawned_bare` : the tasks of one superstep.
* `turn_bare`, `head_bare` : one turn of the driver, and a run of it.
-/

namespace Juncture

variable {S σ : Type} [State S]

/-! ### The tasks of a superstep -/

/-- The same without fallbacks. -/
def RunnerEnv.bare (env : RunnerEnv S σ) : RunnerEnv S σ := { env with fallbackMap := ∅ }

/-- The same without fallbacks. -/
def SpawnEnv.bare (env : SpawnEnv S σ) : SpawnEnv S σ := { env with fallbackMap := ∅ }

theorem RunnerEnv.recovers_bare {env : RunnerEnv S σ} {nodeName : String}
    (h : env.fallbackMap.containsKey nodeName = false) :
    env.bare.recovers nodeName = env.recovers nodeName := by
  have hempty : (∅ : Dict String).containsKey nodeName = false := rfl
  simp only [recovers, bare, h, hempty]

theorem spawnTasks_bare (env : RunnerEnv S σ) (state : S) (tasks : List (PendingTask S)) :
    spawnTasks env.bare state tasks = spawnTasks env state tasks := by
  induction tasks with
  | nil => rfl
  | cons task tasks ih =>
    simp only [spawnTasks, ih]
    rfl

namespace Superstep

variable {env : SpawnEnv S σ} {e e' : Superstep S σ}

/-- The collector has joined no failed task whose node has a fallback. -/
def NoFallback (env : SpawnEnv S σ) (e : Superstep S σ) : Prop :=
  ∀ i err task, (i, .error err) ∈ e.completed.take e.joined → env.tasks[i]? = some task →
    env.fallbackMap.containsKey task.nodeName = false

variable [InterruptHash]

theorem Move.joined_subset (hm : Move env e e') :
    e.completed.take e.joined ⊆ e'.completed.take e'.joined := by
  have happend : ∀ cs : List (Completion S), e.completed.take e.joined ⊆
      (e.completed ++ cs).take e.joined := by
    intro cs
    rw [List.take_append]
    exact List.subset_append_left _ _
  cases hm with
  | cut i p err => exact happend _
  | done i r => exact happend _
  | join i r task =>
    obtain ⟨_, _, _, _, _, heq⟩ := collect_eq env { e with joined := e.joined + 1 } task r
    rw [heq]
    exact List.take_subset_take_left _ (Nat.le_succ _)
  | _ => exact fun c hc => hc

theorem NoFallback.of_step {c : Choice} (h : NoFallback env (e.step env c)) : NoFallback env e := by
  rcases step_move env e c with heq | ⟨-, hm⟩ | ⟨-, -, heq⟩
  · rwa [heq] at h
  · exact fun i err task hi => h i err task (hm.joined_subset hi)
  · rw [heq] at h
    exact h

omit [InterruptHash] in
/-- The collector looks at the fallbacks of the nodes that fail only. -/
theorem joinNext_bare (h : NoFallback env (e.joinNext env)) :
    e.joinNext env.bare = e.joinNext env := by
  cases hs : e.spawnError with
  | some err => rw [joinNext_of_spawnError hs, joinNext_of_spawnError hs]
  | none =>
    cases hc : e.completed[e.joined]? with
    | none => simp only [joinNext, hs, hc]
    | some c =>
      obtain ⟨i, r⟩ := c
      cases ht : env.tasks[i]? with
      | none =>
        have ht' : env.bare.tasks[i]? = none := ht
        simp only [joinNext, hs, hc, ht, ht']
      | some task =>
        have ht' : env.bare.tasks[i]? = some task := ht
        rw [joinNext_of_completed hs hc ht] at h ⊢
        rw [joinNext_of_completed hs hc ht']
        cases r with
        | ok command => rfl
        | error err =>
          -- The failure has been joined now.
          have hmem : (i, .error err) ∈ e.completed.take (e.joined + 1) := by
            rw [List.take_add_one, hc]
            exact List.mem_append_right _ List.mem_cons_self
          obtain ⟨_, _, _, _, _, heq⟩ :=
            collect_eq env { e with joined := e.joined + 1 } task (.error err)
          rw [heq] at h
          have hrec : env.bare.recovers task.nodeName = env.recovers task.nodeName :=
            RunnerEnv.recovers_bare (h i err task hmem ht)
          simp only [collect, hrec]
          rfl

theorem agrees_step (env : SpawnEnv S σ) (c : Choice) :
    Machine.Agrees (NoFallback env) (fun e => e.step env c) fun e => e.step env.bare c := by
  intro e he
  refine ⟨he.of_step, ?_⟩
  cases c with
  | join =>
    simp only [step] at he ⊢
    split_ifs at he ⊢
    · rfl
    · exact joinNext_bare he
  | _ => rfl

/-! ### Letting the superstep end -/

theorem agrees_driveTask (env : SpawnEnv S σ) (i : ℕ) (p : NodeProg S) :
    Machine.Agrees (NoFallback env) (driveTask env i p) (driveTask env.bare i p) := by
  induction p with
  | done r => exact agrees_step env (.step i)
  | readLocals k ih => exact (ih env.locals).comp (agrees_step env (.step i))
  | backoff error k ih => exact ih.comp (agrees_step env (.step i))
  | interrupt payload id k ih =>
    intro e he
    have hbare : getResumeValue env.bare.resumeValues e.currentIndex =
        getResumeValue env.resumeValues e.currentIndex := rfl
    simp only [driveTask, hbare] at he ⊢
    cases hv : getResumeValue env.resumeValues e.currentIndex with
    | some value =>
      simp only [hv] at he ⊢
      exact (ih (.ok value)).comp (agrees_step env (.step i)) e he
    | none =>
      simp only [hv] at he ⊢
      exact (ih _).comp ((agrees_step env (.step i)).comp (agrees_step env (.step i))) e he

theorem agrees_leaveNode (env : SpawnEnv S σ) (i : ℕ) :
    Machine.Agrees (NoFallback env) (fun e => e.leaveNode env i) fun e => e.leaveNode env.bare i := by
  intro e he
  simp only [leaveNode] at he ⊢
  cases hp : e.phase i with
  | running p =>
    simp only [hp] at he ⊢
    split_ifs at he ⊢
    · exact agrees_step env (.abort i) e he
    · exact agrees_driveTask env i p e he
  | _ =>
    simp only [hp] at he ⊢
    exact ⟨he, trivial⟩

theorem agrees_finishTask (env : SpawnEnv S σ) (i : ℕ) :
    Machine.Agrees (NoFallback env) (fun e => e.finishTask env i)
      fun e => e.finishTask env.bare i := by
  intro e he
  have hstep := (agrees_leaveNode env i).comp (agrees_step env (.step i))
  simp only [finishTask] at he ⊢
  cases hp : e.phase i with
  | waiting p =>
    simp only [hp] at he ⊢
    exact hstep e he
  | sending signal p =>
    simp only [hp] at he ⊢
    exact hstep e he
  | _ =>
    simp only [hp] at he ⊢
    exact agrees_leaveNode env i e he

theorem agrees_joinAll (env : SpawnEnv S σ) :
    Machine.Agrees (NoFallback env) (joinAll env) (joinAll env.bare) := fun e he =>
  (agrees_step env .join).iterate (e.completed.length - e.joined) e he

theorem agrees_settleTask (env : SpawnEnv S σ) (i : ℕ) :
    Machine.Agrees (NoFallback env) (fun e => e.settleTask env i)
      fun e => e.settleTask env.bare i :=
  (agrees_joinAll env).comp (agrees_finishTask env i)

theorem agrees_settleActive (env : SpawnEnv S σ) (i : ℕ) :
    Machine.Agrees (NoFallback env) (fun e => e.settleActive env i)
      fun e => e.settleActive env.bare i := by
  intro e he
  simp only [settleActive] at he ⊢
  split_ifs at he ⊢
  · exact agrees_settleTask env i e he
  · exact ⟨he, rfl⟩

theorem agrees_drain (env : SpawnEnv S σ) :
    Machine.Agrees (NoFallback env) (drain env) (drain env.bare) :=
  ((Machine.Agrees.foldl (agrees_settleTask env) _).comp
    (Machine.Agrees.foldl (agrees_settleActive env) _)).comp
      ((agrees_joinAll env).comp (agrees_step env .join))

omit [InterruptHash] in
theorem init_bare (env : SpawnEnv S σ) (state : S) (store : σ) (nextUuid : Uuid)
    (cancelled : Bool) :
    init env.bare state store nextUuid cancelled = init env state store nextUuid cancelled := by
  have hspawn : spawnTasks env.bare.toRunnerEnv state env.bare.tasks =
      spawnTasks env.toRunnerEnv state env.tasks := spawnTasks_bare env.toRunnerEnv state env.tasks
  simp only [init, hspawn]

/-- **Fallbacks do not matter to a superstep** in which no node that has one fails. -/
theorem runSpawned_bare {state : S} {store : σ} {nextUuid : Uuid} {cancelled : Bool}
    {schedule : List Choice}
    (h : NoFallback env (runSpawned env state store nextUuid cancelled schedule)) :
    runSpawned env.bare state store nextUuid cancelled schedule =
      runSpawned env state store nextUuid cancelled schedule := by
  have hrun := (agrees_drain env).comp (Machine.Agrees.foldl (agrees_step env) schedule)
  unfold runSpawned
  rw [init_bare]
  exact (hrun _ h).2

end Superstep

/-! ### A task that runs alone -/

section Alone

variable [InterruptHash] {env : RunnerEnv S σ} {state : S} {task : PendingTask S} {store : σ}
  {schedule : List Choice} {rv : List (Option Json)} {p : NodeProg S} {command : Command S}

open Superstep in
/-- A plain task that makes no call and succeeds, whether spawned or not. -/
theorem executeSpawned_eq_executeInline (nextUuid : Uuid)
    (hplain : env.needsSpawn task.nodeName = false) (hp : env.nodeCall state task = .ok p)
    (hcancel : .cancel ∉ schedule) (hinline : p.runInline = .ok command)
    (hsolo : p.solo env.locals rv 0 = (.ok command, 0)) {store' : σ}
    (hput : persistWrites env (successOutput task command) store = (store', .ok ())) :
    executeSpawned (spawnOne env task rv) state store nextUuid false schedule =
      executeInline env state task store nextUuid false := by
  have hone := oneTask_runSpawned rv store nextUuid false hplain hp hcancel
  have hresult : oneResult (spawnOne env task rv) false p = .ok command := congrArg Prod.fst hsolo
  have hcalls : oneCalls (spawnOne env task rv) false p = 0 := congrArg Prod.snd hsolo
  have hw := wellFormed_runSpawned (spawnOne env task rv) state store nextUuid false schedule
  obtain ⟨hjoined, hindex, hres⟩ := hone.ends hw runSpawned_ends
  obtain ⟨-, hdelivered, hsignals⟩ :=
    executeSpawned_one rv store nextUuid false hplain hp hcancel
  have hcollected : Collected (spawnOne env task rv) (store, nextUuid)
    (runSpawned (spawnOne env task rv) state store nextUuid false schedule) := collected_runSpawned
  have hinlined : executeInline env state task store nextUuid false =
      { result := .ok { taskOutputs := [successOutput task command] }, store := store', nextUuid,
        cancelled := false } := by
    simp [executeInline, hp, hinline, settleInline, hput]
  have hsettle : (settleInline env task store nextUuid (.ok command)).result =
      .ok { taskOutputs := [successOutput task command] } := by
    simp [settleInline, hput]
  rw [hresult] at hres
  have hres := hres.trans hsettle
  unfold executeSpawned at hdelivered hsignals ⊢
  generalize runSpawned (spawnOne env task rv) state store nextUuid false schedule = e at *
  have hf : e.failure = none := by
    cases hf : e.failure with
    | none => rfl
    | some err => simp [outcome, hf] at hres
  -- The store and the next identifier are those of the only completion.
  have hcompleted : e.completed = [(0, .ok command)] := by
    rcases hone.returned with ⟨hnil, -⟩ | ⟨hcomp, -⟩
    · have hle := hw.joined
      rw [hjoined, hnil] at hle
      exact absurd hle (by simp)
    · rw [hcomp, hresult]
  have hstore : store' = e.store ∧ nextUuid = e.nextUuid := by
    obtain ⟨-, hall, -⟩ := hcollected.well hf
    rw [hjoined, hcompleted] at hall
    simpa [SpawnEnv.persistAll, SpawnEnv.persist, spawnOne, hput] using hall
  have houtputs : e.outputs = [successOutput task command] := by
    simpa [outcome, hf] using hres
  have hnocalls : e.calls = [] := by
    rw [hone.alone.calls, hindex, hcalls]
    rfl
  have hnosignals : e.signals = [] := by
    have hnone := hsignals.2 (.inr fun k hk => by rw [hcalls] at hk; cases hk)
    simpa [outcome, hf] using hnone
  have htoken : e.cancelled = false := hone.token hf
  rw [hinlined, hstore.1, hstore.2]
  simp only [outcome, hf, houtputs, hnocalls, hnosignals, htoken, delivered, List.filterMap_nil,
    Option.isSome_none, Bool.false_eq_true, if_false]

end Alone

/-! ### The phases of a turn -/

namespace PregelLoop

/-- The loop without circuit breakers and fallbacks. -/
def bare (l : PregelLoop S σ) : PregelLoop S σ :=
  { l with circuitBreakerConfigs := ∅, circuitBreakerStates := ∅, fallbackMap := ∅ }

/-- The same for what an operation leaves behind. -/
def bareFst {α : Type} (r : PregelLoop S σ × α) : PregelLoop S σ × α := (r.1.bare, r.2)

variable {l l' : PregelLoop S σ}

theorem andThen_bare {α β : Type} {r : PregelLoop S σ × Except JunctureError α}
    {f f' : PregelLoop S σ → α → PregelLoop S σ × Except JunctureError β}
    (h : ∀ l a, r = (l, .ok a) → f' l.bare a = bareFst (f l a)) :
    andThen (bareFst r) f' = bareFst (andThen r f) := by
  obtain ⟨l, e | a⟩ := r
  · rfl
  · exact h l a rfl

theorem outside_bare (l : PregelLoop S σ) (round : Round S) :
    l.bare.outside round = (l.outside round).bare := by
  have hwrites : ∀ (is : List ℕ) (k : PregelLoop S σ),
      is.foldl completeWrite k.bare = (is.foldl completeWrite k).bare := by
    intro is
    induction is with
    | nil => exact fun k => rfl
    | cons i is ih =>
      intro k
      have hstep : k.bare.completeWrite i = (k.completeWrite i).bare := by
        obtain ⟨⟩ := k
        simp only [completeWrite, bare]
        split <;> rfl
      rw [List.foldl_cons, List.foldl_cons, hstep, ih]
  unfold outside
  rw [hwrites]
  rfl

theorem finishAllChannels_bare (l : PregelLoop S σ) :
    l.bare.finishAllChannels = l.finishAllChannels.bare := by
  unfold finishAllChannels
  show (if l.channelsFinished then _ else _) = _
  split_ifs <;> rfl

theorem tick_bare [InterruptHash] (l : PregelLoop S σ) : l.bare.tick = bareFst l.tick := by
  have hlimit : (l.bare.runnableConfig.recursionLimit ≤ l.bare.step) =
      (l.runnableConfig.recursionLimit ≤ l.step) := rfl
  have hcancel : l.bare.cancelled = l.cancelled := rfl
  have hbudget : l.bare.budgetExceeded = l.budgetExceeded := rfl
  have hpending : l.bare.pendingTasks = l.pendingTasks := rfl
  have hint : l.bare.interruptBefore = l.interruptBefore := rfl
  simp only [tick, hlimit, hcancel, hbudget, hpending, hint]
  split_ifs
  · exact Prod.ext (finishAllChannels_bare { l with status := .outOfSteps }) rfl
  · exact Prod.ext (finishAllChannels_bare { l with status := .cancelled }) rfl
  · split
    · exact Prod.ext (finishAllChannels_bare { l with status := .budgetExceeded }) rfl
    · rw [finishAllChannels_bare]
      rfl
  · split
    · exact Prod.ext (finishAllChannels_bare { l with status := .budgetExceeded }) rfl
    · split
      · exact Prod.ext (finishAllChannels_bare (l.seeVersions.raise _ _)) rfl
      · rfl

/-- When no breaker blocks a task, the tasks are prepared in the same way. -/
theorem prepare_bare (h : ∀ k blocked, l.prepare = (k, .ok blocked) → blocked = []) :
    l.bare.prepare = bareFst l.prepare := by
  have hpending : l.bare.pendingTasks = l.pendingTasks := rfl
  unfold prepare at h ⊢
  rw [hpending]
  rcases hres : resolveStateJson l.pendingTasks with ⟨tasks, e | ⟨⟩⟩
  · rfl
  simp only [hres] at h ⊢
  have hblocked := h _ _ rfl
  have hbare : { l.bare with pendingTasks := tasks }.checkCircuitBreakers =
      ({ l.bare with pendingTasks := tasks }, []) := rfl
  rw [hbare]
  unfold checkCircuitBreakers at hblocked ⊢
  split_ifs at hblocked ⊢
  · rfl
  · -- Nothing is blocked, so nothing is taken out.
    dsimp only at hblocked ⊢
    rw [hblocked]
    simp [bareFst, bare]

section Runner

variable [InterruptHash] {round : Round S}

/-- Run alone, the task does the same inline: the run is not cancelled meanwhile, its node is
registered, makes no `interrupt!()` call, does not notice that the task-local scopes are missing and
succeeds, and its writes are persisted. -/
def RunsInline (l : PregelLoop S σ) (round : Round S) (task : PendingTask S) : Prop :=
  l.cancelled = false ∧ .cancel ∉ round.schedule ∧
    ∃ p command store, l.runnerEnv.nodeCall l.state task = .ok p ∧
      p.runInline = .ok command ∧
      p.solo l.runnerEnv.locals l.resumeValues 0 = (.ok command, 0) ∧
      persistWrites l.runnerEnv (successOutput task command) l.store = (store, .ok ())

/-- The superstep that the loop is about to run does not depend on fallbacks: it makes no difference
that a node which has one is spawned, and the node does not fail. -/
structure Unaffected (l : PregelLoop S σ) (round : Round S) : Prop where
  /-- The only task has no fallback, or another reason to be spawned, or it does the same inline. -/
  alone : ∀ task, l.pendingTasks = [task] → l.fallbackMap.containsKey task.nodeName = true →
    l.runnerEnv.bare.needsSpawn task.nodeName = true ∨ l.RunsInline round task
  /-- No task with a fallback fails. -/
  succeeds : inlineTask l.runnerEnv l.pendingTasks = none →
    Superstep.NoFallback l.spawnEnv (l.spawned round)

omit [InterruptHash] in
/-- A task that runs inline runs inline without fallbacks, too. -/
theorem inlineTask_bare_of_inline {task : PendingTask S}
    (h : inlineTask l.runnerEnv l.pendingTasks = some task) :
    inlineTask l.bare.runnerEnv l.bare.pendingTasks = some task := by
  obtain ⟨htasks, hneeds⟩ := inlineTask_eq_some_iff.1 h
  refine inlineTask_eq_some_iff.2 ⟨htasks, ?_⟩
  simp only [RunnerEnv.needsSpawn, RunnerEnv.recovers, Bool.or_eq_false_iff] at hneeds ⊢
  exact ⟨⟨⟨hneeds.1.1.1, rfl⟩, hneeds.1.2⟩, hneeds.2⟩

theorem runTasks_bare (h : l.Unaffected round) : l.bare.runTasks round = l.runTasks round := by
  by_cases hne : l.pendingTasks = []
  · have hne' : l.bare.pendingTasks = [] := hne
    rw [runTasks_of_nil round hne, runTasks_of_nil round hne']
    rfl
  cases htask : inlineTask l.runnerEnv l.pendingTasks with
  | some task =>
    rw [runTasks_of_inline round htask, runTasks_of_inline round (inlineTask_bare_of_inline htask)]
    rfl
  | none =>
    have hspawned : Superstep.outcome l.resumeValues (runSpawned l.spawnEnv.bare l.state l.store
        l.nextUuid l.cancelled round.schedule) = (l.spawned round).outcome l.resumeValues :=
      congrArg _ (Superstep.runSpawned_bare (h.succeeds htask))
    rw [runTasks_of_spawned round hne htask]
    cases htask' : inlineTask l.bare.runnerEnv l.bare.pendingTasks with
    | none =>
      have hne' : l.bare.pendingTasks ≠ [] := hne
      rw [runTasks_of_spawned round hne' htask']
      exact hspawned
    | some task =>
      -- The task is spawned for its fallback only.
      obtain ⟨htasks, hplain⟩ := inlineTask_eq_some_iff.1 htask'
      have htasks : l.pendingTasks = [task] := htasks
      have hfallback : l.fallbackMap.containsKey task.nodeName = true := by
        cases hfb : l.fallbackMap.containsKey task.nodeName with
        | true => rfl
        | false =>
          have hrec : l.runnerEnv.bare.needsSpawn task.nodeName =
              l.runnerEnv.needsSpawn task.nodeName := by
            have hrec := RunnerEnv.recovers_bare (show l.runnerEnv.fallbackMap.containsKey
              task.nodeName = false from hfb)
            simp only [RunnerEnv.needsSpawn, hrec]
            rfl
          have hsome := inlineTask_eq_some_iff.2 ⟨htasks, hrec.symm.trans hplain⟩
          rw [htask] at hsome
          cases hsome
      obtain hneeds | ⟨hc, hcancel, p, command, store, hp, hinline, hsolo, hput⟩ :=
        h.alone task htasks hfallback
      · exact absurd (hneeds.symm.trans hplain) (by simp)
      · have hone := executeSpawned_eq_executeInline l.nextUuid hplain hp hcancel hinline hsolo hput
        have henv : l.spawnEnv.bare = spawnOne l.bare.runnerEnv task l.resumeValues := by
          unfold spawnEnv SpawnEnv.bare
          rw [htasks]
          rfl
        have hc' : l.bare.cancelled = false := hc
        rw [runTasks_of_inline round htask', ← hspawned, henv, hc, hc']
        exact hone.symm

/-- No output of such a superstep is a failure of a node with a fallback. -/
theorem Unaffected.outputs (h : l.Unaffected round) {result : SuperstepResult S}
    (hr : (l.runTasks round).result = .ok result) :
    ∀ o ∈ result.taskOutputs, o.error.isSome = true →
      l.fallbackMap.containsKey o.nodeName = false := by
  intro o ho herr
  by_cases hne : l.pendingTasks = []
  · rw [runTasks_of_nil round hne] at hr
    cases hr
    cases ho
  cases htask : inlineTask l.runnerEnv l.pendingTasks with
  | some task =>
    rw [runTasks_of_inline round htask] at hr
    obtain ⟨-, command, -, -, rfl, -⟩ := executeInline_eq_ok hr
    obtain rfl := List.mem_singleton.1 ho
    cases herr
  | none =>
    rw [runTasks_of_spawned round hne htask] at hr
    obtain ⟨hf, rfl⟩ := Superstep.outcome_eq_ok_iff.1 hr
    obtain ⟨⟨i, r⟩, hc, task, ht, hout⟩ :=
      exists_completion (Superstep.outputs_runSpawned hf) ho
    cases r with
    | ok command =>
      have hout : o = successOutput task command := hout
      subst hout
      cases herr
    | error err =>
      obtain ⟨id, rfl⟩ := hout
      have hjoined : (i, .error err) ∈
          (l.spawned round).completed.take (l.spawned round).joined := by
        rw [show (l.spawned round).joined = (l.spawned round).completed.length from
          (Superstep.runSpawned_ends hf).1.allJoined, List.take_length]
        exact hc
      exact h.succeeds htask i err task hjoined ht

omit [InterruptHash] in
theorem recordCircuitBreakerResults_bare (l : PregelLoop S σ) (outputs : List (TaskOutput S)) :
    l.bare.recordCircuitBreakerResults outputs = (l.recordCircuitBreakerResults outputs).bare := by
  have hfold : ∀ (os : List (TaskOutput S × ℕ)) (states : Dict CircuitBreakerState),
      os.foldl (fun states p => recordBreaker ∅ (l.bare.reading p.2) states p.1) states =
        states := by
    intro os
    induction os with
    | nil => exact fun states => rfl
    | cons o os ih => exact fun states => ih states
  have hnone : l.bare.circuitBreakerConfigs = ∅ := rfl
  unfold recordCircuitBreakerResults
  rw [hnone, hfold]
  rfl

theorem runPrepared_bare (h : l.Unaffected round) :
    l.bare.runPrepared round [] = bareFst (l.runPrepared round []) := by
  unfold runPrepared
  rw [runTasks_bare h]
  dsimp only
  split
  · rfl
  · rename_i result _
    have hrec := recordCircuitBreakerResults_bare
      ((l.absorb (l.runTasks round)).report round).markInterruptsProcessed result.taskOutputs
    exact Prod.ext (congrArg (fun k : PregelLoop S σ =>
      { k with interruptRx := some (l.runTasks round).signals }) hrec) rfl

end Runner

/-! ### After the superstep -/

theorem mergeWrites_bare (l : PregelLoop S σ) (outputs : List (TaskOutput S)) :
    l.bare.mergeWrites outputs = bareFst (l.mergeWrites outputs) := by
  have happly : applyWrites l.bare.state (executedOutputs outputs) l.bare.fieldVersions
      l.bare.nodeRegistration =
      applyWrites l.state (executedOutputs outputs) l.fieldVersions l.nodeRegistration := rfl
  have hmax : l.bare.maxStateSizeBytes = l.maxStateSizeBytes := rfl
  unfold mergeWrites
  rw [happly]
  rcases applyWrites l.state (executedOutputs outputs) l.fieldVersions l.nodeRegistration with
    ⟨state, versions, e | changed⟩
  · rfl
  · have hsize : { l.bare with state, fieldVersions := versions }.checkStateSizeLimit changed =
        { l with state, fieldVersions := versions }.checkStateSizeLimit changed := rfl
    dsimp only
    rw [hsize, hmax]
    -- The snapshot restores the states of the breakers as they are.
    cases { l with state, fieldVersions := versions }.checkStateSizeLimit changed with
    | ok u => rfl
    | error e => cases l.maxStateSizeBytes <;> rfl

theorem scheduleFallbackTasks_eq (base : ℕ) {outputs : List (TaskOutput S)}
    {nodes : Dict (Node S)} {fallbackMap : Dict String}
    (h : ∀ o ∈ outputs, o.error.isSome = true → fallbackMap.containsKey o.nodeName = false) :
    scheduleFallbackTasks base outputs nodes fallbackMap = {} := by
  unfold scheduleFallbackTasks
  induction outputs with
  | nil => rfl
  | cons o os ih =>
    have hnone : fallbackFor nodes fallbackMap [] o = none := by
      unfold fallbackFor
      split_ifs with hskip
      · rfl
      · have herr : o.error.isSome = true := by
          cases herr : o.error with
          | none => simp [herr] at hskip
          | some e => rfl
        have hno : fallbackMap.lookup o.nodeName = none := by
          simpa [Dict.containsKey] using h o List.mem_cons_self herr
        rw [hno]
        rfl
    have hstep : fallbackStep base nodes fallbackMap {} o = {} := by
      unfold fallbackStep
      rw [hnone]
    rw [List.foldl_cons, hstep]
    exact ih fun o' ho' => h o' (List.mem_cons_of_mem o ho')

/-- The next tasks depend on the fallbacks of the nodes that failed only. -/
theorem scheduleTasks_bare {outputs : List (TaskOutput S)}
    (h : ∀ o ∈ outputs, o.error.isSome = true →
      l.fallbackMap.containsKey o.nodeName = false) :
    l.bare.scheduleTasks outputs = bareFst (l.scheduleTasks outputs) := by
  have hexec : ∀ o ∈ executedOutputs outputs, o.error.isSome = true →
      l.fallbackMap.containsKey o.nodeName = false := by
    intro o ho herr
    obtain ⟨o', ho', rfl⟩ := List.mem_map.1 ho
    exact h o' (List.mem_filter.1 ho').1 (by simpa [TaskOutput.clone] using herr)
  have hnext : scheduleNext l.bare.scheduleEnv l.bare.nextUuid (executedOutputs outputs)
      l.bare.state l.bare.persistedWrites.2 =
      scheduleNext l.scheduleEnv l.nextUuid (executedOutputs outputs) l.state
        l.persistedWrites.2 := by
    unfold scheduleNext
    dsimp only [scheduleEnv, bare]
    rw [show persistedWrites { l with
      circuitBreakerConfigs := ∅, circuitBreakerStates := ∅, fallbackMap := ∅ } =
        l.persistedWrites from rfl]
    cases computeNextTasks l.nextUuid (executedOutputs outputs) l.triggerTable l.triggerToNodes
      l.nodes l.state with
    | error e => rfl
    | ok routed =>
      dsimp only
      rw [scheduleFallbackTasks_eq _ hexec, scheduleFallbackTasks_eq _ fun _ _ _ => rfl]
  unfold scheduleTasks
  rw [hnext]
  split <;> rfl

theorem putCheckpoint_bare (l : PregelLoop S σ) (cp : CheckpointSaver σ) (c : Checkpoint)
    (m : CheckpointMetadata) : l.bare.putCheckpoint cp c m = bareFst (l.putCheckpoint cp c m) := by
  have hput : cp.put l.bare.store l.bare.runnableConfig c m =
      cp.put l.store l.runnableConfig c m := rfl
  unfold putCheckpoint
  rw [hput]
  split <;> rfl

theorem writeCheckpoint_bare (l : PregelLoop S σ) (cp : CheckpointSaver σ) (c : Checkpoint)
    (m : CheckpointMetadata) :
    l.bare.writeCheckpoint cp c m = bareFst (l.writeCheckpoint cp c m) := by
  have hdur : l.bare.effectiveDurability = l.effectiveDurability := rfl
  unfold writeCheckpoint
  rw [hdur, putCheckpoint_bare]
  split
  · rfl
  · exact andThen_bare fun k _ _ => rfl
  · exact andThen_bare fun k _ _ => rfl

theorem saveInterruptCheckpoint_bare (l : PregelLoop S σ) :
    l.bare.saveInterruptCheckpoint = bareFst l.saveInterruptCheckpoint := by
  have hcp : l.bare.checkpointer = l.checkpointer := rfl
  have hstate : l.bare.state = l.state := rfl
  unfold saveInterruptCheckpoint
  rw [hcp, hstate]
  split
  · exact writeCheckpoint_bare l _ _ _
  · rfl

theorem saveSuperstepCheckpoint_bare (l : PregelLoop S σ) :
    l.bare.saveSuperstepCheckpoint = bareFst l.saveSuperstepCheckpoint := by
  have hskip : (l.bare.effectiveDurability = .exit ∨ l.bare.shouldTakeFullSnapshot = false) =
      (l.effectiveDurability = .exit ∨ l.shouldTakeFullSnapshot = false) := rfl
  have hcp : l.bare.checkpointer = l.checkpointer := rfl
  have hstate : l.bare.state = l.state := rfl
  simp only [saveSuperstepCheckpoint, hskip, hcp, hstate]
  split_ifs
  · rfl
  · split
    · exact writeCheckpoint_bare l _ _ _
    · rfl

theorem saveExitCheckpoint_bare (l : PregelLoop S σ) :
    l.bare.saveExitCheckpoint = l.saveExitCheckpoint.bare := by
  have hcp : l.bare.checkpointer = l.checkpointer := rfl
  have hstate : l.bare.state = l.state := rfl
  unfold saveExitCheckpoint
  rw [hcp, hstate]
  split
  · exact congrArg Prod.fst (putCheckpoint_bare l _ _ _)
  · rfl

theorem handleBubbleUps_bare (l : PregelLoop S σ) (bubbleUps : List (BubbleUp S)) :
    l.bare.handleBubbleUps bubbleUps = bareFst (l.handleBubbleUps bubbleUps) := by
  have hstep : ∀ (acc : PregelLoop S σ × Bool) (u : BubbleUp S),
      handleBubbleUp (bareFst acc) u = bareFst (handleBubbleUp acc u) := by
    intro acc u
    cases u with
    | interrupt i => rfl
    | drained d => rfl
    | parentCommand c =>
      refine Prod.ext ?_ rfl
      show acc.1.bare.handleParentCommand c = (acc.1.handleParentCommand c).bare
      have hstate : acc.1.bare.state = acc.1.state := rfl
      unfold handleParentCommand
      split
      · rfl
      · rw [hstate]
        split <;> rfl
  have hfold : ∀ (us : List (BubbleUp S)) (acc : PregelLoop S σ × Bool),
      us.foldl handleBubbleUp (bareFst acc) = bareFst (us.foldl handleBubbleUp acc) := by
    intro us
    induction us with
    | nil => exact fun acc => rfl
    | cons u us ih =>
      intro acc
      rw [List.foldl_cons, hstep, ih, List.foldl_cons]
  exact hfold bubbleUps (l, false)

theorem stop_bare (l : PregelLoop S σ) : l.bare.stop = bareFst l.stop := by
  have hstatus : l.bare.status = l.status := rfl
  unfold stop
  rw [hstatus, saveInterruptCheckpoint_bare]
  split_ifs
  · exact andThen_bare fun k _ _ => Prod.ext (finishAllChannels_bare k) rfl
  · exact Prod.ext (finishAllChannels_bare l) rfl

theorem countStep_bare (l : PregelLoop S σ) : l.bare.countStep = l.countStep.bare := by
  have hpending : l.bare.pendingTasks = l.pendingTasks := rfl
  have hdur : l.bare.effectiveDurability = l.effectiveDurability := rfl
  unfold countStep
  rw [hpending, hdur, finishAllChannels_bare, saveExitCheckpoint_bare]
  split_ifs <;> rfl

variable [InterruptHash]

theorem finishTick_bare (l : PregelLoop S σ) (bubbleUps : List (BubbleUp S)) :
    l.bare.finishTick bubbleUps = bareFst (l.finishTick bubbleUps) := by
  have hrx : l.bare.interruptRx = l.interruptRx := rfl
  have hreports : { l.bare with interruptRx := none }.handleBubbleUps bubbleUps =
      bareFst ({ l with interruptRx := none }.handleBubbleUps bubbleUps) :=
    handleBubbleUps_bare { l with interruptRx := none } bubbleUps
  unfold finishTick
  dsimp only
  rw [hrx, hreports]
  generalize { l with interruptRx := none }.handleBubbleUps bubbleUps = r
  obtain ⟨k, stopped⟩ := r
  by_cases hsig : (l.interruptRx.getD []).isEmpty = true
  · rw [if_pos hsig, if_pos hsig]
    cases stopped with
    | true => exact stop_bare k
    | false =>
      have hafter : k.bare.interruptAfter = k.interruptAfter := rfl
      simp only [bareFst, Bool.false_eq_true, if_false]
      rw [hafter, countStep_bare]
      split
      · exact stop_bare (k.seeVersions.raise _ _)
      · rfl
  · rw [if_neg hsig, if_neg hsig]
    exact stop_bare ({ l with interruptRx := none }.raise (l.interruptRx.getD [])
      (.interruptAfter (l.interruptRx.getD [])))

/-- **What follows a superstep** in which no node with a fallback failed. -/
theorem afterTick_bare {result : SuperstepResult S}
    (h : ∀ o ∈ result.taskOutputs, o.error.isSome = true →
      l.fallbackMap.containsKey o.nodeName = false) :
    l.bare.afterTick result = bareFst (l.afterTick result) := by
  have hversions : l.bare.fieldVersions = l.fieldVersions := rfl
  unfold afterTick
  rw [hversions, mergeWrites_bare]
  refine andThen_bare fun k changed hk => ?_
  have hmap : k.fallbackMap = l.fallbackMap := by
    obtain ⟨-, s, -, -, rfl⟩ := mergeWrites_eq_ok_iff.1 hk
    rfl
  have hnone : ∀ o ∈ result.taskOutputs, o.error.isSome = true →
      (k.commitWrites l.fieldVersions.versions changed
        result.taskOutputs).fallbackMap.containsKey o.nodeName = false := by
    intro o ho herr
    rw [← h o ho herr, ← hmap]
    rfl
  have hschedule := scheduleTasks_bare hnone
  show andThen ((k.commitWrites _ changed result.taskOutputs).bare.scheduleTasks _) _ = _
  rw [hschedule]
  refine andThen_bare fun k' _ _ => ?_
  show andThen ({ k' with previousSuperstepChangedFields := changed }.bare.saveSuperstepCheckpoint)
    _ = _
  rw [saveSuperstepCheckpoint_bare]
  exact andThen_bare fun k'' _ _ => finishTick_bare k'' _

/-! ### Turns and runs -/

/-- Neither circuit breakers nor fallbacks play a part in the superstep of the round. -/
structure Untouched (l : PregelLoop S σ) (round : Round S) : Prop where
  /-- No breaker is open. -/
  allowed : ∀ k blocked, (l.outside round).prepare = (k, .ok blocked) → blocked = []
  /-- No fallback matters. -/
  unaffected : ∀ k blocked, (l.outside round).prepare = (k, .ok blocked) → k.Unaffected round

variable {t : PregelLoop S σ} {round : Round S}

/-- A loop that has no breakers and no fallbacks is not touched by them. -/
theorem untouched_of_none (hbreakers : t.circuitBreakerConfigs = ∅)
    (hfallbacks : t.fallbackMap = ∅) : t.Untouched round := by
  have houtside := (t.ran_outside round).fixed
  refine ⟨fun k blocked hk => ?_, fun k blocked hk => ⟨fun task _ hhas => ?_, ?_⟩⟩
  · have hnone := houtside.circuitBreakerConfigs.trans hbreakers
    unfold prepare at hk
    split at hk
    · cases hk
    · rename_i tasks _
      have hcheck : { t.outside round with pendingTasks := tasks }.checkCircuitBreakers =
          ({ t.outside round with pendingTasks := tasks }, []) := by
        unfold checkCircuitBreakers
        dsimp only
        rw [hnone]
        rfl
      rw [hcheck] at hk
      cases hk
      rfl
  all_goals
    have hmap : k.fallbackMap = ∅ := by
      have hprepare := (t.outside round).ran_prepare.fixed.fallbackMap
      rw [hk] at hprepare
      exact hprepare.trans (houtside.fallbackMap.trans hfallbacks)
  · rw [hmap] at hhas
    cases hhas
  · intro _ i err task _ _
    show k.fallbackMap.containsKey task.nodeName = false
    rw [hmap]
    rfl

theorem executeSuperstep_bare (h : t.Untouched round) :
    (t.outside round).bare.executeSuperstep round =
      bareFst ((t.outside round).executeSuperstep round) := by
  unfold executeSuperstep
  rw [prepare_bare h.allowed]
  refine andThen_bare fun k blocked hk => ?_
  rw [h.allowed k blocked hk]
  exact runPrepared_bare (h.unaffected k blocked hk)

/-- No output of the superstep is a failure of a node with a fallback. -/
theorem Untouched.outputs (h : t.Untouched round) {result : SuperstepResult S}
    (hr : (t.outside round).executeSuperstep round = (l, .ok result)) :
    ∀ o ∈ result.taskOutputs, o.error.isSome = true →
      l.fallbackMap.containsKey o.nodeName = false := by
  obtain ⟨k, blocked, hk, hrun⟩ := andThen_eq_ok_iff.1 hr
  have hmap : l.fallbackMap = k.fallbackMap := by
    have hran := k.ran_runPrepared round blocked
    rw [hrun] at hran
    exact hran.fixed.fallbackMap
  unfold runPrepared at hrun
  dsimp only at hrun
  split at hrun
  · cases hrun
  · rename_i r hok
    cases hrun
    rw [h.allowed k blocked hk, List.append_nil, hmap]
    exact (h.unaffected k blocked hk).outputs hok

theorem superstep_bare (h : (t.outside round).GoesOn → t.Untouched round) :
    t.bare.superstep round = (t.superstep round).map bareFst := by
  unfold superstep
  rw [outside_bare, tick_bare]
  rcases htick : (t.outside round).tick with ⟨k, e | b⟩
  · rfl
  cases b with
  | false => rfl
  | true =>
    obtain ⟨hgo, rfl⟩ := eq_of_tick htick
    have hexec := executeSuperstep_bare (h hgo)
    dsimp only [bareFst] at hexec ⊢
    rw [hexec]
    rcases (t.outside round).executeSuperstep round with ⟨k, e | result⟩
    · rfl
    · rfl

/-- **A turn without breakers and fallbacks.** -/
theorem turn_bare (h : (t.outside round).GoesOn → t.Untouched round) :
    t.bare.turn round = (t.turn round).map bare := by
  unfold turn
  rw [superstep_bare h]
  cases hs : t.superstep round with
  | none => rfl
  | some p =>
    obtain ⟨l₁, result⟩ := p
    obtain ⟨hgo, r, hexec, rfl⟩ := superstep_eq_some_iff.1 hs
    have hafter : l₁.bare.afterTick { r with bubbleUps := r.bubbleUps ++ round.bubbleUps } =
        bareFst (l₁.afterTick { r with bubbleUps := r.bubbleUps ++ round.bubbleUps }) :=
      afterTick_bare fun o ho => (h hgo).outputs hexec o ho
    dsimp only [bareFst, Option.map_some, Option.bind_some] at hafter ⊢
    rw [hafter]
    rcases l₁.afterTick { r with bubbleUps := r.bubbleUps ++ round.bubbleUps } with ⟨k, e | ⟨⟩⟩
    · rfl
    · rfl

/-- **A run without breakers and fallbacks**, as long as they play no part. -/
theorem head_bare {l₀ : PregelLoop S σ} {rounds : ℕ → Round S}
    (h : ∀ n t, l₀.head rounds n = some t → (t.outside (rounds n)).GoesOn →
      t.Untouched (rounds n)) (n : ℕ) :
    l₀.bare.head rounds n = (l₀.head rounds n).map bare := by
  induction n with
  | zero => rfl
  | succ n ih =>
    show (l₀.bare.head rounds n).bind _ = ((l₀.head rounds n).bind _).map bare
    rw [ih]
    cases ht : l₀.head rounds n with
    | none => rfl
    | some t => exact turn_bare (h n t ht)

end PregelLoop

/-! ### Nothing to recover from -/

section Schedule

variable {S : Type} [State S]

/-- When nothing has failed and no handler is registered, what comes next is what the outputs route
to. -/
theorem scheduleNext_of_succeeded {env : ScheduleEnv S} {base : ℕ} {outputs : List (TaskOutput S)}
    {state : S} {persisted : List PendingWrite} (hhandlers : env.errorHandlerMap = ∅)
    (h : ∀ o ∈ outputs, o.error = none) :
    scheduleNext env base outputs state persisted =
      computeNextTasks base outputs env.table env.triggerToNodes env.nodes state := by
  have hnone : ∀ n, env.errorHandlerMap.lookup n = none := fun n => by rw [hhandlers]; rfl
  have hfallback : ∀ base, scheduleFallbackTasks base outputs env.nodes env.fallbackMap = {} :=
    fun base => PregelLoop.scheduleFallbackTasks_eq base fun o ho herr => by
      rw [h o ho] at herr
      cases herr
  have hfiltered : ∀ base handled, scheduleErrorHandlersFiltered base outputs env.nodes
      env.errorHandlerMap handled = ([] : List (PendingTask S)) := by
    intro base handled
    have hnil : outputs.filterMap (handlerFor env.nodes env.errorHandlerMap handled) = [] := by
      refine List.filterMap_eq_nil_iff.2 fun o ho => ?_
      rw [handlerFor, h o ho]
      simp
    rw [scheduleErrorHandlersFiltered, hnil]
    rfl
  have hwrites : markerTargets env outputs persisted = ∅ := by
    refine Set.eq_empty_iff_forall_notMem.2 fun n hn => ?_
    obtain ⟨m, -, -, hm, -⟩ := hn
    rw [hnone] at hm
    cases hm
  rw [scheduleNext_of_markerTargets hwrites]
  unfold scheduleNext
  cases computeNextTasks base outputs env.table env.triggerToNodes env.nodes state with
  | error e => rfl
  | ok routed =>
    simp only [hfallback, hfiltered]
    show Except.ok (routed ++ [] ++ [] ++ []) = _
    simp only [List.append_nil]

end Schedule

end Juncture
