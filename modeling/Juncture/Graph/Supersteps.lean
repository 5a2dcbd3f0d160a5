import Juncture.Graph.StopReports
import Juncture.Pregel.Anonymous
import Juncture.Pregel.Bare
import Juncture.Pregel.CompletionOrder

/-!
# Graphs as bulk-synchronous programs

A superstep calls its nodes on one state, merges what they return, and looks for the nodes of the next
superstep.  When nothing around the graph interferes, that is all there is to a run.

* `superstep` : what a superstep comes to, its tasks completing in a given order.
* `InStep.turn` : the loop does no more than that.
-/

namespace Juncture

variable {S σ : Type} [State S]

/-! ### A superstep -/

/-- What the supersteps of a graph work on. -/
structure FlowStore (S : Type) where
  /-- The state. -/
  state : S
  /-- The fields that the superstep before has changed. -/
  changed : FieldsChanged := .none

/-- The state with the updates of the outputs. -/
def merged (nodeRegistration : Dict ℕ) (state : S) (outputs : List (TaskOutput S)) :
    Except JunctureError (S × FieldsChanged) :=
  match checkReplaceConflicts outputs with
  | .error e => .error e
  | .ok () =>
    match applyUpdates state .none (mergedUpdates nodeRegistration outputs) with
    | (state, .ok changed) => .ok (state, changed)
    | (_, .error e) => .error e

/-- The size limit, for a state of which some fields have changed. -/
def sizeCheck (config : RunnableConfig) (state : S) (changed : FieldsChanged) :
    Except JunctureError Unit :=
  match config.resourceLimits.bind ResourceLimits.maxStateSizeBytes with
  | none => .ok ()
  | some maxBytes =>
    if changed.isEmpty then .ok ()
    else match State.toValue state with
      | .error e => .error (.execution s!"State serialization failed for size check: {e}")
      | .ok value =>
        if maxBytes < value.byteLen then .error (.execution
          s!"State size limit exceeded: {value.byteLen} bytes > {maxBytes} bytes limit")
        else .ok ()

/-- The state between two supersteps: what the superstep before the last has changed is consumed. -/
def settle (before : FieldsChanged) (state : S) : S :=
  State.resetEphemeral
    (((List.range (State.fieldCount S)).filter before.hasField).foldl State.consumeField state)

/-- The state when there is nothing left to run. -/
def finishFields (state : S) : S :=
  (State.replaceAfterFinishFieldIndices S).foldl State.finishField state

/-- The task-local scopes that a configuration gives to the tasks of a superstep. -/
def RunnableConfig.locals (config : RunnableConfig) : TaskLocals where
  previous := some config.previous
  taskCachePolicy := some config.taskCachePolicy
  llmCachePolicy := some config.llmCachePolicy

namespace CompiledGraph

variable (g : CompiledGraph S σ) (config : RunnableConfig)

/-- What a node returns.  One that runs alone has no task-local scopes. -/
def returns (alone : Bool) (state : S) (node : String) : Except JunctureError (Command S) :=
  match g.nodes.lookup node with
  | none => .error (.execution s!"Node '{node}' not found")
  | some n =>
    if alone then (n.call state config).runInline
    else ((n.call state config).solo config.locals [] 0).1

/-- The outputs of nodes that complete in the given order. -/
def outputs (order : List String) (state : S) : Except JunctureError (List (TaskOutput S)) :=
  order.mapM fun node =>
    (g.returns config (order.length == 1) state node).map (successOutput (.pull 0 node))

/-- The output of a node that runs alone. -/
theorem outputs_singleton {g : CompiledGraph S σ} {config : RunnableConfig} {node : String} {state : S} :
    g.outputs config [node] state = (g.returns config true state node).map fun command =>
      [successOutput (.pull 0 node) command] := by
  unfold outputs
  rw [List.mapM_cons, List.mapM_nil]
  show (do
    let o ← (g.returns config true state node).map (successOutput (.pull 0 node))
    pure [o]) = _
  cases g.returns config true state node <;> rfl

/-- Where control goes from the outputs. -/
def targets (outputs : List (TaskOutput S)) (state : S) : Except JunctureError (List String) :=
  (computeNextTasks 0 outputs g.triggerTable (.fromTriggerTable g.triggerTable) g.nodes state).map
    (List.map PendingTask.nodeName)

/-- What the outputs of a superstep write, if that does not make the state too large. -/
def write (state : S) (outputs : List (TaskOutput S)) : Except JunctureError (S × FieldsChanged) := do
  let (state, changed) ← merged (.ofList g.nodes.keys.zipIdx) state outputs
  sizeCheck config state changed
  pure (state, changed)

/-- What the outputs of a superstep lead to. -/
def conclude (store : FlowStore S) (outputs : List (TaskOutput S)) :
    Except JunctureError (FlowStore S × List String) := do
  let (state, changed) ← g.write config store.state outputs
  let next ← g.targets outputs (settle store.changed state)
  pure (⟨settle store.changed state, changed⟩, next)

/-- A superstep of nodes that complete in the given order. -/
def superstep (order : List String) (store : FlowStore S) :
    Except JunctureError (FlowStore S × List String) := do
  let outputs ← g.outputs config order store.state
  g.conclude config store outputs

/-- The nodes of a superstep do not send, and those that run beside each other do not interrupt and
are not cancelled. -/
structure Orderly (round : Round S) (names : List String) (state : S) : Prop where
  /-- A node that runs alone may do anything else. -/
  beside : names.length = 1 ∨ .cancel ∉ round.schedule ∧
    ∀ node ∈ names, ∀ n, g.nodes.lookup node = some n → (n.call state config).Mute
  /-- No node sends. -/
  sends : ∀ node ∈ names, ∀ command, g.returns config (names.length == 1) state node = .ok command →
    ∀ targets, command.goto ≠ .send targets

end CompiledGraph

/-! ### The loop of a call -/

/-- The loop runs the graph, and nothing around it interferes. -/
structure Serves (g : CompiledGraph S σ) (config : RunnableConfig) (l : PregelLoop S σ) : Prop where
  nodes : l.nodes = g.nodes
  registration : l.nodeRegistration = .ofList g.nodes.keys.zipIdx
  table : l.triggerTable = g.triggerTable
  triggers : l.triggerToNodes = .fromTriggerTable g.triggerTable
  handlers : l.errorHandlerMap = ∅
  fallbacks : l.fallbackMap = ∅
  retries : l.retryPolicies = ∅
  timeouts : l.timeoutPolicies = ∅
  breakers : l.circuitBreakerConfigs = ∅
  checkpointer : l.checkpointer = none
  config : l.runnableConfig = config
  budget : l.budgetTracker = none
  cancelled : l.cancelled = false

/-- What of a loop counts for that. -/
def PregelLoop.frame (l : PregelLoop S σ) :=
  ((l.nodes, l.nodeRegistration, l.triggerTable, l.triggerToNodes, l.errorHandlerMap, l.fallbackMap,
      l.retryPolicies),
    (l.timeoutPolicies, l.circuitBreakerConfigs, l.checkpointer, l.runnableConfig, l.budgetTracker,
      l.cancelled))

/-- After `n` supersteps the loop is where its program is. -/
structure InStep (g : CompiledGraph S σ) (config : RunnableConfig) (runId : Uuid) (n : ℕ)
    (names : List String) (store : FlowStore S) (l : PregelLoop S σ) : Prop extends
    Serves g config l where
  step : l.step = n
  pending : l.pendingTasks.map PendingTask.anon = names.map (.pull 0)
  changed : l.previousSuperstepChangedFields = store.changed
  state : l.state = if names.isEmpty then finishFields store.state else store.state
  finished : l.channelsFinished = names.isEmpty
  runId : l.runId = runId

/-- What happens around a superstep neither cancels the run nor reports anything. -/
structure Round.Calm (round : Round S) : Prop where
  cancel : round.cancel = false
  bubbleUps : round.bubbleUps = []

/-- The writes of a superstep, as far as they show. -/
theorem applyWrites_merged (state : S) (outputs : List (TaskOutput S))
    (fieldVersions : FieldVersionTracker) (nodeRegistration : Dict ℕ) :
    match merged nodeRegistration state outputs with
    | .error e => ∃ state' fieldVersions', applyWrites state outputs fieldVersions nodeRegistration =
        (state', fieldVersions', .error e)
    | .ok (state', changed) => ∃ fieldVersions', applyWrites state outputs fieldVersions
        nodeRegistration = (state', fieldVersions', .ok changed) := by
  unfold merged applyWrites
  cases checkReplaceConflicts outputs with
  | error e => exact ⟨_, _, rfl⟩
  | ok _ =>
    dsimp only
    rcases applyUpdates state .none (mergedUpdates nodeRegistration outputs) with
      ⟨state', e | changed⟩
    · exact ⟨_, _, rfl⟩
    · exact ⟨_, rfl⟩

/-- Outputs of tasks that have succeeded. -/
def Succeeded (os : List (TaskOutput S)) : Prop :=
  ∀ o ∈ os, o.circuitBlocked = false ∧ o.error = none

/-- All of them are executed. -/
theorem Succeeded.executedOutputs {os : List (TaskOutput S)} (h : Succeeded os) :
    executedOutputs os = os := by
  have hfilter : (os.filter fun o => !o.circuitBlocked) = os :=
    List.filter_eq_self.2 fun o ho => by rw [(h o ho).1]; rfl
  unfold Juncture.executedOutputs
  rw [hfilter]
  refine (List.map_congr_left fun o ho => ?_).trans (List.map_id os)
  rw [TaskOutput.clone, (h o ho).2]
  show { o with error := none } = o
  rw [← (h o ho).2]

/-- The runner hands on the outputs of the program, or its error. -/
def RunnerOutcome.Gives (outcome : RunnerOutcome S σ) :
    Except JunctureError (List (TaskOutput S)) → Prop
  | .error e => outcome.result = .error e
  | .ok os => ∃ os', outcome.result = .ok { taskOutputs := os' } ∧ os'.map TaskOutput.anon = os ∧
      Succeeded os' ∧ outcome.signals = [] ∧ outcome.cancelled = false

/-- Outputs and what they are up to identifiers. -/
theorem sameOutputs_of_map_anon {os os' : List (TaskOutput S)} (h : os'.map TaskOutput.anon = os) :
    SameOutputs os' os := by
  subst h
  unfold SameOutputs
  rw [List.map_map]
  rfl

namespace Serves

variable {g : CompiledGraph S σ} {config : RunnableConfig} {l : PregelLoop S σ}
  {names : List String}

theorem congr {k : PregelLoop S σ} (h : Serves g config l) (hk : k.frame = l.frame) :
    Serves g config k := by
  simp only [PregelLoop.frame, Prod.mk.injEq] at hk
  obtain ⟨⟨hn, hreg, ht, hr, hh, hf, hp⟩, hto, hb, hc, hcfg, hbu, hca⟩ := hk
  exact ⟨hn.trans h.nodes, hreg.trans h.registration, ht.trans h.table, hr.trans h.triggers,
    hh.trans h.handlers, hf.trans h.fallbacks, hp.trans h.retries, hto.trans h.timeouts,
    hb.trans h.breakers, hc.trans h.checkpointer, hcfg.trans h.config, hbu.trans h.budget,
    hca.trans h.cancelled⟩

theorem outside {round : Round S} (h : Serves g config l) (hround : round.Calm) :
    Serves g config (l.outside round) := by
  obtain ⟨_, _, heq⟩ := l.outside_eq round
  refine h.congr ?_
  rw [heq]
  simp only [PregelLoop.frame, hround.cancel, Bool.or_false]

/-- No failure is recovered from. -/
theorem recovers (h : Serves g config l) (node : String) : l.runnerEnv.recovers node = false := by
  unfold RunnerEnv.recovers PregelLoop.runnerEnv
  rw [h.handlers, h.fallbacks]
  rfl

/-- No node needs a task of its own. -/
theorem needsSpawn (h : Serves g config l) (node : String) :
    l.runnerEnv.needsSpawn node = false := by
  unfold RunnerEnv.needsSpawn
  rw [h.recovers]
  unfold PregelLoop.runnerEnv
  rw [h.retries, h.timeouts]
  rfl

/-- The task of a node calls the node. -/
theorem taskProg (h : Serves g config l) {task : PendingTask S} (ht : task.Plain) (state : S) :
    l.runnerEnv.taskProg state task = l.runnerEnv.nodeCall state task ∧
    l.runnerEnv.nodeCall state task = match g.nodes.lookup task.nodeName with
      | none => .error (.execution s!"Node '{task.nodeName}' not found")
      | some n => .ok (n.call state config) := by
  obtain ⟨-, hstate, -⟩ := ht.fields
  constructor
  · unfold RunnerEnv.taskProg
    rw [show l.runnerEnv.retryPolicies.lookup task.nodeName = none by
      rw [show l.runnerEnv.retryPolicies = ∅ from h.retries]
      rfl]
    cases l.runnerEnv.nodeCall state task <;> rfl
  · unfold RunnerEnv.nodeCall
    rw [show l.runnerEnv.nodes = g.nodes from h.nodes, show l.runnerEnv.config = config from h.config,
      hstate]
    rfl

/-- Plain tasks are ready as they are. -/
theorem prepare (h : Serves g config l) (htasks : ∀ t ∈ l.pendingTasks, t.Plain) :
    l.prepare = (l, .ok []) := by
  have hresolve : ∀ ts : List (PendingTask S), (∀ t ∈ ts, t.Plain) →
      PregelLoop.resolveStateJson ts = (ts, .ok ()) := by
    intro ts hts
    induction ts with
    | nil => rfl
    | cons t ts ih =>
      obtain ⟨-, hstate, hjson⟩ := (hts t List.mem_cons_self).fields
      have htail := ih fun t' ht' => hts t' (List.mem_cons_of_mem _ ht')
      rw [PregelLoop.resolveStateJson, hstate, hjson, htail]
  have hempty : l.checkCircuitBreakers = (l, []) := by
    unfold PregelLoop.checkCircuitBreakers
    rw [if_pos]
    rw [h.breakers]
    rfl
  unfold PregelLoop.prepare
  rw [hresolve _ htasks]
  dsimp only
  rw [hempty]

/-- What the runner makes of a task. -/
theorem returns (h : Serves g config l) {task : PendingTask S} (ht : task.Plain) (state : S) :
    l.runnerEnv.returns state task = g.returns config false state task.nodeName := by
  obtain ⟨hprog, hcall⟩ := h.taskProg ht state
  unfold RunnerEnv.returns CompiledGraph.returns
  rw [hprog, hcall, show l.runnerEnv.locals = config.locals by rw [← h.config]; rfl]
  cases g.nodes.lookup task.nodeName with
  | none => rfl
  | some n => rfl

/-- The outputs of tasks, up to identifiers. -/
theorem mapM_output (h : Serves g config l) {tasks : List (PendingTask S)}
    (htasks : ∀ t ∈ tasks, t.Plain) (state : S) :
    (tasks.mapM (l.runnerEnv.output state)).map (List.map TaskOutput.anon) =
      (tasks.map PendingTask.nodeName).mapM fun node =>
        (g.returns config false state node).map (successOutput (.pull 0 node)) := by
  induction tasks with
  | nil => rfl
  | cons t ts ih =>
    obtain ⟨htrigger, -, -⟩ := (htasks t List.mem_cons_self).fields
    have htail := ih fun t' ht' => htasks t' (List.mem_cons_of_mem _ ht')
    rw [List.mapM_cons, List.map_cons, List.mapM_cons, ← htail, RunnerEnv.output,
      h.returns (htasks t List.mem_cons_self)]
    cases g.returns config false state t.nodeName with
    | error e => rfl
    | ok command =>
      have hone : (successOutput t command).anon = successOutput (.pull 0 t.nodeName) command := by
        simp only [TaskOutput.anon, successOutput, htrigger, PendingTask.pull]
      cases ts.mapM (l.runnerEnv.output state) with
      | error e => rfl
      | ok os =>
        show Except.ok ((successOutput t command).anon :: os.map TaskOutput.anon) = _
        rw [hone]
        rfl

/-- The outputs of tasks have succeeded. -/
theorem succeeded_of_mapM {env : RunnerEnv S σ} {tasks : List (PendingTask S)} {state : S}
    {os : List (TaskOutput S)} (h : tasks.mapM (env.output state) = .ok os) : Succeeded os := by
  intro o ho
  obtain ⟨task, -, hout⟩ := ExceptFold.mem_of_mapM_eq_ok h ho
  obtain ⟨command, -, rfl⟩ := ExceptFold.map_eq_ok_iff.1 hout
  exact ⟨rfl, rfl⟩

variable [InterruptHash] {round : Round S}

/-- The only task runs inline. -/
theorem runTasks_alone (h : Serves g config l) {task : PendingTask S} (htask : l.pendingTasks = [task])
    (ht : task.Plain) : (l.runTasks round).Gives (g.outputs config [task.nodeName] l.state) := by
  obtain ⟨-, hcall⟩ := h.taskProg ht l.state
  obtain ⟨htrigger, -, -⟩ := ht.fields
  have hpersist : ∀ o : TaskOutput S, persistWrites l.runnerEnv o l.store = (l.store, .ok ()) := by
    intro o
    unfold persistWrites
    rw [show l.runnerEnv.checkpointer = none from h.checkpointer]
  rw [CompiledGraph.outputs_singleton, CompiledGraph.returns]
  unfold PregelLoop.runTasks Juncture.executeSuperstep
  rw [htask, inlineTask_eq_some_iff.2 ⟨rfl, h.needsSpawn _⟩, h.cancelled]
  simp only [List.isEmpty_cons, Bool.false_eq_true, if_false, if_true, executeInline, hcall]
  cases g.nodes.lookup task.nodeName with
  | none => rfl
  | some n =>
    dsimp only
    cases (n.call l.state config).runInline with
    | error e => rfl
    | ok command =>
      have hsettle : settleInline l.runnerEnv task l.store l.nextUuid (.ok command) = {
          result := .ok { taskOutputs := [successOutput task command] }
          store := l.store
          nextUuid := l.nextUuid
          cancelled := false } := by
        simp only [settleInline, hpersist]
      rw [hsettle]
      refine ⟨_, rfl, ?_, ?_, rfl, rfl⟩
      · simp only [List.map_cons, List.map_nil, TaskOutput.anon, successOutput, htrigger,
          PendingTask.pull]
      · intro o ho
        obtain rfl := List.mem_singleton.1 ho
        exact ⟨rfl, rfl⟩

/-- Several tasks run beside each other. -/
theorem runTasks_beside (h : Serves g config l) (hplain : ∀ t ∈ l.pendingTasks, t.Plain)
    (hnames : l.pendingTasks.map PendingTask.nodeName = names) (hne : names ≠ [])
    (hone : names.length ≠ 1) (hcancel : .cancel ∉ round.schedule)
    (hmute : ∀ node ∈ names, ∀ n, g.nodes.lookup node = some n → (n.call l.state config).Mute) :
    ∃ order : List String, order.Perm names ∧
      (l.runTasks round).Gives (g.outputs config order l.state) := by
  have hlength : l.pendingTasks.length = names.length := by rw [← hnames, List.length_map]
  have hsome : l.pendingTasks.isEmpty = false := by
    rw [List.isEmpty_eq_false_iff, ← List.length_pos_iff, hlength]
    exact List.length_pos_iff.2 hne
  have hinline : inlineTask l.runnerEnv l.pendingTasks = none := by
    rw [Option.eq_none_iff_forall_ne_some]
    intro task htask
    rw [(inlineTask_eq_some_iff.1 htask).1] at hlength
    exact hone hlength.symm
  unfold PregelLoop.runTasks Juncture.executeSuperstep
  rw [hsome, if_neg Bool.false_ne_true, hinline, h.cancelled]
  dsimp only
  obtain ⟨env, henv⟩ : ∃ env : SpawnEnv S σ, env = { l.runnerEnv with
      tasks := l.pendingTasks
      resumeValues := matchResumeToInterrupts l.runnerEnv.config.resumeValue l.pendingInterrupts
        l.scratchpad } := ⟨_, rfl⟩
  have hbase : env.toRunnerEnv = l.runnerEnv := by rw [henv]
  have htasks : env.tasks = l.pendingTasks := by rw [henv]
  have hmuted : env.Mute l.state := by
    refine ⟨hbase ▸ h.checkpointer, hbase ▸ h.timeouts, fun node => hbase ▸ h.recovers node, ?_⟩
    intro task ht p hp
    rw [htasks] at ht
    obtain ⟨hprog, hcall⟩ := h.taskProg (hplain task ht) l.state
    rw [hbase, hprog, hcall] at hp
    cases hnode : g.nodes.lookup task.nodeName with
    | none =>
      rw [hnode] at hp
      cases hp
    | some n =>
      rw [hnode] at hp
      cases hp
      exact hmute _ (hnames ▸ List.mem_map_of_mem ht) n hnode
  obtain ⟨order, hperm, hrun⟩ := Superstep.runSpawned_of_mute hmuted l.store
    l.nextUuid hcancel
  rw [htasks] at hperm
  have horder : (order.map PendingTask.nodeName).Perm names := hnames ▸ hperm.map _
  refine ⟨_, horder, ?_⟩
  have halone : ((order.map PendingTask.nodeName).length == 1) = false := by
    rw [horder.length_eq]
    exact beq_false_of_ne hone
  have hordered : ∀ t ∈ order, t.Plain := fun t ht => hplain t (hperm.mem_iff.1 ht)
  have hmap := h.mapM_output hordered l.state
  unfold CompiledGraph.outputs
  rw [halone, ← hmap, ← henv]
  rw [hbase] at hrun
  unfold executeSpawned Superstep.outcome
  cases hos : order.mapM (l.runnerEnv.output l.state) with
  | error e =>
    rw [hos] at hrun
    dsimp only at hrun
    rw [hrun]
    rfl
  | ok os =>
    rw [hos] at hrun
    obtain ⟨hfailure, houtputs, hsignals, hcancelled⟩ := hrun
    rw [hfailure]
    exact ⟨os, by rw [← houtputs], rfl, succeeded_of_mapM hos, by simp [hsignals], hcancelled⟩

/-- **The tasks of a superstep** run as the nodes of the program do, in some order. -/
theorem runTasks (h : Serves g config l) (hplain : ∀ t ∈ l.pendingTasks, t.Plain)
    (hnames : l.pendingTasks.map PendingTask.nodeName = names) (hne : names ≠ [])
    (hgood : g.Orderly config round names l.state) :
    ∃ order : List String, order.Perm names ∧
      (l.runTasks round).Gives (g.outputs config order l.state) := by
  by_cases hone : names.length = 1
  · have hlength : l.pendingTasks.length = 1 := by rw [← hone, ← hnames, List.length_map]
    obtain ⟨task, htask⟩ := List.length_eq_one_iff.1 hlength
    rw [htask] at hnames
    subst hnames
    exact ⟨_, .refl _, h.runTasks_alone htask (hplain task (htask ▸ List.mem_singleton_self _))⟩
  · obtain ⟨hcancel, hmute⟩ := hgood.beside.resolve_left hone
    exact h.runTasks_beside hplain hnames hne hone hcancel hmute

/-- A superstep leaves the loop as it is, for `after_tick` to go on from. -/
structure Lends (g : CompiledGraph S σ) (config : RunnableConfig) (l l₁ : PregelLoop S σ) : Prop extends
    Serves g config l₁ where
  rx : l₁.interruptRx = some []
  state : l₁.state = l.state
  step : l₁.step = l.step
  changed : l₁.previousSuperstepChangedFields = l.previousSuperstepChangedFields
  finished : l₁.channelsFinished = l.channelsFinished
  runId : l₁.runId = l.runId

/-- **A superstep** of the loop. -/
theorem executeSuperstep (h : Serves g config l) (hplain : ∀ t ∈ l.pendingTasks, t.Plain)
    (hnames : l.pendingTasks.map PendingTask.nodeName = names) (hne : names ≠ [])
    (hgood : g.Orderly config round names l.state) :
    ∃ order : List String, order.Perm names ∧ match g.outputs config order l.state with
      | .error e => ∃ l₁, l.executeSuperstep round = (l₁, .error e)
      | .ok os => ∃ l₁ os', l.executeSuperstep round = (l₁, .ok { taskOutputs := os' }) ∧
          os'.map TaskOutput.anon = os ∧ Succeeded os' ∧ Lends g config l l₁ := by
  obtain ⟨order, hperm, hrun⟩ := h.runTasks hplain hnames hne hgood
  refine ⟨order, hperm, ?_⟩
  unfold PregelLoop.executeSuperstep
  rw [h.prepare hplain]
  simp only [andThen, PregelLoop.runPrepared]
  cases houtputs : g.outputs config order l.state with
  | error e =>
    rw [houtputs] at hrun
    have hresult : (l.runTasks round).result = .error e := hrun
    dsimp only
    rw [hresult]
    exact ⟨_, rfl⟩
  | ok os =>
    rw [houtputs] at hrun
    obtain ⟨os', hresult, hos, hs, hsignals, hcancelled⟩ := hrun
    dsimp only
    rw [hresult]
    dsimp only
    rw [List.append_nil]
    refine ⟨_, os', rfl, hos, hs, h.congr ?_, congrArg some hsignals, rfl, rfl, rfl, rfl, rfl⟩
    simp only [PregelLoop.frame, PregelLoop.recordCircuitBreakerResults,
      PregelLoop.markInterruptsProcessed, PregelLoop.report, PregelLoop.absorb, h.budget, h.cancelled,
      hcancelled, Option.map_none]

omit [InterruptHash]

/-- The size limit of the loop. -/
theorem checkStateSizeLimit (h : l.runnableConfig = config) (changed : FieldsChanged) :
    l.checkStateSizeLimit changed = sizeCheck config l.state changed := by
  subst h
  unfold PregelLoop.checkStateSizeLimit PregelLoop.maxStateSizeBytes sizeCheck
  rfl

/-- What the loop writes. -/
theorem mergeWrites (h : Serves g config l) {os os' : List (TaskOutput S)}
    (hos : os'.map TaskOutput.anon = os) (hs : Succeeded os') :
    match g.write config l.state os with
    | .error e => ∃ l₁, l.mergeWrites os' = (l₁, .error e)
    | .ok (state, changed) => ∃ fieldVersions,
        l.mergeWrites os' = ({ l with state, fieldVersions }, .ok changed) := by
  have hsame : SameOutputs os' os := sameOutputs_of_map_anon hos
  have happly := applyWrites_merged l.state os l.fieldVersions l.nodeRegistration
  rw [← hsame.applyWrites_eq] at happly
  unfold CompiledGraph.write PregelLoop.mergeWrites
  rw [hs.executedOutputs, ← h.registration]
  rcases hmerged : merged l.nodeRegistration l.state os with e | ⟨state, changed⟩
  · rw [hmerged] at happly
    obtain ⟨state', fieldVersions, happly⟩ := happly
    rw [happly]
    exact ⟨_, rfl⟩
  · rw [hmerged] at happly
    obtain ⟨fieldVersions, happly⟩ := happly
    have hcheck : ({ l with state, fieldVersions } : PregelLoop S σ).checkStateSizeLimit changed =
        sizeCheck config state changed :=
      checkStateSizeLimit (l := { l with state, fieldVersions }) h.config changed
    rw [happly]
    dsimp only [bind, Except.bind]
    rw [hcheck]
    cases sizeCheck config state changed with
    | error e =>
      dsimp only
      split_ifs
      · exact ⟨_, rfl⟩
      · exact ⟨_, rfl⟩
    | ok _ => exact ⟨fieldVersions, rfl⟩

/-- What the loop schedules. -/
theorem scheduleTasks (h : Serves g config l) {os os' : List (TaskOutput S)}
    (hos : os'.map TaskOutput.anon = os) (hs : Succeeded os')
    (hsends : ∀ o ∈ os, ∀ ts, o.command.goto ≠ .send ts) :
    match g.targets os l.state with
    | .error e => l.scheduleTasks os' = (l, .error e)
    | .ok next => ∃ tasks nextUuid, tasks.map PendingTask.anon = next.map (.pull 0) ∧
        l.scheduleTasks os' = ({ l with
          pendingTasks := tasks
          nextUuid
          store := l.persistedWrites.1 }, .ok ()) := by
  have hsame : SameOutputs os' os := sameOutputs_of_map_anon hos
  have hnext : scheduleNext l.scheduleEnv l.nextUuid (executedOutputs os') l.state
      l.persistedWrites.2 = computeNextTasks l.nextUuid os' g.triggerTable
        (.fromTriggerTable g.triggerTable) g.nodes l.state := by
    rw [hs.executedOutputs, scheduleNext_of_succeeded h.handlers fun o ho => (hs o ho).2,
      PregelLoop.scheduleEnv, h.table, h.triggers, h.nodes]
  have hanon := computeNextTasks_anon l.nextUuid 0 hsame g.triggerTable
    (.fromTriggerTable g.triggerTable) g.nodes l.state
  unfold PregelLoop.scheduleTasks CompiledGraph.targets
  rw [hnext]
  cases hcanonical : computeNextTasks 0 os g.triggerTable (.fromTriggerTable g.triggerTable) g.nodes
      l.state with
  | error e =>
    rw [hcanonical] at hanon
    cases htasks : computeNextTasks l.nextUuid os' g.triggerTable (.fromTriggerTable g.triggerTable)
        g.nodes l.state with
    | error e' =>
      rw [htasks] at hanon
      cases hanon
      rfl
    | ok tasks =>
      rw [htasks] at hanon
      cases hanon
  | ok ts =>
    rw [hcanonical] at hanon
    obtain ⟨tasks, htasks, hmap⟩ := ExceptFold.map_eq_ok_iff.1 hanon
    rw [htasks]
    refine ⟨tasks, _, ?_, rfl⟩
    rw [hmap]
    exact map_anon_of_plain (pulls_computeNextTasks hsends hcanonical).1

/-- What a loop without a checkpointer saves. -/
theorem save_none (h : l.checkpointer = none) :
    l.saveSuperstepCheckpoint = (l, .ok ()) ∧ l.saveExitCheckpoint = l := by
  unfold PregelLoop.saveSuperstepCheckpoint PregelLoop.saveExitCheckpoint
  rw [h]
  refine ⟨?_, rfl⟩
  split_ifs
  · rfl
  · rfl

/-- How a superstep ends that has nothing to report. -/
theorem countStep {next : List String} (store : FlowStore S) (h : Serves g config l)
    (hpending : l.pendingTasks.map PendingTask.anon = next.map (.pull 0))
    (hchanged : l.previousSuperstepChangedFields = store.changed) (hstate : l.state = store.state)
    (hfinished : l.channelsFinished = false) :
    InStep g config l.runId (l.step + 1) next store l.countStep := by
  have hlength : l.pendingTasks.length = next.length := by
    have hlength := congrArg List.length hpending
    rwa [List.length_map, List.length_map] at hlength
  have hempty : l.pendingTasks.isEmpty = next.isEmpty := by
    rw [Bool.eq_iff_iff, List.isEmpty_iff_length_eq_zero, List.isEmpty_iff_length_eq_zero, hlength]
  cases hnext : next.isEmpty with
  | false =>
    unfold PregelLoop.countStep
    rw [hempty, hnext, if_neg Bool.false_ne_true]
    refine ⟨h.congr ?_, rfl, hpending, hchanged, ?_, hfinished.trans hnext.symm, rfl⟩
    · simp only [PregelLoop.frame, h.budget, Option.map_none]
    · rw [hnext, if_neg Bool.false_ne_true]
      exact hstate
  | true =>
    have hfinish : l.finishAllChannels =
        { l with state := finishFields store.state, channelsFinished := true } := by
      unfold PregelLoop.finishAllChannels finishFields
      rw [hfinished, hstate]
      rfl
    have hsame : (if l.effectiveDurability = .exit then l.finishAllChannels.saveExitCheckpoint
        else l.finishAllChannels) = l.finishAllChannels := by
      rw [(save_none (l := l.finishAllChannels) (by rw [hfinish]; exact h.checkpointer)).2, ite_self]
    unfold PregelLoop.countStep
    rw [hempty, hnext, if_pos rfl, hsame, hfinish]
    refine ⟨h.congr ?_, rfl, hpending, hchanged, ?_, hnext.symm, rfl⟩
    · simp only [PregelLoop.frame, h.budget, Option.map_none]
    · rw [hnext, if_pos rfl]

variable [InterruptHash]

/-- The last phase of `after_tick`, when there is nothing to report. -/
theorem finishTick (h : Serves g config l) (hafter : config.interruptAfter = none)
    (hrx : l.interruptRx = some []) :
    l.finishTick [] = ({ l with interruptRx := none }.countStep, .ok ()) := by
  have hquiet : ({ l with interruptRx := none } : PregelLoop S σ).interruptAfter = none := by
    have hnone : l.runnableConfig.interruptAfter = none := by
      rw [h.config]
      exact hafter
    show l.runnableConfig.interruptAfter.bind _ = none
    rw [hnone]
    rfl
  unfold PregelLoop.finishTick
  rw [hrx]
  dsimp only [PregelLoop.handleBubbleUps, List.foldl_nil, Option.getD_some, List.isEmpty_nil, if_true]
  simp only [hquiet, Bool.false_eq_true, if_false, if_true]

/-- **After a superstep** the loop goes on as its program does. -/
theorem afterTick (store : FlowStore S) {os os' : List (TaskOutput S)} (h : Serves g config l)
    (hafter : config.interruptAfter = none) (hos : os'.map TaskOutput.anon = os) (hs : Succeeded os')
    (hsends : ∀ o ∈ os, ∀ ts, o.command.goto ≠ .send ts)
    (hstate : l.state = store.state) (hchanged : l.previousSuperstepChangedFields = store.changed)
    (hfinished : l.channelsFinished = false) (hrx : l.interruptRx = some []) :
    match g.conclude config store os with
    | .error e => ∃ l', l.afterTick { taskOutputs := os' } = (l', .error e)
    | .ok (store', next) => ∃ l', l.afterTick { taskOutputs := os' } = (l', .ok ()) ∧
        InStep g config l.runId (l.step + 1) next store' l' := by
  have hwrite := h.mergeWrites hos hs
  unfold CompiledGraph.conclude
  rw [← hstate, ← hchanged]
  rcases hw : g.write config l.state os with e | ⟨state, changed⟩
  · rw [hw] at hwrite
    obtain ⟨l₁, hl₁⟩ := hwrite
    exact ⟨l₁, by rw [PregelLoop.afterTick, hl₁]; rfl⟩
  rw [hw] at hwrite
  obtain ⟨fieldVersions, hmerge⟩ := hwrite
  -- the loop in whose state the next tasks are looked for
  obtain ⟨k, hk⟩ : ∃ k, k = ({ l with state, fieldVersions } : PregelLoop S σ).commitWrites
    l.fieldVersions.versions changed os' := ⟨_, rfl⟩
  have hkstate : k.state = settle l.previousSuperstepChangedFields state := by
    rw [hk]
    rfl
  have hkserves : Serves g config k := h.congr (by rw [hk]; rfl)
  have hkrest : k.interruptRx = some [] ∧ k.step = l.step ∧ k.channelsFinished = false ∧
      k.runId = l.runId := by
    rw [hk]
    exact ⟨hrx, rfl, hfinished, rfl⟩
  obtain ⟨hkrx, hkstep, hkfinished, hkrun⟩ := hkrest
  have hnext := hkserves.scheduleTasks hos hs hsends
  dsimp only [bind, Except.bind]
  rw [← hkstate]
  cases htargets : g.targets os k.state with
  | error e =>
    rw [htargets] at hnext
    refine ⟨k, ?_⟩
    unfold PregelLoop.afterTick
    rw [hmerge]
    unfold andThen
    dsimp only
    rw [← hk, hnext]
  | ok next =>
    rw [htargets] at hnext
    obtain ⟨tasks, nextUuid, htasks, hschedule⟩ := hnext
    obtain ⟨k', hk'⟩ : ∃ k', k' = ({ k with
        pendingTasks := tasks
        nextUuid
        store := k.persistedWrites.1 } : PregelLoop S σ) := ⟨_, rfl⟩
    rw [← hk'] at hschedule
    have hk'serves : Serves g config { k' with previousSuperstepChangedFields := changed } :=
      hkserves.congr (by rw [hk']; rfl)
    have hk'rest : k'.interruptRx = some [] ∧ k'.step = l.step ∧ k'.channelsFinished = false ∧
        k'.runId = l.runId ∧ k'.state = k.state ∧ k'.pendingTasks = tasks := by
      rw [hk']
      exact ⟨hkrx, hkstep, hkfinished, hkrun, rfl, rfl⟩
    obtain ⟨hrx', hstep', hfinished', hrun', hstate', hpending'⟩ := hk'rest
    refine ⟨_, PregelLoop.afterTick_eq_ok_iff.2 ⟨_, changed, k', _, hmerge, ?_,
      (save_none hk'serves.checkpointer).1, hk'serves.finishTick hafter hrx'⟩, ?_⟩
    · rw [PregelLoop.committed, hmerge]
      dsimp only
      rw [← hk, hschedule]
    · rw [← hstep', ← hrun']
      exact countStep
        (l := { k' with previousSuperstepChangedFields := changed, interruptRx := none })
        ⟨k.state, changed⟩ (hk'serves.congr rfl) (by rw [← htasks, ← hpending']) rfl hstate' hfinished'

end Serves

/-- A run that ends with `after_tick`. -/
theorem PregelLoop.ending_of_superstep [InterruptHash] {l l₁ l' : PregelLoop S σ} {round : Round S}
    {result : SuperstepResult S} {e : JunctureError} (h : l.superstep round = some (l₁, result))
    (ha : l₁.afterTick result = (l', .error e)) : l.ending round = some (l', .superstepFailed e) := by
  obtain ⟨hgo, r, hexec, rfl⟩ := superstep_eq_some_iff.1 h
  unfold ending
  rw [tick_of_goesOn hgo]
  dsimp only
  rw [hexec]
  dsimp only
  rw [ha]

/-- A run ends only once. -/
theorem PregelLoop.EndsAt.unique [InterruptHash] {l₀ l l' : PregelLoop S σ} {rounds : ℕ → Round S}
    {n n' : ℕ} {e e' : Ending} (h : l₀.EndsAt rounds n l e) (h' : l₀.EndsAt rounds n' l' e') :
    l = l' ∧ e = e' := by
  have hlast : ∀ {n n' l l' e e'}, l₀.EndsAt rounds n l e → l₀.EndsAt rounds n' l' e' → ¬ n < n' := by
    rintro n n' l l' e e' ⟨t, ht, hend⟩ ⟨t', ht', -⟩ hlt
    have hnone : t.turn (rounds n) = none := by
      rw [Option.eq_none_iff_forall_ne_some]
      intro k hk
      obtain ⟨l₁, result, hs, ha⟩ := turn_eq_some_iff.1 hk
      obtain ⟨hgo, r, hexec, rfl⟩ := superstep_eq_some_iff.1 hs
      unfold ending at hend
      rw [tick_of_goesOn hgo] at hend
      dsimp only at hend
      rw [hexec] at hend
      dsimp only at hend
      rw [ha] at hend
      cases hend
    rw [head, Machine.trace_eq_none_of_lt ht hnone hlt] at ht'
    cases ht'
  obtain rfl : n = n' := by
    have hle := hlast h h'
    have hge := hlast h' h
    omega
  obtain ⟨t, ht, hend⟩ := h
  obtain ⟨t', ht', hend'⟩ := h'
  cases ht.symm.trans ht'
  cases hend.symm.trans hend'
  exact ⟨rfl, rfl⟩

namespace InStep

variable [InterruptHash] {g : CompiledGraph S σ} {config : RunnableConfig} {runId : Uuid} {n : ℕ}
  {names : List String} {store : FlowStore S} {l : PregelLoop S σ} {round : Round S}

omit [InterruptHash] in
theorem outside (h : InStep g config runId n names store l) (hround : round.Calm) :
    InStep g config runId n names store (l.outside round) := by
  have hserves := h.toServes.outside hround
  obtain ⟨_, _, heq⟩ := l.outside_eq round
  rw [heq] at hserves ⊢
  exact ⟨hserves, h.step, h.pending, h.changed, h.state, h.finished, h.runId⟩

omit [InterruptHash] in
/-- The tasks are those of the nodes. -/
theorem tasks (h : InStep g config runId n names store l) :
    (∀ t ∈ l.pendingTasks, t.Plain) ∧ l.pendingTasks.map PendingTask.nodeName = names := by
  constructor
  · intro t ht
    obtain ⟨node, -, hnode⟩ :=
      List.mem_map.1 (h.pending ▸ List.mem_map_of_mem (f := PendingTask.anon) ht)
    have hname : t.nodeName = node := (congrArg PendingTask.nodeName hnode).symm
    rw [PendingTask.Plain, hname]
    exact hnode.symm
  · rw [← map_nodeName_anon, h.pending, List.map_map]
    exact List.map_id names

/-- At its limit the loop fails, wherever it is. -/
theorem ending_limit (h : InStep g config runId n names store l) (hround : round.Calm)
    (hlimit : config.recursionLimit ≤ n) :
    ∃ l', l.ending round = some (l', .tickFailed (.recursionLimit n config.recursionLimit)) := by
  have hout := h.outside hround
  have htick : (l.outside round).tick.2 = .error (.recursionLimit n config.recursionLimit) := by
    unfold PregelLoop.tick
    rw [hout.config, hout.step, if_pos hlimit]
  exact ⟨_, (PregelLoop.ending_of_tick.2 _).2 (Prod.ext rfl htick)⟩

/-- When there is nothing left to run, the loop is done. -/
theorem ending_done (h : InStep g config runId n [] store l) (hround : round.Calm)
    (hlimit : n < config.recursionLimit) : ∃ l', l.ending round = some (l', .done) ∧
      l'.state = finishFields store.state ∧ l'.step = n ∧ l'.runId = runId := by
  have hout := h.outside hround
  have hbudget : (l.outside round).budgetExceeded = none := by
    unfold PregelLoop.budgetExceeded
    rw [hout.budget]
    rfl
  have hfinished : (l.outside round).finishAllChannels = l.outside round := by
    unfold PregelLoop.finishAllChannels
    rw [hout.finished]
    rfl
  have hgo : ¬ (l.outside round).runnableConfig.recursionLimit ≤ (l.outside round).step := by
    rw [hout.config, hout.step]
    omega
  have hempty : (l.outside round).pendingTasks.isEmpty = true := by
    rw [List.map_eq_nil_iff.1 hout.pending]
    rfl
  have htick : (l.outside round).tick = ({ l.outside round with status := .done }, .ok false) := by
    unfold PregelLoop.tick
    rw [if_neg hgo, hout.cancelled, if_neg Bool.false_ne_true, hbudget]
    dsimp only
    rw [if_pos hempty, hfinished]
  exact ⟨_, PregelLoop.ending_of_tick.1.2 htick, hout.state, hout.step, hout.runId⟩

/-- **One superstep** of the loop is one of the program, in some order. -/
theorem turn (h : InStep g config runId n names store l) (hne : names ≠ []) (hround : round.Calm)
    (hgood : g.Orderly config round names store.state) (hlimit : n < config.recursionLimit)
    (hbefore : config.interruptBefore = none) (hafter : config.interruptAfter = none) :
    ∃ order : List String, order.Perm names ∧ match g.superstep config order store with
      | .error e => ∃ l', l.ending round = some (l', .superstepFailed e)
      | .ok (store', next) => ∃ l', l.turn round = some l' ∧
          InStep g config runId (n + 1) next store' l' := by
  have hout := h.outside hround
  obtain ⟨hplain, hnames⟩ := hout.tasks
  have hsome : names.isEmpty = false := List.isEmpty_eq_false_iff.2 hne
  have hgo : (l.outside round).GoesOn := by
    refine ⟨?_, hout.cancelled, ?_, ?_, ?_⟩
    · rw [hout.step, hout.config]
      exact hlimit
    · unfold PregelLoop.budgetExceeded
      rw [hout.budget]
      rfl
    · rintro hnil
      rw [hnil] at hnames
      exact hne hnames.symm
    · unfold PregelLoop.interruptBefore
      rw [hout.config, hbefore]
      rfl
  have hstate : (l.outside round).state = store.state := by
    rw [hout.state, hsome, if_neg Bool.false_ne_true]
  have hfinished : (l.outside round).channelsFinished = false := hout.finished.trans hsome
  rw [← hstate] at hgood
  obtain ⟨order, hperm, hexec⟩ := hout.toServes.executeSuperstep hplain hnames hne hgood
  refine ⟨order, hperm, ?_⟩
  rw [hstate] at hexec hgood
  unfold CompiledGraph.superstep
  cases houtputs : g.outputs config order store.state with
  | error e =>
    rw [houtputs] at hexec
    obtain ⟨l₁, hexec⟩ := hexec
    refine ⟨l₁, ?_⟩
    unfold PregelLoop.ending
    rw [PregelLoop.tick_of_goesOn hgo]
    dsimp only
    rw [hexec]
  | ok os =>
    rw [houtputs] at hexec
    obtain ⟨l₁, os', hexec, hos, hs, hl₁⟩ := hexec
    have hsends : ∀ o ∈ os, ∀ ts, o.command.goto ≠ .send ts := by
      intro o ho
      obtain ⟨node, hnode, hreturn⟩ := ExceptFold.mem_of_mapM_eq_ok houtputs ho
      obtain ⟨command, hcommand, rfl⟩ := ExceptFold.map_eq_ok_iff.1 hreturn
      rw [hperm.length_eq] at hcommand
      exact hgood.sends node (hperm.mem_iff.1 hnode) command hcommand
    have hafterTick := hl₁.toServes.afterTick store hafter hos hs hsends (hl₁.state.trans hstate)
      (hl₁.changed.trans hout.changed) (hl₁.finished.trans hfinished) hl₁.rx
    have hsuper : l.superstep round = some (l₁, { taskOutputs := os' }) := by
      refine PregelLoop.superstep_eq_some_iff.2 ⟨hgo, _, hexec, ?_⟩
      rw [hround.bubbleUps]
      rfl
    dsimp only [bind, Except.bind]
    rcases hblock : g.conclude config store os with e | ⟨store', next⟩
    · rw [hblock] at hafterTick
      obtain ⟨l', hl'⟩ := hafterTick
      exact ⟨l', PregelLoop.ending_of_superstep hsuper hl'⟩
    · rw [hblock] at hafterTick
      obtain ⟨l', hl', hat⟩ := hafterTick
      refine ⟨l', PregelLoop.turn_eq_some_iff.2 ⟨l₁, _, hsuper, hl'⟩, ?_⟩
      rwa [hl₁.runId, hl₁.step, hout.runId, hout.step] at hat

end InStep

end Juncture
