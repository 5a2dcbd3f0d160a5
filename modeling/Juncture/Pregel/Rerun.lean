import Juncture.Pregel.InterruptStop
import Juncture.Pregel.Lockstep
import Juncture.Pregel.Run

/-!
# Runs that cannot be told apart

Two loops of the same graph with the same state, the same pending tasks up to identifiers and the
same flags go the same way, whatever their identifiers, stores, versions and resume values are, as
long as they are not interrupted and their nodes neither call `interrupt!()` nor read the
configuration.  `View` is what decides how a run goes on.

* `turn_of_view` : a turn of one loop and a turn of the other lead from equal views to equal views.
* `finalState_eq` : two runs that complete under the same rounds end in the same state.
* `tasks_of_turn` : an interrupt does not change what is pending.
-/

namespace Juncture

variable {S σ : Type} [State S]

/-- The configuration without what interrupts and resumes a run. -/
def RunnableConfig.core (c : RunnableConfig) : RunnableConfig :=
  { c with resumeValue := none, checkpointId := none, interruptBefore := none, interruptAfter := none }

/-- The round without the reports of subgraphs. -/
def Round.silent (round : Round S) : Round S := { round with bubbleUps := [] }

/-- What a loop is set up with and does not change. -/
structure Setup (S : Type) [State S] where
  /-- Nodes of the graph. -/
  nodes : Dict (Node S)
  /-- Their registration index. -/
  nodeRegistration : Dict ℕ
  /-- Trigger table. -/
  triggerTable : TriggerTable S
  /-- Its reverse map. -/
  triggerToNodes : TriggerToNodes
  /-- Error handlers. -/
  errorHandlerMap : Dict String
  /-- Retry policies. -/
  retryPolicies : Dict RetryPolicy
  /-- Timeout policies. -/
  timeoutPolicies : Dict TimeoutPolicy
  /-- Circuit breakers. -/
  circuitBreakerConfigs : Dict CircuitBreakerConfig
  /-- Fallbacks. -/
  fallbackMap : Dict String
  /-- Configuration of the run. -/
  config : RunnableConfig

/-- What decides how a run goes on. -/
structure View (S : Type) [State S] where
  /-- State. -/
  state : S
  /-- Pending tasks, without identifiers. -/
  tasks : List (PendingTask S)
  /-- Status. -/
  status : LoopStatus
  /-- The cancellation token. -/
  cancelled : Bool
  /-- `finish_all_channels` has run. -/
  channelsFinished : Bool
  /-- The interrupt channel. -/
  interruptRx : Option (List InterruptSignal)
  /-- The setup. -/
  setup : Setup S

/-- The view after `finish_all_channels`. -/
def View.finish (v : View S) : View S :=
  if v.channelsFinished then v
  else
    { v with
      state := (State.replaceAfterFinishFieldIndices S).foldl State.finishField v.state
      channelsFinished := true }

theorem View.setup_finish (v : View S) : v.finish.setup = v.setup := by
  unfold View.finish
  split_ifs <;> rfl

theorem View.interruptRx_finish (v : View S) : v.finish.interruptRx = v.interruptRx := by
  unfold View.finish
  split_ifs <;> rfl

/-- Nodes that make no `interrupt!()` call and do not read the configuration, in a graph without
error handlers and circuit breakers, over a state that consumes no field. -/
structure Setup.Plain (p : Setup S) : Prop where
  /-- No error handlers. -/
  handlers : p.errorHandlerMap = ∅
  /-- No circuit breakers. -/
  breakers : p.circuitBreakerConfigs = ∅
  /-- The nodes do not read the configuration. -/
  blind : ∀ n node, p.nodes.lookup n = some node → ∀ s c c', node.call s c = node.call s c'
  /-- They make no call. -/
  mute : ∀ n node, p.nodes.lookup n = some node → ∀ s c, (node.call s c).Mute
  /-- No field is consumed. -/
  consumed : ∀ (s : S) (i : ℕ), State.consumeField s i = s

namespace PregelLoop

/-- The setup of a loop. -/
def setup (l : PregelLoop S σ) : Setup S where
  nodes := l.nodes
  nodeRegistration := l.nodeRegistration
  triggerTable := l.triggerTable
  triggerToNodes := l.triggerToNodes
  errorHandlerMap := l.errorHandlerMap
  retryPolicies := l.retryPolicies
  timeoutPolicies := l.timeoutPolicies
  circuitBreakerConfigs := l.circuitBreakerConfigs
  fallbackMap := l.fallbackMap
  config := l.runnableConfig.core

/-- The view of a loop. -/
def view (l : PregelLoop S σ) : View S where
  state := l.state
  tasks := l.pendingTasks.map PendingTask.anon
  status := l.status
  cancelled := l.cancelled
  channelsFinished := l.channelsFinished
  interruptRx := l.interruptRx
  setup := l.setup

variable {l r : PregelLoop S σ}

/-! ### What views have in common -/

section Common

variable (h : l.view = r.view)

include h

theorem state_of_view : l.state = r.state := congrArg View.state h

theorem tasks_of_view : SameTasks l.pendingTasks r.pendingTasks := congrArg View.tasks h

theorem setup_of_view : l.setup = r.setup := congrArg View.setup h

/-- A field of the configuration that a resumed run keeps. -/
theorem config_of_view {α : Type*} (f : RunnableConfig → α)
    (hf : ∀ c : RunnableConfig, f c.core = f c) : f l.runnableConfig = f r.runnableConfig := by
  have hc := congrArg (fun v => f v.setup.config) h
  exact (hf _).symm.trans (hc.trans (hf _))

theorem isEmpty_of_view : l.pendingTasks.isEmpty = r.pendingTasks.isEmpty := by
  have ht := congrArg List.isEmpty (tasks_of_view h)
  rwa [List.isEmpty_map, List.isEmpty_map] at ht

theorem scheduleEnv_of_view : l.scheduleEnv = r.scheduleEnv := by
  have hs := setup_of_view h
  unfold scheduleEnv
  rw [show l.nodes = r.nodes from congrArg Setup.nodes hs,
    show l.triggerTable = r.triggerTable from congrArg Setup.triggerTable hs,
    show l.triggerToNodes = r.triggerToNodes from congrArg Setup.triggerToNodes hs,
    show l.fallbackMap = r.fallbackMap from congrArg Setup.fallbackMap hs,
    show l.errorHandlerMap = r.errorHandlerMap from congrArg Setup.errorHandlerMap hs]

theorem needsSpawn_of_view (n : String) : l.runnerEnv.needsSpawn n = r.runnerEnv.needsSpawn n := by
  have hs := setup_of_view h
  unfold RunnerEnv.needsSpawn RunnerEnv.recovers runnerEnv
  rw [show l.errorHandlerMap = r.errorHandlerMap from congrArg Setup.errorHandlerMap hs,
    show l.fallbackMap = r.fallbackMap from congrArg Setup.fallbackMap hs,
    show l.retryPolicies = r.retryPolicies from congrArg Setup.retryPolicies hs,
    show l.timeoutPolicies = r.timeoutPolicies from congrArg Setup.timeoutPolicies hs]

/-- The same superstep runs inline. -/
theorem inlineTask_of_view :
    (inlineTask l.runnerEnv l.pendingTasks).map PendingTask.anon =
      (inlineTask r.runnerEnv r.pendingTasks).map PendingTask.anon := by
  have ht := tasks_of_view h
  have hspawn := needsSpawn_of_view h
  revert ht
  cases l.pendingTasks with
  | nil =>
    cases r.pendingTasks with
    | nil => exact fun _ => rfl
    | cons t' ts' =>
      intro ht
      cases ht
  | cons t ts =>
    cases r.pendingTasks with
    | nil =>
      intro ht
      cases ht
    | cons t' ts' =>
      intro ht
      obtain ⟨hhead, htail⟩ := List.cons.inj ht
      cases ts with
      | nil =>
        obtain rfl : ts' = [] := List.map_eq_nil_iff.1 htail.symm
        obtain ⟨hname, -⟩ := PendingTask.anon_eq_iff.1 hhead
        simp only [inlineTask, hspawn, hname]
        split_ifs
        · rfl
        · exact congrArg some hhead
      | cons u us =>
        cases ts' with
        | nil => cases htail
        | cons u' us' => rfl

end Common

/-! ### The runner -/

/-- Tasks that differ in their identifiers are spawned alike if each has the same program. -/
theorem spawnTasks_congr {env env' : RunnerEnv S σ} {state state' : S}
    {ts ts' : List (PendingTask S)} (ht : SameTasks ts ts')
    (hprog : ∀ t ∈ ts, ∀ t', t.anon = t'.anon → env.taskProg state t = env'.taskProg state' t') :
    spawnTasks env state ts = spawnTasks env' state' ts' := by
  induction ts generalizing ts' with
  | nil =>
    cases ts' with
    | nil => rfl
    | cons t' ts' => cases ht
  | cons t ts ih =>
    cases ts' with
    | nil => cases ht
    | cons t' ts' =>
      obtain ⟨hhead, htail⟩ := List.cons.inj ht
      unfold spawnTasks
      rw [hprog t List.mem_cons_self t' hhead,
        ih htail fun u hu => hprog u (List.mem_cons_of_mem t hu)]

section Runner

variable (h : l.view = r.view) (hplain : l.setup.Plain)

include h hplain

/-- The nodes are called alike. -/
theorem nodeCall_of_view {t t' : PendingTask S} (ht : t.anon = t'.anon) :
    l.runnerEnv.nodeCall l.state t = r.runnerEnv.nodeCall r.state t' := by
  obtain ⟨hname, -, hstate, -⟩ := PendingTask.anon_eq_iff.1 ht
  have hnodes : l.nodes = r.nodes := congrArg Setup.nodes (setup_of_view h)
  have hblind := hplain.blind t.nodeName
  unfold RunnerEnv.nodeCall runnerEnv
  rw [← hname, ← hnodes, ← hstate, ← state_of_view h]
  cases hn : l.nodes.lookup t.nodeName with
  | none => rfl
  | some node => exact congrArg Except.ok (hblind node hn _ _ _)

theorem taskProg_of_view {t t' : PendingTask S} (ht : t.anon = t'.anon) :
    l.runnerEnv.taskProg l.state t = r.runnerEnv.taskProg r.state t' := by
  have hretry : l.retryPolicies = r.retryPolicies := congrArg Setup.retryPolicies (setup_of_view h)
  have hcall := nodeCall_of_view h hplain ht
  obtain ⟨hname, -⟩ := PendingTask.anon_eq_iff.1 ht
  unfold RunnerEnv.taskProg
  rw [hcall, hname, show l.runnerEnv.retryPolicies = r.runnerEnv.retryPolicies from hretry]

theorem spawnTasks_of_view {ts ts' : List (PendingTask S)} (ht : SameTasks ts ts') :
    spawnTasks l.runnerEnv l.state ts = spawnTasks r.runnerEnv r.state ts' :=
  spawnTasks_congr ht fun _ _ _ hanon => taskProg_of_view h hplain hanon

omit h in
theorem mute_spawnTasks (ts : List (PendingTask S)) :
    ∀ p ∈ (spawnTasks l.runnerEnv l.state ts).1, p.Mute := by
  intro p hp
  obtain ⟨i, hi⟩ := List.getElem?_of_mem hp
  obtain ⟨t, -, hprog⟩ := spawnTasks_getElem? hi
  unfold RunnerEnv.taskProg RunnerEnv.nodeCall at hprog
  have hmute := hplain.mute t.nodeName
  cases hn : l.runnerEnv.nodes.lookup t.nodeName with
  | none => simp [hn] at hprog
  | some node =>
    have hcall := hmute node hn (t.stateOverride.getD l.state) l.runnerEnv.config
    rw [hn] at hprog
    cases hretry : l.runnerEnv.retryPolicies.lookup t.nodeName with
    | none =>
      simp only [hretry] at hprog
      cases hprog
      exact hcall
    | some policy =>
      simp only [hretry] at hprog
      cases hprog
      exact hcall.executeWithRetry t.nodeName policy

variable [InterruptHash] {round : Round S}

/-- The spawned tasks move in lockstep. -/
theorem lockstep_of_view (hf : (l.spawned round).failure = none)
    (hf' : (r.spawned round).failure = none) :
    Superstep.Lockstep (l.spawned round) (r.spawned round) := by
  have hs := setup_of_view h
  have hlocals : l.spawnEnv.locals = r.spawnEnv.locals := by
    have hprevious := config_of_view h RunnableConfig.previous fun _ => rfl
    have htask := config_of_view h RunnableConfig.taskCachePolicy fun _ => rfl
    have hllm := config_of_view h RunnableConfig.llmCachePolicy fun _ => rfl
    simp only [RunnerEnv.locals, spawnEnv, runnerEnv, hprevious, htask, hllm]
  have henv : l.spawnEnv.Alike r.spawnEnv :=
    { tasks := tasks_of_view h
      locals := hlocals
      permits := config_of_view h RunnableConfig.maxParallelTasks fun _ => rfl
      timeouts := congrArg Setup.timeoutPolicies hs }
  have hstate := state_of_view h
  have hcancelled : l.cancelled = r.cancelled := congrArg View.cancelled h
  have hprogs := spawnTasks_of_view h hplain (tasks_of_view h)
  unfold spawned at hf hf' ⊢
  rw [← hstate] at hprogs
  rw [← hstate, ← hcancelled] at hf' ⊢
  exact Superstep.lockstep_runSpawned henv hprogs (mute_spawnTasks hplain _) hf hf'

theorem runTasks_of_view {a b : SuperstepResult S} (ha : (l.runTasks round).result = .ok a)
    (hb : (r.runTasks round).result = .ok b) :
    (SameOutputs a.taskOutputs b.taskOutputs ∧ a.bubbleUps = b.bubbleUps) ∧
      (l.runTasks round).signals = (r.runTasks round).signals ∧
      (l.runTasks round).cancelled = (r.runTasks round).cancelled := by
  have ht := tasks_of_view h
  have hcancelled : l.cancelled = r.cancelled := congrArg View.cancelled h
  cases hempty : l.pendingTasks.isEmpty with
  | true =>
    have hempty' : r.pendingTasks.isEmpty = true := (isEmpty_of_view h).symm.trans hempty
    simp only [runTasks, Juncture.executeSuperstep, hempty, hempty', if_true] at ha hb ⊢
    cases ha
    cases hb
    exact ⟨⟨rfl, rfl⟩, trivial, hcancelled⟩
  | false =>
    have hempty' : r.pendingTasks.isEmpty = false := (isEmpty_of_view h).symm.trans hempty
    have hinline := inlineTask_of_view h
    rcases hi : inlineTask l.runnerEnv l.pendingTasks with - | t <;>
      rcases hi' : inlineTask r.runnerEnv r.pendingTasks with - | t' <;> rw [hi, hi'] at hinline
    · have hrun := runTasks_of_spawned round (by simpa using hempty) hi
      have hrun' := runTasks_of_spawned round (by simpa using hempty') hi'
      rw [hrun] at ha ⊢
      rw [hrun'] at hb ⊢
      obtain ⟨hf, rfl⟩ := Superstep.outcome_eq_ok_iff.1 ha
      obtain ⟨hf', rfl⟩ := Superstep.outcome_eq_ok_iff.1 hb
      obtain ⟨store, uuid, outputs, heq, hout⟩ := (lockstep_of_view h hplain hf hf').same
      rw [heq]
      exact ⟨⟨hout, rfl⟩, rfl, rfl⟩
    · cases hinline
    · cases hinline
    · have htask : t.anon = t'.anon := Option.some.inj hinline
      rw [runTasks_of_inline round hi] at ha ⊢
      rw [runTasks_of_inline round hi'] at hb ⊢
      obtain ⟨p, command, hp, hc, rfl, hsig, hcan⟩ := executeInline_eq_ok ha
      obtain ⟨p', command', hp', hc', rfl, hsig', hcan'⟩ := executeInline_eq_ok hb
      obtain rfl : p = p' := by
        have hcall := nodeCall_of_view h hplain htask
        rw [hp, hp'] at hcall
        exact Except.ok.inj hcall
      obtain rfl : command = command' := Except.ok.inj (hc.symm.trans hc')
      obtain ⟨hname, htrigger, -⟩ := PendingTask.anon_eq_iff.1 htask
      refine ⟨⟨?_, rfl⟩, hsig.trans hsig'.symm, hcan.trans hcan'.symm⟩
      simp only [SameOutputs, List.map_cons, List.map_nil, TaskOutput.anon, successOutput, hname,
        htrigger]

end Runner

/-! ### Execution -/

section Execution

/-- `Send` states are deserialized alike, and the same one does not deserialize. -/
theorem resolveStateJson_anon {ts ts' : List (PendingTask S)} (ht : SameTasks ts ts') :
    SameTasks (resolveStateJson ts).1 (resolveStateJson ts').1 ∧
      (resolveStateJson ts).2 = (resolveStateJson ts').2 := by
  induction ts generalizing ts' with
  | nil =>
    cases ts' with
    | nil => exact ⟨rfl, rfl⟩
    | cons t' ts' => cases ht
  | cons t ts ih =>
    cases ts' with
    | nil => cases ht
    | cons t' ts' =>
      obtain ⟨hhead, htail⟩ := List.cons.inj ht
      obtain ⟨hname, htrigger, hover, hjson⟩ := PendingTask.anon_eq_iff.1 hhead
      obtain ⟨ihtasks, ihresult⟩ := ih htail
      have hcons : ∀ u u' : PendingTask S, u.anon = u'.anon →
          SameTasks (u :: (resolveStateJson ts).1) (u' :: (resolveStateJson ts').1) :=
        fun u u' hu => congrArg₂ List.cons hu ihtasks
      unfold resolveStateJson
      rw [← hover, ← hjson]
      cases ho : t.stateOverride with
      | some s => exact ⟨hcons t t' hhead, ihresult⟩
      | none =>
        cases hj : t.stateJson with
        | none => exact ⟨hcons t t' hhead, ihresult⟩
        | some json =>
          simp only
          cases (State.fromValue json : Except String S) with
          | ok s =>
            exact ⟨hcons _ _ (PendingTask.anon_eq_iff.2 ⟨hname, htrigger, rfl, rfl⟩), ihresult⟩
          | error e =>
            refine ⟨ht, ?_⟩
            rw [hname]

/-- The prepared loop, when there are no circuit breakers. -/
theorem prepare_of_plain (hplain : l.setup.Plain) {k : PregelLoop S σ}
    {blocked : List (TaskOutput S)} (hk : l.prepare = (k, .ok blocked)) :
    k = { l with pendingTasks := (resolveStateJson l.pendingTasks).1 } ∧ blocked = [] := by
  have hbreakers : l.circuitBreakerConfigs.entries.isEmpty = true := by
    rw [show l.circuitBreakerConfigs = ∅ from hplain.breakers]
    rfl
  unfold prepare at hk
  split at hk
  · cases hk
  · rename_i tasks htasks
    simp only [checkCircuitBreakers, hbreakers, if_true] at hk
    cases hk
    rw [htasks]
    exact ⟨rfl, rfl⟩

variable [InterruptHash] {round : Round S}

theorem runPrepared_eq_ok {l₁ : PregelLoop S σ} {a : SuperstepResult S}
    (ha : l.runPrepared round [] = (l₁, .ok a)) :
    (l.runTasks round).result = .ok a ∧
      l₁.view = { l.view with
        cancelled := (l.runTasks round).cancelled
        interruptRx := some (l.runTasks round).signals } := by
  unfold runPrepared at ha
  cases hr : (l.runTasks round).result with
  | error e =>
    simp only [hr] at ha
    cases ha
  | ok result =>
    simp only [hr, List.append_nil] at ha
    cases ha
    exact ⟨rfl, rfl⟩

/-- **The supersteps of alike loops**, if they end well. -/
theorem executeSuperstep_of_view (h : l.view = r.view) (hplain : l.setup.Plain)
    {l₁ r₁ : PregelLoop S σ} {a b : SuperstepResult S}
    (ha : l.executeSuperstep round = (l₁, .ok a)) (hb : r.executeSuperstep round = (r₁, .ok b)) :
    l₁.view = r₁.view ∧ l₁.setup = l.setup ∧ SameOutputs a.taskOutputs b.taskOutputs ∧
      a.bubbleUps = b.bubbleUps := by
  obtain ⟨k, blocked, hk, ha⟩ := andThen_eq_ok_iff.1 ha
  obtain ⟨k', blocked', hk', hb⟩ := andThen_eq_ok_iff.1 hb
  have hplain' : r.setup.Plain := setup_of_view h ▸ hplain
  obtain ⟨rfl, rfl⟩ := prepare_of_plain hplain hk
  obtain ⟨rfl, rfl⟩ := prepare_of_plain hplain' hk'
  have hview : { l with pendingTasks := (resolveStateJson l.pendingTasks).1 }.view =
      { r with pendingTasks := (resolveStateJson r.pendingTasks).1 }.view := by
    have hts : (resolveStateJson l.pendingTasks).1.map PendingTask.anon =
        (resolveStateJson r.pendingTasks).1.map PendingTask.anon :=
      (resolveStateJson_anon (tasks_of_view h)).1
    exact congrArg₂ (fun (v : View S) ts => { v with tasks := ts }) h hts
  obtain ⟨hra, hva⟩ := runPrepared_eq_ok ha
  obtain ⟨hrb, hvb⟩ := runPrepared_eq_ok hb
  obtain ⟨⟨hout, hbubble⟩, hsignals, hcancelled⟩ := runTasks_of_view hview hplain hra hrb
  refine ⟨?_, congrArg View.setup hva, hout, hbubble⟩
  rw [hva, hvb, hview, hsignals, hcancelled]

end Execution

/-! ### After the superstep -/

section Frames

variable (l)

theorem view_finishAllChannels : l.finishAllChannels.view = l.view.finish := by
  unfold finishAllChannels View.finish
  by_cases hf : l.channelsFinished = true
  · rw [if_pos hf, if_pos (show l.view.channelsFinished = true from hf)]
  · rw [if_neg hf, if_neg (show ¬ l.view.channelsFinished = true from hf)]
    rfl

@[simp] theorem view_putCheckpoint (cp : CheckpointSaver σ) (c : Checkpoint)
    (m : CheckpointMetadata) : (l.putCheckpoint cp c m).1.view = l.view := by
  unfold putCheckpoint
  split <;> rfl

@[simp] theorem view_writeCheckpoint (cp : CheckpointSaver σ) (c : Checkpoint)
    (m : CheckpointMetadata) : (l.writeCheckpoint cp c m).1.view = l.view := by
  have hput := l.view_putCheckpoint cp c m
  unfold writeCheckpoint
  split
  · rfl
  all_goals
    unfold andThen
    split <;> rename_i hk <;> rw [hk] at hput <;> exact hput

@[simp] theorem view_saveSuperstepCheckpoint : l.saveSuperstepCheckpoint.1.view = l.view := by
  unfold saveSuperstepCheckpoint
  split_ifs
  · rfl
  · split
    · exact l.view_writeCheckpoint _ _ _
    · rfl

@[simp] theorem view_saveExitCheckpoint : l.saveExitCheckpoint.view = l.view := by
  unfold saveExitCheckpoint
  split
  · exact l.view_putCheckpoint _ _ _
  · rfl

end Frames

theorem view_countStep (l : PregelLoop S σ) :
    l.countStep.view = if l.pendingTasks.isEmpty then l.view.finish else l.view := by
  have hstep : ∀ k : PregelLoop S σ, { k with
      step := k.step + 1
      budgetTracker := k.budgetTracker.map BudgetTracker.reportStep }.view = k.view := fun _ => rfl
  unfold countStep
  rw [hstep]
  split_ifs
  · rw [view_saveExitCheckpoint, view_finishAllChannels]
  · exact l.view_finishAllChannels
  · rfl

/-- The reports of subgraphs. -/
theorem handleBubbleUps_of_view (h : l.view = r.view) (bubbleUps : List (BubbleUp S)) :
    (l.handleBubbleUps bubbleUps).1.view = (r.handleBubbleUps bubbleUps).1.view ∧
      (l.handleBubbleUps bubbleUps).2 = (r.handleBubbleUps bubbleUps).2 := by
  refine List.foldl_rel (r := fun a b : PregelLoop S σ × Bool => a.1.view = b.1.view ∧ a.2 = b.2)
    ⟨h, rfl⟩ ?_
  rintro u - ⟨a, stopped⟩ ⟨b, stopped'⟩ ⟨hv, rfl⟩
  have hstatus : ∀ status, { a.view with status } = { b.view with status } :=
    fun status => congrArg (fun v : View S => { v with status }) hv
  cases u with
  | interrupt i => exact ⟨hstatus _, rfl⟩
  | drained d => exact ⟨hstatus _, rfl⟩
  | parentCommand c =>
    refine ⟨?_, rfl⟩
    have hstate : a.state = b.state := state_of_view hv
    show (a.handleParentCommand c).view = (b.handleParentCommand c).view
    unfold handleParentCommand
    cases c.command.update with
    | none => exact hv
    | some update =>
      simp only [hstate]
      rcases State.tryApply b.state update with ⟨s, e | changed⟩
      · exact congrArg (fun v : View S => { v with state := s }) hv
      · exact congrArg (fun v : View S => { v with state := s }) hv

theorem setup_handleBubbleUps (l : PregelLoop S σ) (bubbleUps : List (BubbleUp S)) :
    (l.handleBubbleUps bubbleUps).1.setup = l.setup := by
  obtain ⟨_, _, _, _, heq⟩ := l.handleBubbleUps_eq bubbleUps
  rw [heq]
  rfl

/-- The last phase of a superstep that does not halt the loop. -/
theorem finishTick_of_not_halted [InterruptHash] {bubbleUps : List (BubbleUp S)}
    {l' : PregelLoop S σ} (hl : l.finishTick bubbleUps = (l', .ok ()))
    (hhalt : l'.status.halted = false) :
    l' = ({ l with interruptRx := none }.handleBubbleUps bubbleUps).1.countStep := by
  have hstop : ∀ k : PregelLoop S σ, k.status.halted = true → k.stop = (l', .ok ()) → False := by
    intro k hk hs
    rw [(halted_of_stop rfl hk hs).1] at hhalt
    cases hhalt
  have hrep := reported_handleBubbleUps { l with interruptRx := none } bubbleUps
  unfold finishTick at hl
  dsimp only at hl
  generalize { l with interruptRx := none }.handleBubbleUps bubbleUps = q at hl hrep ⊢
  obtain ⟨k, stopped⟩ := q
  split_ifs at hl with hsig hst
  · have hst : stopped = true := hst
    have hrep := hrep.2
    rw [hst] at hrep
    exact (hstop k hrep hl).elim
  · split at hl
    · exact (hstop (k.seeVersions.raise _ _) rfl hl).elim
    · cases hl
      rfl
  · exact (hstop ({ l with interruptRx := none }.raise _ _) rfl hl).elim

/-- The last phase, when neither loop is halted. -/
theorem finishTick_of_view [InterruptHash] (h : l.view = r.view)
    {bubbleUps : List (BubbleUp S)} {l' r' : PregelLoop S σ}
    (hl : l.finishTick bubbleUps = (l', .ok ())) (hr : r.finishTick bubbleUps = (r', .ok ()))
    (hl' : l'.status.halted = false) (hr' : r'.status.halted = false) :
    l'.view = r'.view ∧ l'.setup = l.setup := by
  have hclear : { l with interruptRx := none }.view = { r with interruptRx := none }.view :=
    congrArg (fun v : View S => { v with interruptRx := none }) h
  obtain ⟨hview, -⟩ := handleBubbleUps_of_view hclear bubbleUps
  have hsetup := setup_handleBubbleUps { l with interruptRx := none } bubbleUps
  rw [finishTick_of_not_halted hl hl', finishTick_of_not_halted hr hr']
  refine ⟨?_, ?_⟩
  · rw [view_countStep, view_countStep, isEmpty_of_view hview, hview]
  · have hcount := congrArg View.setup
      ({ l with interruptRx := none }.handleBubbleUps bubbleUps).1.view_countStep
    split_ifs at hcount
    · exact hcount.trans ((View.setup_finish _).trans hsetup)
    · exact hcount.trans hsetup

/-- The loop that the next tasks are computed in. -/
theorem view_committed (hplain : l.setup.Plain) {a : SuperstepResult S} {l₁ : PregelLoop S σ}
    {changed : FieldsChanged} (hl : l.mergeWrites a.taskOutputs = (l₁, .ok changed)) :
    ∃ s, mergeAll l.state (l.batch a) = some (s, changed) ∧
      (l.committed a).view = { l.view with state := State.resetEphemeral s } := by
  obtain ⟨-, s, hs, -, rfl⟩ := mergeWrites_eq_ok_iff.1 hl
  -- consuming fields does nothing, so the state is only reset
  have hconsume : ∀ (is : List ℕ) (s : S), is.foldl State.consumeField s = s :=
    fun is s => List.foldl_fixed' (hplain.consumed s) is
  have hcommit : ∀ (k : PregelLoop S σ) versions c os, (k.commitWrites versions c os).view =
      { k.view with state := State.resetEphemeral k.state } := by
    intro k versions c os
    have hstate : (k.commitWrites versions c os).state = State.resetEphemeral k.state :=
      congrArg State.resetEphemeral (hconsume _ _)
    show { k.view with state := (k.commitWrites versions c os).state } = _
    rw [hstate]
  refine ⟨s, hs, ?_⟩
  unfold committed
  rw [hl]
  exact hcommit _ _ _ _

/-- The merge. -/
theorem committed_of_view (h : l.view = r.view) (hplain : l.setup.Plain)
    {a b : SuperstepResult S} (hout : SameOutputs a.taskOutputs b.taskOutputs)
    {l₁ r₁ : PregelLoop S σ} {changed changed' : FieldsChanged}
    (hl : l.mergeWrites a.taskOutputs = (l₁, .ok changed))
    (hr : r.mergeWrites b.taskOutputs = (r₁, .ok changed')) :
    (l.committed a).view = (r.committed b).view ∧ (l.committed a).setup = l.setup := by
  have hregistration : l.nodeRegistration = r.nodeRegistration :=
    congrArg Setup.nodeRegistration (setup_of_view h)
  obtain ⟨s, hs, hvl⟩ := view_committed hplain hl
  obtain ⟨s', hs', hvr⟩ := view_committed (setup_of_view h ▸ hplain) hr
  have hbatch : l.batch a = r.batch b := by
    unfold batch
    rw [hregistration]
    exact hout.executed.mergedUpdates_eq _
  obtain rfl : s = s' := by
    rw [hbatch, state_of_view h, hs'] at hs
    exact (congrArg Prod.fst (Option.some.inj hs)).symm
  refine ⟨?_, congrArg View.setup hvl⟩
  rw [hvl, hvr, h]

theorem persistedWrites_of_plain (hplain : l.setup.Plain) : l.persistedWrites.2 = [] := by
  have hhandlers : l.errorHandlerMap.entries.isEmpty = true := by
    rw [show l.errorHandlerMap = ∅ from hplain.handlers]
    rfl
  unfold persistedWrites
  split
  · rfl
  · rw [if_pos hhandlers]

theorem scheduleTasks_eq_ok (hplain : l.setup.Plain) {os : List (TaskOutput S)}
    {l' : PregelLoop S σ} (hl : l.scheduleTasks os = (l', .ok ())) :
    ∃ ts, scheduleNext l.scheduleEnv l.nextUuid (executedOutputs os) l.state [] = .ok ts ∧
      l'.view = { l.view with tasks := ts.map PendingTask.anon } := by
  unfold scheduleTasks at hl
  rw [persistedWrites_of_plain hplain] at hl
  rcases hn : scheduleNext l.scheduleEnv l.nextUuid (executedOutputs os) l.state [] with e | ts
  · simp only [hn] at hl
    cases hl
  · simp only [hn] at hl
    cases hl
    exact ⟨ts, rfl, rfl⟩

/-- The scheduling. -/
theorem scheduleTasks_of_view (h : l.view = r.view) (hplain : l.setup.Plain)
    {os os' : List (TaskOutput S)} (hout : SameOutputs os os') {l' r' : PregelLoop S σ}
    (hl : l.scheduleTasks os = (l', .ok ())) (hr : r.scheduleTasks os' = (r', .ok ())) :
    l'.view = r'.view ∧ l'.setup = l.setup := by
  have hplain' : r.setup.Plain := setup_of_view h ▸ hplain
  have hanon := scheduleNext_anon l.nextUuid r.nextUuid hout.executed l.scheduleEnv l.state []
  obtain ⟨ts, hts, hl'⟩ := scheduleTasks_eq_ok hplain hl
  obtain ⟨ts', hts', hr'⟩ := scheduleTasks_eq_ok hplain' hr
  rw [← scheduleEnv_of_view h, ← state_of_view h] at hts'
  rw [hts, hts'] at hanon
  have hanon : ts.map PendingTask.anon = ts'.map PendingTask.anon := Except.ok.inj hanon
  refine ⟨?_, congrArg View.setup hl'⟩
  rw [hl', hr', h, hanon]

/-- The phases of `after_tick` up to the last one, on alike loops. -/
theorem beforeFinish_of_view (h : l.view = r.view) (hplain : l.setup.Plain)
    {a b : SuperstepResult S} (hout : SameOutputs a.taskOutputs b.taskOutputs)
    {l₁ l₂ l₃ r₁ r₂ r₃ : PregelLoop S σ} {c c' : FieldsChanged}
    (hl₁ : l.mergeWrites a.taskOutputs = (l₁, .ok c))
    (hl₂ : (l.committed a).scheduleTasks a.taskOutputs = (l₂, .ok ()))
    (hl₃ : { l₂ with previousSuperstepChangedFields := c }.saveSuperstepCheckpoint = (l₃, .ok ()))
    (hr₁ : r.mergeWrites b.taskOutputs = (r₁, .ok c'))
    (hr₂ : (r.committed b).scheduleTasks b.taskOutputs = (r₂, .ok ()))
    (hr₃ : { r₂ with previousSuperstepChangedFields := c' }.saveSuperstepCheckpoint =
      (r₃, .ok ())) :
    l₃.view = r₃.view ∧ l₃.setup = l.setup := by
  obtain ⟨hcommit, hset₁⟩ := committed_of_view h hplain hout hl₁ hr₁
  obtain ⟨hsched, hset₂⟩ := scheduleTasks_of_view hcommit (hset₁ ▸ hplain) hout hl₂ hr₂
  have hsave := view_saveSuperstepCheckpoint { l₂ with previousSuperstepChangedFields := c }
  have hsave' := view_saveSuperstepCheckpoint { r₂ with previousSuperstepChangedFields := c' }
  rw [hl₃] at hsave
  rw [hr₃] at hsave'
  exact ⟨hsave.trans (hsched.trans hsave'.symm),
    (congrArg View.setup hsave).trans (hset₂.trans hset₁)⟩

/-- **`after_tick` on alike loops**, if it succeeds and does not halt them. -/
theorem afterTick_of_view [InterruptHash] (h : l.view = r.view) (hplain : l.setup.Plain)
    {a b : SuperstepResult S} (hout : SameOutputs a.taskOutputs b.taskOutputs)
    (hbubble : a.bubbleUps = b.bubbleUps) {l' r' : PregelLoop S σ}
    (hl : l.afterTick a = (l', .ok ())) (hr : r.afterTick b = (r', .ok ()))
    (hl' : l'.status.halted = false) (hr' : r'.status.halted = false) :
    l'.view = r'.view ∧ l'.setup = l.setup := by
  obtain ⟨l₁, c, l₂, l₃, hl₁, hl₂, hl₃, hl₄⟩ := afterTick_eq_ok_iff.1 hl
  obtain ⟨r₁, c', r₂, r₃, hr₁, hr₂, hr₃, hr₄⟩ := afterTick_eq_ok_iff.1 hr
  obtain ⟨hview, hset⟩ := beforeFinish_of_view h hplain hout hl₁ hl₂ hl₃ hr₁ hr₂ hr₃
  rw [← hbubble] at hr₄
  obtain ⟨hend, hset'⟩ := finishTick_of_view hview hl₄ hr₄ hl' hr'
  exact ⟨hend, hset'.trans hset⟩

/-- `after_tick` on alike loops leaves the same tasks pending, whether it halts them or not. -/
theorem tasks_of_afterTick [InterruptHash] (h : l.view = r.view) (hplain : l.setup.Plain)
    {a b : SuperstepResult S} (hout : SameOutputs a.taskOutputs b.taskOutputs)
    {l' r' : PregelLoop S σ} (hl : l.afterTick a = (l', .ok ()))
    (hr : r.afterTick b = (r', .ok ())) : SameTasks l'.pendingTasks r'.pendingTasks := by
  obtain ⟨l₁, c, l₂, l₃, hl₁, hl₂, hl₃, hl₄⟩ := afterTick_eq_ok_iff.1 hl
  obtain ⟨r₁, c', r₂, r₃, hr₁, hr₂, hr₃, hr₄⟩ := afterTick_eq_ok_iff.1 hr
  obtain ⟨hview, -⟩ := beforeFinish_of_view h hplain hout hl₁ hl₂ hl₃ hr₁ hr₂ hr₃
  have hkeep : ∀ {k k' : PregelLoop S σ} {bs : List (BubbleUp S)},
      k.finishTick bs = (k', .ok ()) → k'.pendingTasks = k.pendingTasks := by
    intro k k' bs hk
    obtain ⟨-, hc⟩ | hp := finishTick_progress hk
    · exact congrArg Course.pendingTasks hc
    · exact congrArg (fun p => p.1.pendingTasks) hp
  rw [hkeep hl₄, hkeep hr₄]
  exact tasks_of_view hview

/-! ### Whole runs -/

theorem view_outside (l : PregelLoop S σ) (round : Round S) :
    (l.outside round).view = { l.view with cancelled := l.cancelled || round.cancel } := by
  obtain ⟨_, _, h⟩ := l.outside_eq round
  rw [h]
  rfl

theorem outside_of_view (h : l.view = r.view) (round : Round S) :
    (l.outside round).view = (r.outside round).view := by
  rw [view_outside, view_outside, h, show l.cancelled = r.cancelled from congrArg View.cancelled h]

variable [InterruptHash]

/-- The first half of a turn of alike loops.  Reports of subgraphs come after it. -/
theorem superstep_of_view {round round' : Round S}
    (hround : round.silent = round'.silent) (h : l.view = r.view)
    (hplain : l.setup.Plain) {l₁ r₁ : PregelLoop S σ} {a b : SuperstepResult S}
    (hl : l.superstep round = some (l₁, a)) (hr : r.superstep round' = some (r₁, b)) :
    l₁.view = r₁.view ∧ l₁.setup = l.setup ∧ SameOutputs a.taskOutputs b.taskOutputs ∧
      (round.bubbleUps = round'.bubbleUps → a.bubbleUps = b.bubbleUps) := by
  obtain ⟨-, a', ha, rfl⟩ := superstep_eq_some_iff.1 hl
  obtain ⟨-, b', hb, rfl⟩ := superstep_eq_some_iff.1 hr
  have hsetup : (l.outside round).setup = l.setup := congrArg View.setup (l.view_outside round)
  have hb : (r.outside round).executeSuperstep round = (r₁, .ok b') := by
    show (r.outside round.silent).executeSuperstep round.silent = _
    rw [hround]
    exact hb
  obtain ⟨hview, hset, hout, hbubble⟩ :=
    executeSuperstep_of_view (outside_of_view h round) (hsetup ▸ hplain) ha hb
  exact ⟨hview, hset.trans hsetup, hout, fun heq => congrArg₂ (· ++ ·) hbubble heq⟩

/-- **A turn of alike loops** that halts neither leads to alike loops. -/
theorem turn_of_view {round : Round S} (h : l.view = r.view) (hplain : l.setup.Plain)
    {l' r' : PregelLoop S σ} (hl : l.turn round = some l') (hr : r.turn round = some r')
    (hl' : l'.status.halted = false) (hr' : r'.status.halted = false) :
    l'.view = r'.view ∧ l'.setup = l.setup := by
  obtain ⟨l₁, a, hl₁, hl⟩ := turn_eq_some_iff.1 hl
  obtain ⟨r₁, b, hr₁, hr⟩ := turn_eq_some_iff.1 hr
  obtain ⟨hview, hset, hout, hbubble⟩ := superstep_of_view rfl h hplain hl₁ hr₁
  obtain ⟨hend, hset'⟩ :=
    afterTick_of_view hview (hset ▸ hplain) hout (hbubble rfl) hl hr hl' hr'
  exact ⟨hend, hset'.trans hset⟩

/-- **A turn of alike loops leaves the same tasks pending**, whether they are halted or not. -/
theorem tasks_of_turn {round round' : Round S}
    (hround : round.silent = round'.silent) (h : l.view = r.view)
    (hplain : l.setup.Plain) {l' r' : PregelLoop S σ} (hl : l.turn round = some l')
    (hr : r.turn round' = some r') : SameTasks l'.pendingTasks r'.pendingTasks := by
  obtain ⟨l₁, a, hl₁, hl⟩ := turn_eq_some_iff.1 hl
  obtain ⟨r₁, b, hr₁, hr⟩ := turn_eq_some_iff.1 hr
  obtain ⟨hview, hset, hout, -⟩ := superstep_of_view hround h hplain hl₁ hr₁
  exact tasks_of_afterTick hview (hset ▸ hplain) hout hl hr

/-! ### Loops that have not been halted -/

/-- A loop between two turns that has never been halted. -/
structure Fresh (l : PregelLoop S σ) : Prop where
  /-- It is running. -/
  status : l.status = .running
  /-- Its interrupt channel has been drained. -/
  drained : l.interruptRx = none
  /-- Its channels are finished only if nothing is pending. -/
  open_ : l.pendingTasks ≠ [] → l.channelsFinished = false

omit [InterruptHash] in
theorem handleBubbleUps_flags (l : PregelLoop S σ) (bubbleUps : List (BubbleUp S)) :
    (l.handleBubbleUps bubbleUps).1.interruptRx = l.interruptRx ∧
      (l.handleBubbleUps bubbleUps).1.channelsFinished = l.channelsFinished := by
  obtain ⟨_, _, _, _, heq⟩ := l.handleBubbleUps_eq bubbleUps
  rw [heq]
  exact ⟨rfl, rfl⟩

/-- A turn that does not halt a fresh loop leaves a fresh loop. -/
theorem Fresh.turn {round : Round S} (h : l.Fresh) (hplain : l.setup.Plain) {l' : PregelLoop S σ}
    (hl : l.turn round = some l') (hl' : l'.status.halted = false) : l'.Fresh := by
  obtain ⟨l₁, a, hl₁, hl⟩ := turn_eq_some_iff.1 hl
  obtain ⟨hgo, a', ha, rfl⟩ := superstep_eq_some_iff.1 hl₁
  have hopen : l.channelsFinished = false := h.open_ (by simpa using hgo.pending)
  have hstatus : l'.status = .running := by
    obtain ⟨-, -, -, ⟨hhalt, -⟩ | ⟨hkeep, -⟩⟩ := turn_course hl₁ hl
    · rw [hl'] at hhalt
      cases hhalt
    · rw [hkeep, h.status]
  -- the phases before the last one leave the channels alone
  have hsetup : (l.outside round).setup = l.setup := congrArg View.setup (l.view_outside round)
  obtain ⟨k, blocked, hk, ha⟩ := andThen_eq_ok_iff.1 ha
  obtain ⟨rfl, rfl⟩ := prepare_of_plain (hsetup ▸ hplain) hk
  obtain ⟨-, hv₁⟩ := runPrepared_eq_ok ha
  have hplain₁ : l₁.setup.Plain := by
    rw [show l₁.setup = (l.outside round).setup from congrArg View.setup hv₁, hsetup]
    exact hplain
  have hopen₁ : l₁.channelsFinished = false :=
    (congrArg View.channelsFinished hv₁).trans
      ((congrArg View.channelsFinished (l.view_outside round)).trans hopen)
  obtain ⟨m₁, c, m₂, m₃, hm₁, hm₂, hm₃, hm₄⟩ := afterTick_eq_ok_iff.1 hl
  obtain ⟨s, -, hv₂⟩ := view_committed hplain₁ hm₁
  have hplain₂ : (l₁.committed { a' with bubbleUps := a'.bubbleUps ++ round.bubbleUps }).setup.Plain := by
    rw [show PregelLoop.setup _ = l₁.setup from congrArg View.setup hv₂]
    exact hplain₁
  obtain ⟨ts, -, hv₃⟩ := scheduleTasks_eq_ok hplain₂ hm₂
  have hv₄ := view_saveSuperstepCheckpoint { m₂ with previousSuperstepChangedFields := c }
  rw [hm₃] at hv₄
  have hopen₃ : m₃.channelsFinished = false :=
    (congrArg View.channelsFinished hv₄).trans ((congrArg View.channelsFinished hv₃).trans
      ((congrArg View.channelsFinished hv₂).trans hopen₁))
  have heq := finishTick_of_not_halted hm₄ hl'
  set m₄ : PregelLoop S σ := { m₃ with interruptRx := none } with hm
  obtain ⟨hrx, hfin⟩ := m₄.handleBubbleUps_flags (a'.bubbleUps ++ round.bubbleUps)
  have hcount := view_countStep (m₄.handleBubbleUps (a'.bubbleUps ++ round.bubbleUps)).1
  have hpending : l'.pendingTasks =
      (m₄.handleBubbleUps (a'.bubbleUps ++ round.bubbleUps)).1.pendingTasks := by
    rw [heq]
    exact congrArg (fun p : Course S × LoopStatus => p.1.pendingTasks) (progress_countStep _)
  refine ⟨hstatus, ?_, fun hne => ?_⟩
  · have hrx' := congrArg View.interruptRx hcount
    rw [heq]
    split_ifs at hrx'
    · exact hrx'.trans ((View.interruptRx_finish _).trans hrx)
    · exact hrx'.trans hrx
  · have hempty :
        ¬ (m₄.handleBubbleUps (a'.bubbleUps ++ round.bubbleUps)).1.pendingTasks.isEmpty = true := by
      rw [← hpending]
      simpa using hne
    rw [if_neg hempty] at hcount
    rw [heq]
    exact (congrArg View.channelsFinished hcount).trans (hfin.trans hopen₃)

/-- No superstep of the first `n` halts the loop. -/
def Unhalted (l₀ : PregelLoop S σ) (rounds : ℕ → Round S) (n : ℕ) : Prop :=
  ∀ m ≤ n, ∀ l, l₀.head rounds m = some l → l.status.halted = false

/-- The run from the loop completes in the given state: no superstep halts it, and it ends because
nothing is pending any more or because it is cancelled. -/
def CompletesIn (l₀ : PregelLoop S σ) (rounds : ℕ → Round S) (s : S) : Prop :=
  ∃ n l l', l₀.head rounds n = some l ∧ l₀.Unhalted rounds n ∧
    (l.outside (rounds n)).tick = (l', .ok false) ∧ l'.status.isInterrupted = false ∧ l'.state = s

/-- A run ends with its channels finished. -/
theorem state_of_tick {l' : PregelLoop S σ} (h : l.tick = (l', .ok false)) :
    l'.state = l.view.finish.state := by
  have hfinish : ∀ k : PregelLoop S σ, k.state = l.state → k.channelsFinished = l.channelsFinished →
      k.finishAllChannels.state = l.view.finish.state := by
    intro k hs hf
    rw [← view_finishAllChannels]
    show k.finishAllChannels.state = l.finishAllChannels.state
    unfold finishAllChannels
    rw [hf]
    split_ifs
    · exact hs
    · rw [hs]
  unfold tick at h
  split_ifs at h
  · cases h
  · cases h
    exact hfinish _ rfl rfl
  · split at h
    · cases h
    · cases h
      exact hfinish l rfl rfl
  · split at h
    · cases h
    · split at h
      · cases h
        exact hfinish (l.seeVersions.raise _ _) rfl rfl
      · cases h

/-- Where one loop is at its end, an alike one does not go on. -/
theorem not_goesOn_of_view (h : l.view = r.view) {l' : PregelLoop S σ}
    (hl : l.tick = (l', .ok false)) (hint : l'.status.isInterrupted = false) : ¬ r.GoesOn := by
  intro hgo
  have ht := l.ticks_tick
  rw [hl] at ht
  generalize hstatus : l'.status = status at ht
  cases ht with
  | cancelled _ hc =>
    have hcancelled : l.cancelled = r.cancelled := congrArg View.cancelled h
    rw [hcancelled, hgo.cancelled] at hc
    cases hc
  | done _ _ _ hp =>
    have hempty := isEmpty_of_view h
    rw [hp] at hempty
    exact hgo.pending (by simpa using hempty.symm)
  | interrupt signals =>
    rw [hstatus] at hint
    cases hint

/-- A run that gets past round `n` goes on there. -/
theorem goesOn_of_head {rounds : ℕ → Round S} {n m : ℕ} {x y : PregelLoop S σ}
    (hx : l.head rounds n = some x) (hy : l.head rounds m = some y) (hlt : n < m) :
    (x.outside (rounds n)).GoesOn := by
  by_contra hgo
  have hturn : x.turn (rounds n) = none := by
    rw [Option.eq_none_iff_forall_ne_some]
    intro x' hx'
    obtain ⟨x₁, a, hs, -⟩ := turn_eq_some_iff.1 hx'
    exact hgo (superstep_eq_some_iff.1 hs).1
  exact nomatch (Machine.trace_eq_none_of_lt hx hturn hlt).symm.trans hy

/-- A fresh loop stays fresh as long as nothing halts it. -/
theorem Fresh.head (h : l.Fresh) (hplain : l.setup.Plain) {rounds : ℕ → Round S} {n : ℕ}
    {x : PregelLoop S σ} (hx : l.head rounds n = some x) (hn : l.Unhalted rounds n) : x.Fresh := by
  refine (Machine.trace_simulation (R := fun m x y => m ≤ n → (x.view = y.view ∧ x.setup.Plain) ∧
    x.Fresh) (fun _ => ⟨⟨rfl, hplain⟩, h⟩) ?_ hx hx le_rfl).2
  intro m x y x' y' hx' hy' ih htx hty hm
  obtain ⟨⟨hview, hp⟩, hfresh⟩ := ih (by omega)
  obtain ⟨hview', hset⟩ := turn_of_view hview hp htx hty (hn _ hm x' hx') (hn _ hm y' hy')
  exact ⟨⟨hview', hset ▸ hp⟩, hfresh.turn hp htx (hn _ hm x' hx')⟩

/-- Runs from alike loops stay alike as long as nothing halts them. -/
theorem head_of_view (h : l.view = r.view) (hplain : l.setup.Plain) {rounds rounds' : ℕ → Round S}
    {n : ℕ} (hrounds : ∀ m < n, rounds m = rounds' m) {x y : PregelLoop S σ}
    (hx : l.head rounds n = some x) (hy : r.head rounds' n = some y) (hl : l.Unhalted rounds n)
    (hr : r.Unhalted rounds' n) : x.view = y.view ∧ x.setup = l.setup := by
  refine Machine.trace_simulation (R := fun m x y => m ≤ n → x.view = y.view ∧ x.setup = l.setup)
    (fun _ => ⟨h, rfl⟩) ?_ hx hy le_rfl
  intro m x y x' y' hx' hy' ih htx hty hm
  obtain ⟨hview, hset⟩ := ih (by omega)
  rw [← hrounds m (by omega)] at hty
  obtain ⟨hview', hset'⟩ :=
    turn_of_view hview (hset ▸ hplain) htx hty (hl _ hm x' hx') (hr _ hm y' hy')
  exact ⟨hview', hset'.trans hset⟩

/-- **Alike loops end in the same state**, if their runs complete. -/
theorem finalState_eq (h : l.view = r.view) (hplain : l.setup.Plain) {rounds : ℕ → Round S}
    {s s' : S} (hl : l.CompletesIn rounds s) (hr : r.CompletesIn rounds s') : s = s' := by
  obtain ⟨n, x, x', hx, hxn, hxt, hxi, rfl⟩ := hl
  obtain ⟨m, y, y', hy, hym, hyt, hyi, rfl⟩ := hr
  -- neither run gets past the round in which the other one ends
  obtain hlt | rfl | hlt := lt_trichotomy n m
  · obtain ⟨z, hz⟩ := Machine.exists_of_le hy hlt.le
    obtain ⟨hview, -⟩ := head_of_view h hplain (fun _ _ => rfl) hx hz hxn
      fun k hk => hym k (hk.trans hlt.le)
    refine absurd (goesOn_of_head hz hy hlt) ?_
    exact not_goesOn_of_view (outside_of_view hview _) hxt hxi
  · obtain ⟨hview, -⟩ := head_of_view h hplain (fun _ _ => rfl) hx hy hxn hym
    rw [state_of_tick hxt, state_of_tick hyt, outside_of_view hview]
  · obtain ⟨z, hz⟩ := Machine.exists_of_le hx hlt.le
    obtain ⟨hview, -⟩ := head_of_view h hplain (fun _ _ => rfl) hz hy
      (fun k hk => hxn k (hk.trans hlt.le)) hym
    refine absurd (goesOn_of_head hz hx hlt) ?_
    exact not_goesOn_of_view (outside_of_view hview.symm _) hyt hyi

end PregelLoop

end Juncture
