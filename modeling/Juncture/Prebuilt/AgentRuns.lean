import Juncture.Graph.Breakers
import Juncture.Graph.Persistence
import Juncture.Pregel.Bare
import Juncture.Pregel.Scheduled
import Juncture.Prebuilt.React

/-!
# How long an agent goes on

The two nodes of an agent take turns: after `agent` comes `tools` or nothing, and after `tools` comes
`agent`.  `max_iterations` and `interrupt_before_tools` are part of the configuration, but nothing
of the graph depends on them.

* `AgentRun` : a run of an agent, in a world that each superstep meets anew.
* `AgentRun.names_head` : the two nodes take turns.
* `AgentRun.keepsLimits_iff` : when the two limits are kept.
-/

namespace Juncture

/-! ### The two nodes -/

/-- The node whose turn it is. -/
def nodeAt (n : ℕ) : String := if n % 2 = 0 then "agent" else "tools"

theorem count_nodeAt : [nodeAt n].count "agent" = (n + 1) % 2 := by
  obtain heven | hodd := Nat.mod_two_eq_zero_or_one n
  · rw [nodeAt, if_pos heven, List.count_singleton_self]
    omega
  · rw [nodeAt, if_neg (by omega), Nat.add_mod, hodd]
    decide

/-- After `agent` comes `tools`, when the last message requests a tool. -/
theorem targets_agent (state : MessagesState) :
    (agentTable.edgesOf "agent").flatMap (edgeTargets state) =
      if state.messages.getLast?.any Message.hasToolCalls then ["tools"] else [] := by
  rw [edgesOf_agent, List.flatMap_singleton]
  cases hlast : state.messages.getLast? with
  | none =>
    simp only [edgeTargets, agentRouter, hlast]
    rfl
  | some m =>
    cases hcalls : m.hasToolCalls with
    | false =>
      simp only [edgeTargets, agentRouter, hlast, hcalls, Option.any_some]
      rfl
    | true =>
      simp only [edgeTargets, agentRouter, hlast, hcalls, Option.any_some]
      rfl

/-- After `tools` comes `agent`. -/
theorem targets_tools (state : MessagesState) :
    (agentTable.edgesOf "tools").flatMap (edgeTargets state) = ["agent"] := by
  rw [edgesOf_tools]
  rfl

/-- What comes after one node is the other one, or nothing. -/
theorem FirstOccurrences.eq_nodeAt {state : MessagesState} {names : List String} {n : ℕ}
    (h : FirstOccurrences ((agentTable.edgesOf (nodeAt n)).flatMap (edgeTargets state)) names) :
    names = [] ∨ names = [nodeAt (n + 1)] := by
  obtain heven | hodd := Nat.mod_two_eq_zero_or_one n
  · have hnext : nodeAt (n + 1) = "tools" := if_neg (by omega)
    rw [nodeAt, if_pos heven, targets_agent] at h
    split_ifs at h with hcalls
    · exact .inr (hnext ▸ h.eq_singleton)
    · exact .inl h.eq_nil
  · have hnext : nodeAt (n + 1) = "agent" := if_pos (by omega)
    rw [nodeAt, if_neg (by omega), targets_tools] at h
    exact .inr (hnext ▸ h.eq_singleton)

/-! ### Runs of an agent -/

section Agent

variable {M W σ : Type} [ToolModel M] [MessagesSerde]

/-- What one superstep of an agent meets: its nodes, and its loop. -/
structure AgentTurn (M W : Type) [ToolModel M] [MessagesSerde] where
  /-- Around and during the calls of the nodes. -/
  agent : AgentRound M W
  /-- Around and during the superstep. -/
  round : Round MessagesState

/-- A run of an agent. -/
structure AgentRun (M W σ : Type) [ToolModel M] [MessagesSerde] where
  /-- The model. -/
  model : M
  /-- The tools. -/
  tools : List (DescribedTool W)
  /-- Configuration of the agent. -/
  config : ReactAgentConfig
  /-- The loop at the start. -/
  start : PregelLoop MessagesState σ
  /-- What its supersteps meet. -/
  turns : ℕ → AgentTurn M W

/-- A loop that a call of the graph starts with. -/
inductive CompiledGraph.Starts {S : Type} [State S] (g : CompiledGraph S σ)
    (call : InvokeCall S σ) : PregelLoop S σ → Prop
  | invoke : Starts g call (g.invokeLoop call)
  | stream : Starts g call (g.streamLoop call)
  | executeWithEmitter : Starts g call (g.executeLoop call)

namespace AgentRun

/-- The loop with the nodes as they are in one superstep. -/
def equip (run : AgentRun M W σ) (turn : AgentTurn M W) (l : PregelLoop MessagesState σ) :
    PregelLoop MessagesState σ :=
  { l with nodes := agentNodes run.model run.tools run.config turn.agent }

section Steps

variable [InterruptHash] (run : AgentRun M W σ)

/-- The loop after `n` supersteps. -/
def head : ℕ → Option (PregelLoop MessagesState σ) :=
  Machine.trace (fun l turn => (run.equip turn l).turn turn.round) run.turns run.start

/-- The loop before the tick that decides about superstep `n`. -/
def before (n : ℕ) : Option (PregelLoop MessagesState σ) :=
  (run.head n).map fun l => (run.equip (run.turns n) l).outside (run.turns n).round

/-- The nodes that superstep `n` executes. -/
def executed (n : ℕ) : List String :=
  match (run.before n).map PregelLoop.tick with
  | some (l, .ok true) => l.pendingTasks.map PendingTask.nodeName
  | _ => []

/-- How often the model is called in the first `n` supersteps. -/
def modelCalls (n : ℕ) : ℕ := ((List.range n).flatMap run.executed).count "agent"

/-- The run stops before superstep `n`, at an interrupt. -/
def InterruptedAt (n : ℕ) : Prop :=
  ∃ l, run.before n = some l ∧ l.tick.2 = .ok false ∧
    ∃ signals, l.tick.1.status = .interruptBefore signals

/-- The limits of the configuration are kept. -/
structure KeepsLimits : Prop where
  /-- The model is called at most `max_iterations` times. -/
  iterations : ∀ N, run.config.maxIterations = some N → ∀ n, run.modelCalls n ≤ N
  /-- With `interrupt_before_tools`, no tool is executed before an interrupt. -/
  interrupts : run.config.interruptBeforeTools = true →
    ∀ n, "tools" ∈ run.executed n → ∃ m ≤ n, run.InterruptedAt m

/-- If the run gets to superstep `n`, it ends there: at its recursion limit, cancelled, out of
budget, with nothing left to do, or at an interrupt that the caller has asked for. -/
def StopsAt (n : ℕ) : Prop :=
  ∀ l, run.before n = some l → l.runnableConfig.recursionLimit ≤ l.step ∨ l.cancelled = true ∨
    l.budgetExceeded ≠ none ∨ l.pendingTasks = [] ∨ l.interruptBefore ≠ none

end Steps

end AgentRun

/-! ### The loop of an agent -/

/-- The loop has what the graph of an agent gives it, the nodes apart. -/
structure AgentLoop (l : PregelLoop MessagesState σ) : Prop where
  table : l.triggerTable = agentTable
  triggers : l.triggerToNodes = .fromTriggerTable agentTable
  handlers : l.errorHandlerMap = ∅
  fallbacks : l.fallbackMap = ∅
  retries : l.retryPolicies = ∅
  timeouts : l.timeoutPolicies = ∅
  breakers : l.circuitBreakerConfigs = ∅

namespace AgentLoop

variable {l l' k : PregelLoop MessagesState σ}

theorem fixed (h : AgentLoop l) (hl : l.Fixed l') : AgentLoop l' where
  table := hl.triggerTable.trans h.table
  triggers := hl.triggerToNodes.trans h.triggers
  handlers := hl.errorHandlerMap.trans h.handlers
  fallbacks := hl.fallbackMap.trans h.fallbacks
  retries := hl.retryPolicies.trans h.retries
  timeouts := hl.timeoutPolicies.trans h.timeouts
  breakers := hl.circuitBreakerConfigs.trans h.breakers

/-- No node of an agent needs a task of its own. -/
theorem needsSpawn (h : AgentLoop l) (node : String) : l.runnerEnv.needsSpawn node = false := by
  unfold RunnerEnv.needsSpawn RunnerEnv.recovers PregelLoop.runnerEnv
  rw [h.handlers, h.fallbacks, h.retries, h.timeouts]
  rfl

/-- The one task of an agent is not blocked. -/
theorem prepare {task : PendingTask MessagesState} {blocked : List (TaskOutput MessagesState)}
    (h : AgentLoop l) (htask : l.pendingTasks = [task]) (hk : l.prepare = (k, .ok blocked)) :
    blocked = [] ∧ ∃ task', k.pendingTasks = [task'] ∧ task'.nodeName = task.nodeName := by
  have hkeys := PregelLoop.resolveStateJson_keys l.pendingTasks
  unfold PregelLoop.prepare at hk
  split at hk
  · cases hk
  · rename_i tasks hresolve
    rw [hresolve, htask] at hkeys
    have hempty : ({ l with pendingTasks := tasks } : PregelLoop MessagesState σ).checkCircuitBreakers =
        ({ l with pendingTasks := tasks }, []) := by
      unfold PregelLoop.checkCircuitBreakers
      rw [if_pos]
      show l.circuitBreakerConfigs.entries.isEmpty = true
      rw [h.breakers]
      rfl
    rw [hempty] at hk
    cases hk
    obtain ⟨task', htasks, hkey⟩ := List.map_eq_singleton_iff.1 hkeys
    exact ⟨rfl, task', htasks, congrArg Prod.snd hkey⟩

/-- The command of a node of an agent does not say where to go. -/
theorem goto_eq_none {model : M} {tools : List (DescribedTool W)} {config : ReactAgentConfig}
    {agent : AgentRound M W} {task : PendingTask MessagesState} {p : NodeProg MessagesState}
    {command : Command MessagesState} (hnodes : l.nodes = agentNodes model tools config agent)
    (hp : l.runnerEnv.nodeCall l.state task = .ok p) (hc : p.runInline = .ok command) :
    command.goto = .none := by
  unfold RunnerEnv.nodeCall at hp
  split at hp
  · cases hp
  · rename_i node hnode
    cases hp
    have hmem : ⟨task.nodeName, node⟩ ∈ (agentNodes model tools config agent).entries := by
      rw [← hnodes]
      exact AList.mem_lookup_iff.1 hnode
    obtain heq | hmem := List.mem_cons.1 hmem
    · obtain rfl := eq_of_heq (Sigma.mk.inj_iff.1 heq).2
      obtain ⟨update, -, rfl⟩ := ExceptFold.map_eq_ok_iff.1 hc
      rfl
    · obtain rfl := eq_of_heq (Sigma.mk.inj_iff.1 (List.mem_singleton.1 hmem)).2
      simp only [toolNodeAdapter, NodeProg.runInline] at hc
      split at hc
      · cases hc
        rfl
      · cases hc

variable [InterruptHash] {round : Round MessagesState} {task : PendingTask MessagesState}

/-- What the runner returns for the one task of an agent. -/
theorem runPrepared {model : M} {tools : List (DescribedTool W)} {config : ReactAgentConfig}
    {agent : AgentRound M W} {r : SuperstepResult MessagesState} (h : AgentLoop l)
    (hnodes : l.nodes = agentNodes model tools config agent) (htask : l.pendingTasks = [task])
    (hr : l.runPrepared round [] = (l', .ok r)) :
    ∃ command : Command MessagesState,
      r.taskOutputs = [successOutput task command] ∧ command.goto = .none := by
  have hruns : l.runTasks round =
      executeInline l.runnerEnv l.state task l.store l.nextUuid l.cancelled := by
    unfold PregelLoop.runTasks Juncture.executeSuperstep
    rw [htask, inlineTask_eq_some_iff.2 ⟨rfl, h.needsSpawn task.nodeName⟩]
    rfl
  unfold PregelLoop.runPrepared at hr
  rw [hruns] at hr
  dsimp only at hr
  split at hr
  · cases hr
  · rename_i result hresult
    cases hr
    obtain ⟨p, command, hp, hc, rfl, -⟩ := executeInline_eq_ok hresult
    exact ⟨command, rfl, goto_eq_none hnodes hp hc⟩

/-- **What comes after a superstep of an agent.** -/
theorem afterTick {result : SuperstepResult MessagesState} {command : Command MessagesState}
    (h : AgentLoop l) (ha : l.afterTick result = (l', .ok ()))
    (houtputs : result.taskOutputs = [successOutput task command]) (hgoto : command.goto = .none) :
    ∃ state, FirstOccurrences ((agentTable.edgesOf task.nodeName).flatMap (edgeTargets state))
      (l'.pendingTasks.map PendingTask.nodeName) := by
  have hcommitted := h.fixed (l.fixed_committed result)
  obtain ⟨tasks, htasks, hcourse⟩ := PregelLoop.afterTick_course ha
  have hpending : l'.pendingTasks = tasks := by
    obtain ⟨-, hcourse⟩ | ⟨-, hcourse⟩ := hcourse
    · exact congrArg PregelLoop.Course.pendingTasks hcourse
    · exact congrArg PregelLoop.Course.pendingTasks hcourse
  -- the one output is a success, and its command leaves the way to the edges
  have houtputs' : executedOutputs result.taskOutputs = [(successOutput task command).clone] := by
    rw [houtputs]
    rfl
  have hsucceeded : ∀ o ∈ [(successOutput task command).clone], o.error = none := by
    intro o ho
    obtain rfl := List.mem_singleton.1 ho
    rfl
  rw [houtputs', scheduleNext_of_succeeded hcommitted.handlers hsucceeded, PregelLoop.scheduleEnv,
    hcommitted.table, hcommitted.triggers] at htasks
  obtain ⟨hpulls, hpushes⟩ := scheduled_computeNextTasks htasks
  have hsends : sendTargets (successOutput task command).clone = [] := by
    rw [sendTargets, TaskOutput.clone_command, successOutput, hgoto]
  have htargets : ∀ state, resolvedTargets agentTable state (successOutput task command).clone =
      (agentTable.edgesOf task.nodeName).flatMap (edgeTargets state) := by
    intro state
    rw [resolvedTargets, TaskOutput.clone_command, successOutput, hgoto]
    rfl
  rw [List.flatMap_singleton, hsends] at hpushes
  rw [List.flatMap_singleton, pullNames_of_pushTasks hpushes] at hpulls
  rw [hpending]
  exact ⟨_, htargets _ ▸ hpulls⟩

/-! ### Taking turns -/

/-- **The step**: the two nodes take turns, unless there is nothing left to do. -/
theorem turn {model : M} {tools : List (DescribedTool W)} {config : ReactAgentConfig}
    {agent : AgentRound M W} {n : ℕ} (h : AgentLoop l)
    (hnodes : l.nodes = agentNodes model tools config agent)
    (hnames : l.pendingTasks.map PendingTask.nodeName = [nodeAt n])
    (hl : l.turn round = some l') :
    AgentLoop l' ∧ (l'.pendingTasks = [] ∨
      l'.pendingTasks.map PendingTask.nodeName = [nodeAt (n + 1)]) := by
  obtain ⟨l₁, result, hs, ha⟩ := PregelLoop.turn_eq_some_iff.1 hl
  have h₁ := h.fixed (PregelLoop.ran_superstep hs).fixed
  refine ⟨h₁.fixed (PregelLoop.fixed_afterTick ha), ?_⟩
  obtain ⟨-, r, hexec, rfl⟩ := PregelLoop.superstep_eq_some_iff.1 hs
  obtain ⟨k, blocked, hprep, hrun⟩ := andThen_eq_ok_iff.1 hexec
  have houtside := (l.ran_outside round).fixed
  have hk : (l.outside round).Fixed k := by
    have hran := (l.outside round).ran_prepare.fixed
    rwa [hprep] at hran
  -- the task of the superstep, as it was and as the runner gets it
  obtain ⟨task, htask, hname⟩ := List.map_eq_singleton_iff.1 hnames
  obtain ⟨rfl, task', htask', hname'⟩ :=
    (h.fixed houtside).prepare ((l.pendingTasks_outside round).trans htask) hprep
  obtain ⟨command, houtputs, hgoto⟩ := ((h.fixed houtside).fixed hk).runPrepared
    (hk.nodes.trans (houtside.nodes.trans hnodes)) htask' hrun
  obtain ⟨state, hfirst⟩ := h₁.afterTick ha houtputs hgoto
  rw [hname', hname] at hfirst
  obtain hnil | hnext := hfirst.eq_nodeAt
  · exact .inl (List.map_eq_nil_iff.1 hnil)
  · exact .inr hnext

end AgentLoop

namespace AgentRun

variable [InterruptHash] {run : AgentRun M W σ} {l : PregelLoop MessagesState σ} {k n : ℕ}

omit [InterruptHash] in
/-- What happens before a tick leaves the pending tasks alone. -/
theorem pendingTasks_before (run : AgentRun M W σ) (turn : AgentTurn M W)
    (l : PregelLoop MessagesState σ) :
    ((run.equip turn l).outside turn.round).pendingTasks = l.pendingTasks :=
  PregelLoop.pendingTasks_outside _ _

omit [InterruptHash] in
/-- A call of the graph starts with a loop of an agent, and with its first node. -/
theorem agentLoop_of_starts {g : CompiledGraph MessagesState σ} {round : AgentRound M W}
    {call : InvokeCall MessagesState σ}
    (hg : createAgentWithConfig run.model run.tools run.config round = .ok g)
    (hstart : g.Starts call l) :
    AgentLoop l ∧ l.pendingTasks.map PendingTask.nodeName = ["agent"] := by
  rw [createAgentWithConfig_eq] at hg
  cases hg
  cases hstart with
  | invoke => exact ⟨⟨rfl, rfl, rfl, rfl, rfl, rfl, rfl⟩, rfl⟩
  | stream => exact ⟨⟨rfl, rfl, rfl, rfl, rfl, rfl, rfl⟩, rfl⟩
  | executeWithEmitter => exact ⟨⟨rfl, rfl, rfl, rfl, rfl, rfl, rfl⟩, rfl⟩

/-- **The run**: before superstep `n` the node whose turn it is is pending, or nothing is. -/
theorem names_head (hstart : AgentLoop run.start)
    (hnames : run.start.pendingTasks.map PendingTask.nodeName = ["agent"])
    (h : run.head n = some l) :
    AgentLoop l ∧ (l.pendingTasks = [] ∨
      l.pendingTasks.map PendingTask.nodeName = [nodeAt n]) := by
  refine Machine.trace_invariant (I := fun n l => AgentLoop l ∧ (l.pendingTasks = [] ∨
    l.pendingTasks.map PendingTask.nodeName = [nodeAt n])) ⟨hstart, .inr hnames⟩ ?_ h
  rintro n t u - ⟨ht, hpending⟩ hturn
  have hequip : AgentLoop (run.equip (run.turns n) t) :=
    ⟨ht.table, ht.triggers, ht.handlers, ht.fallbacks, ht.retries, ht.timeouts, ht.breakers⟩
  obtain hnil | hnames := hpending
  · -- with nothing pending there is no turn
    obtain ⟨l₁, result, hs, -⟩ := PregelLoop.turn_eq_some_iff.1 hturn
    have hgo := (PregelLoop.superstep_eq_some_iff.1 hs).1
    exact absurd ((run.pendingTasks_before _ t).trans hnil) hgo.pending
  · exact hequip.turn rfl hnames hturn

/-! ### Which supersteps are executed -/

/-- Superstep `n` is executed. -/
def Goes (run : AgentRun M W σ) (n : ℕ) : Prop := ∃ l, run.before n = some l ∧ l.GoesOn

theorem stopsAt_iff : run.StopsAt n ↔ ¬ run.Goes n := by
  unfold StopsAt Goes
  simp only [not_exists, not_and]
  refine forall_congr' fun l => imp_congr_right fun _ => ?_
  constructor
  · rintro h ⟨hlimit, hcancelled, hbudget, hpending, hinterrupt⟩
    obtain hle | hc | hb | hp | hi := h
    · omega
    · rw [hcancelled] at hc
      cases hc
    · exact hb hbudget
    · exact hpending hp
    · exact hi hinterrupt
  · intro h
    by_contra hno
    simp only [not_or, not_le, Bool.not_eq_true, ne_eq, not_not] at hno
    obtain ⟨hlimit, hcancelled, hbudget, hpending, hinterrupt⟩ := hno
    exact h ⟨hlimit, hcancelled, hbudget, hpending, hinterrupt⟩

/-- A superstep is executed only after all the earlier ones. -/
theorem Goes.of_le (h : run.Goes n) (hk : k ≤ n) : run.Goes k := by
  obtain rfl | hlt := Nat.eq_or_lt_of_le hk
  · exact h
  obtain ⟨l, hbefore, -⟩ := h
  obtain ⟨t, ht, -⟩ := Option.map_eq_some_iff.1 hbefore
  obtain ⟨u, hu⟩ := Machine.exists_of_le ht hlt
  obtain ⟨s, hs, hturn⟩ := Machine.trace_succ_eq_some_iff.1 hu
  obtain ⟨l₁, result, hsuper, -⟩ := PregelLoop.turn_eq_some_iff.1 hturn
  have hs : run.head k = some s := hs
  refine ⟨_, ?_, (PregelLoop.superstep_eq_some_iff.1 hsuper).1⟩
  rw [before, hs]
  rfl

theorem executed_of_not_goes (h : ¬ run.Goes n) : run.executed n = [] := by
  unfold executed
  split
  · rename_i l htick
    obtain ⟨k, hk, heq⟩ := Option.map_eq_some_iff.1 htick
    exact absurd ⟨k, hk, PregelLoop.goesOn_of_tick (by rw [heq])⟩ h
  · rfl

theorem executed_of_goes (hstart : AgentLoop run.start)
    (hnames : run.start.pendingTasks.map PendingTask.nodeName = ["agent"]) (h : run.Goes n) :
    run.executed n = [nodeAt n] := by
  obtain ⟨k, hk, hgo⟩ := h
  obtain ⟨l, hl, rfl⟩ := Option.map_eq_some_iff.1 hk
  unfold executed
  rw [hk, Option.map_some, PregelLoop.tick_of_goesOn hgo]
  obtain ⟨-, hnil | hname⟩ := names_head hstart hnames hl
  · exact absurd ((run.pendingTasks_before _ l).trans hnil) hgo.pending
  · exact (congrArg _ (run.pendingTasks_before _ l)).trans hname

/-! ### How often the model is called -/

theorem modelCalls_succ : run.modelCalls (n + 1) =
    run.modelCalls n + (run.executed n).count "agent" := by
  simp only [modelCalls, List.range_succ, List.flatMap_append, List.flatMap_singleton,
    List.count_append]

/-- The model is called in every other superstep. -/
theorem modelCalls_of_goes (hstart : AgentLoop run.start)
    (hnames : run.start.pendingTasks.map PendingTask.nodeName = ["agent"])
    (h : ∀ m < n, run.Goes m) : run.modelCalls n = (n + 1) / 2 := by
  induction n with
  | zero => rfl
  | succ n ih =>
    rw [modelCalls_succ, ih fun m hm => h m (by omega),
      executed_of_goes hstart hnames (h n (by omega)), count_nodeAt]
    omega

/-- A run that does not get past superstep `k` calls the model before it only. -/
theorem modelCalls_le_of_not_goes (hstart : AgentLoop run.start)
    (hnames : run.start.pendingTasks.map PendingTask.nodeName = ["agent"]) (hk : ¬ run.Goes k) :
    run.modelCalls n ≤ (min n k + 1) / 2 := by
  induction n with
  | zero => exact Nat.zero_le _
  | succ n ih =>
    rw [modelCalls_succ]
    by_cases hn : run.Goes n
    · have hlt : n < k := by
        by_contra hle
        exact hk (hn.of_le (by omega))
      rw [executed_of_goes hstart hnames hn, count_nodeAt]
      omega
    · rw [executed_of_not_goes hn, List.count_nil]
      omega

/-! ### The limits -/

/-- **When the limits of an agent are kept.**  Its graph has the same two nodes and three edges for
every configuration, so the limits are kept exactly when something else ends the run in time: after
`max_iterations` calls of the model and as many of the tools, and with `interrupt_before_tools` after
the first call of the model. -/
theorem keepsLimits_iff (run : AgentRun M W σ) {g : CompiledGraph MessagesState σ}
    {round : AgentRound M W} {call : InvokeCall MessagesState σ}
    (hg : createAgentWithConfig run.model run.tools run.config round = .ok g)
    (hstart : g.Starts call run.start) :
    run.KeepsLimits ↔
      (∀ N, run.config.maxIterations = some N → run.StopsAt (2 * N)) ∧
        (run.config.interruptBeforeTools = true → run.StopsAt 1) := by
  obtain ⟨hloop, hnames⟩ := agentLoop_of_starts hg hstart
  simp only [stopsAt_iff]
  constructor
  · rintro ⟨hiterations, hinterrupts⟩
    refine ⟨fun N hN hgo => ?_, fun hbefore hgo => ?_⟩
    · -- superstep `2 * N` is the `N + 1`st of the model
      have hcalls : run.modelCalls (2 * N + 1) = (2 * N + 1 + 1) / 2 :=
        modelCalls_of_goes hloop hnames fun m hm => hgo.of_le (by omega)
      have hle := hiterations N hN (2 * N + 1)
      omega
    · -- a superstep that is executed has had no interrupt before it
      have htools : "tools" ∈ run.executed 1 := by
        rw [executed_of_goes hloop hnames hgo]
        exact List.mem_singleton_self _
      obtain ⟨m, hm, l, hl, htick, -⟩ := hinterrupts hbefore 1 htools
      obtain ⟨l', hl', hgo'⟩ := hgo.of_le hm
      rw [hl] at hl'
      cases hl'
      rw [PregelLoop.tick_of_goesOn hgo'] at htick
      cases htick
  · rintro ⟨hiterations, hinterrupts⟩
    refine ⟨fun N hN n => ?_, fun hbefore n htools => ?_⟩
    · have hle : run.modelCalls n ≤ (min n (2 * N) + 1) / 2 :=
        modelCalls_le_of_not_goes hloop hnames (hiterations N hN)
      omega
    · -- the first superstep calls the model, and there is no other one
      have hno : ∀ m, run.Goes m → m = 0 := by
        intro m hm
        by_contra hpos
        exact hinterrupts hbefore (hm.of_le (by omega))
      by_cases hgo : run.Goes n
      · obtain rfl := hno n hgo
        rw [executed_of_goes hloop hnames hgo] at htools
        exact absurd (List.mem_singleton.1 htools) (by decide)
      · rw [executed_of_not_goes hgo] at htools
        cases htools

end AgentRun

end Agent

/-! ### A model that always requests a tool -/

/-- The serde instances on states without messages. -/
instance emptySerde : MessagesSerde where
  toValue _ := .ok (.obj [("messages", .arr [])])
  fromValue _ := .ok {}
  updateToValue _ := .ok (.obj [("messages", .null)])

/-- A model that answers every call with a request of the tool `echo`.  From outside comes the
identifier of its answer. -/
structure InsistentModel where

instance : ToolModel InsistentModel where
  Outside := String
  invoke _ scope _ _ id := (scope, .ok (.aiWithToolCalls id "" [⟨"call", "echo", .obj []⟩]))
  bindTools model _ := model

/-- The tool `echo`. -/
def echoTool : DescribedTool Unit where
  name := "echo"
  schema := .obj []
  invoke _ _ := .ok "echo"
  description := "Echoes back the input message"

/-- One call of the model, at most, and a pause before the tools. -/
def cautiousConfig : ReactAgentConfig where
  maxIterations := some 1
  interruptBeforeTools := true

/-- A superstep of the agent. -/
def insistentRound (n : ℕ) : AgentRound InsistentModel Unit where
  scope := {}
  promptId := "prompt"
  outside := String.ofList (List.replicate n 'm')
  newId i := String.ofList (List.replicate (n + i) 't')
  world _ := ()
  joined := [(0, ⟨⟨"call", "echo", .obj []⟩, .stateless echoTool.toTool⟩)]

/-- The graph of the agent. -/
def insistentGraph : CompiledGraph MessagesState Unit where
  nodes := agentNodes {} [echoTool] cautiousConfig (insistentRound 0)
  triggerTable := agentTable
  builderMetadata := AList.singleton "agent" {} ∪ AList.singleton "tools" {}

/-- A call without messages. -/
def emptyCall : InvokeCall MessagesState Unit where
  input := {}
  config := {}
  store := ()
  nextUuid := 0

/-- Its run. -/
def insistentRun : AgentRun InsistentModel Unit Unit where
  model := {}
  tools := [echoTool]
  config := cautiousConfig
  start := insistentGraph.invokeLoop emptyCall
  turns n := ⟨insistentRound n, {}⟩

theorem keepsLimits_iff_insistent :
    insistentRun.KeepsLimits ↔
      (∀ N, insistentRun.config.maxIterations = some N → insistentRun.StopsAt (2 * N)) ∧
        (insistentRun.config.interruptBeforeTools = true → insistentRun.StopsAt 1) :=
  AgentRun.keepsLimits_iff insistentRun
    (createAgentWithConfig_eq {} [echoTool] cautiousConfig (insistentRound 0))
    (.invoke : insistentGraph.Starts emptyCall _)

/-- The model is called twice, and the tools are run without a pause. -/
theorem insistent_not_keepsLimits :
    insistentRun.modelCalls 3 = 2 ∧ insistentRun.executed 1 = ["tools"] ∧
      ¬ insistentRun.KeepsLimits := by
  have hcalls : insistentRun.modelCalls 3 = 2 := by decide +kernel
  have htools : insistentRun.executed 1 = ["tools"] := by decide +kernel
  refine ⟨hcalls, htools, fun h => ?_⟩
  have hle := h.iterations 1 rfl 3
  omega

end Juncture
