import Juncture.Graph.Charts

/-!
# Graphs as flow charts

A graph in which control never splits is a flow chart: the nodes are its places, and its store is the
state.

* `chart` : the flow chart of a graph.
* `invoke_iff` : a call of such a graph returns what comes of its flow chart.
-/

namespace Juncture

open FlowChart

variable {S σ : Type} [State S]

/-! ### The flow chart -/

/-- The state with the update of a node. -/
def updated (state : S) : Option (Update S) → Except JunctureError (S × FieldsChanged)
  | none => .ok (state, .none)
  | some update =>
    match State.tryApply state update with
    | (state, .ok changed) => .ok (state, changed)
    | (_, .error e) => .error (.invalidUpdate e.display)

namespace CompiledGraph

variable (g : CompiledGraph S σ)

/-- Where control goes from a node. -/
def exit (node : String) (command : Command S) (state : S) :
    Except JunctureError (Option String) :=
  (computeNextTasks 0 [successOutput (.pull 0 node) command] g.triggerTable
    (.fromTriggerTable g.triggerTable) g.nodes state).map fun tasks =>
      tasks.head?.map PendingTask.nodeName

/-- The block of a node that has returned a command. -/
def absorb (config : RunnableConfig) (node : String) (store : FlowStore S) (command : Command S) :
    Except JunctureError (FlowStore S × Option String) := do
  let (state, changed) ← updated store.state command.update
  sizeCheck config state changed
  let next ← g.exit node command (settle store.changed state)
  pure (⟨settle store.changed state, changed⟩, next)

/-- The flow chart of a graph. -/
def chart (config : RunnableConfig) : Chart String (FlowStore S) JunctureError := fun node store =>
  match g.nodes.lookup node with
  | none => .error (.execution s!"Node '{node}' not found")
  | some n => do
    let command ← (n.call store.state config).runInline
    g.absorb config node store command

/-- Control never splits, and nothing is wrapped around the nodes. -/
structure Sequential : Prop where
  /-- A node has one edge at most. -/
  edges : ∀ node, (g.triggerTable.edgesOf node).length ≤ 1
  /-- A router names one branch at most. -/
  routers : ∀ node router pathMap, .conditional router pathMap ∈ g.triggerTable.edgesOf node →
    ∀ state route, router state = .ok route → route.targets.length ≤ 1
  /-- A command does not go to several nodes. -/
  commands : ∀ name node, g.nodes.lookup name = some node → ∀ state config command,
    (node.call state config).runInline = .ok command →
      command.goto = .none ∨ command.goto = .end ∨ ∃ target, command.goto = .next target
  /-- There are no retries, timeouts, handlers, breakers and fallbacks. -/
  plain : ∀ kv ∈ g.builderMetadata.entries, kv.2.retryPolicies = [] ∧ kv.2.errorHandler = none ∧
    kv.2.timeoutPolicies = [] ∧ kv.2.circuitBreaker = none ∧ kv.2.fallbackNode = none

/-- Every run starts with the node `entry`. -/
def Enters (entry : String) : Prop :=
  (g.triggerTable.incoming.entries.filter fun kv => kv.2.contains (.edge START)).map Sigma.fst =
    [entry]

end CompiledGraph

/-! ### Routing -/

namespace CompiledGraph

variable {g : CompiledGraph S σ}

/-- **The one task that comes next.**  Its identifier is the only thing that is drawn from `base`. -/
theorem Sequential.computeNextTasks (h : g.Sequential) (base : ℕ) {o : TaskOutput S} (state : S)
    (hgoto : o.command.goto = .none ∨ o.command.goto = .end ∨ ∃ target, o.command.goto = .next target) :
    computeNextTasks base [o] g.triggerTable (.fromTriggerTable g.triggerTable) g.nodes state =
      (g.exit o.nodeName o.command state).map fun next => pullTasks base next.toList := by
  unfold exit Juncture.computeNextTasks
  simp only [List.foldlM_cons, List.foldlM_nil]
  obtain hnone | hend | ⟨target, hnext⟩ := hgoto
  · -- the one edge of the node decides
    have hedges := h.edges o.nodeName
    have hrouters := h.routers o.nodeName
    simp only [routeOutput, successOutput, PendingTask.pull, hnone]
    obtain hnil | ⟨edge, hedge⟩ :=
      (Nat.le_one_iff_eq_zero_or_eq_one.1 hedges).imp List.eq_nil_of_length_eq_zero
        List.length_eq_one_iff.1
    · rw [hnil]
      rfl
    rw [hedge]
    simp only [List.foldlM_cons, List.foldlM_nil]
    cases edge with
    | fixed target =>
      simp only [processEdge]
      split_ifs <;> rfl
    | conditional router pathMap =>
      simp only [processEdge]
      cases hroute : router state with
      | error e => rfl
      | ok route =>
        have hone := hrouters router pathMap (by rw [hedge]; exact List.mem_singleton_self _) state
          route hroute
        obtain hnil | ⟨label, hlabel⟩ :=
          (Nat.le_one_iff_eq_zero_or_eq_one.1 hone).imp List.eq_nil_of_length_eq_zero
            List.length_eq_one_iff.1
        · simp only [hnil]
          rfl
        · simp only [hlabel, List.foldlM_cons, List.foldlM_nil, processLabel]
          split_ifs <;> rfl
  · simp only [routeOutput, successOutput, PendingTask.pull, hend]
    rfl
  · simp only [routeOutput, successOutput, PendingTask.pull, hnext]
    rfl

end CompiledGraph

/-! ### One block -/

/-- The update of one output is all that is merged. -/
theorem merged_singleton (nodeRegistration : Dict ℕ) (state : S) (o : TaskOutput S) :
    merged nodeRegistration state [o] = updated state o.command.update := by
  have hupdates : updates [o] = o.command.update.toList := by
    unfold updates
    cases hupdate : o.command.update with
    | none => simp [hupdate]
    | some update => simp [hupdate]
  have hconflict : checkReplaceConflicts [o] = .ok () := by
    rw [checkReplaceConflicts_eq_ok_iff, hupdates]
    cases o.command.update with
    | none => exact List.Pairwise.nil
    | some update => exact List.pairwise_singleton _ _
  have hmerged : mergedUpdates nodeRegistration [o] = o.command.update.toList := by
    have hperm := mergedUpdates_perm nodeRegistration [o]
    rw [hupdates] at hperm
    cases hupdate : o.command.update with
    | none =>
      rw [hupdate] at hperm
      exact List.perm_nil.1 hperm
    | some update =>
      rw [hupdate] at hperm
      exact List.perm_singleton.1 hperm
  unfold merged
  rw [hconflict, hmerged]
  cases o.command.update with
  | none => rfl
  | some update =>
    simp only [updated, Option.toList_some, applyUpdates]
    rcases State.tryApply state update with ⟨state', e | changed⟩
    · rfl
    · simp only [FieldsChanged.merge, FieldsChanged.none, BitVec.zero_or]

namespace CompiledGraph

variable {g : CompiledGraph S σ}

/-- What comes of the command of a node. -/
theorem Sequential.conclude (h : g.Sequential) (config : RunnableConfig) (node : String)
    (store : FlowStore S) {command : Command S}
    (hgoto : command.goto = .none ∨ command.goto = .end ∨ ∃ target, command.goto = .next target) :
    g.conclude config store [successOutput (.pull 0 node) command] =
      (g.absorb config node store command).map fun p => (p.1, p.2.toList) := by
  have htargets : ∀ state, g.targets [successOutput (.pull 0 node) command] state =
      (g.exit node command state).map Option.toList := by
    intro state
    unfold targets
    rw [h.computeNextTasks 0 (o := successOutput (.pull 0 node) command) state hgoto]
    show ((g.exit node command state).map _).map _ = _
    cases g.exit node command state with
    | error e => rfl
    | ok next => cases next <;> rfl
  unfold CompiledGraph.conclude absorb write
  rw [merged_singleton]
  show (do
    let (state, changed) ← (do
      let (state, changed) ← updated store.state command.update
      sizeCheck config state changed
      pure (state, changed))
    let next ← g.targets [successOutput (.pull 0 node) command] (settle store.changed state)
    pure ((⟨settle store.changed state, changed⟩ : FlowStore S), next)) = _
  rcases updated store.state command.update with e | ⟨state, changed⟩
  · rfl
  simp only [bind, Except.bind]
  cases sizeCheck config state changed with
  | error e => rfl
  | ok _ =>
    simp only [pure, Except.pure, htargets]
    cases g.exit node command (settle store.changed state) <;> rfl

/-- **A block of the flow chart** is a superstep of one node. -/
theorem Sequential.charts (h : g.Sequential) (config : RunnableConfig) (rounds : ℕ → Round S) :
    g.Charts config rounds (g.chart config) (fun node names => names = [node]) Eq where
  nonempty := by
    rintro node _ rfl
    exact List.cons_ne_nil _ _
  orderly := by
    rintro node _ rfl n state
    refine ⟨.inl rfl, fun name hname command hreturn targets hsend => ?_⟩
    have hcommands := h.commands name
    unfold returns at hreturn
    cases hnode : g.nodes.lookup name with
    | none =>
      rw [hnode] at hreturn
      cases hreturn
    | some n =>
      rw [hnode] at hreturn
      obtain hgoto | hgoto | ⟨target, hgoto⟩ := hcommands n hnode _ _ _ hreturn <;>
        rw [hgoto] at hsend <;> cases hsend
  block := by
    rintro node _ rfl order hperm store
    obtain rfl := List.perm_singleton.1 hperm
    unfold superstep chart
    rw [outputs_singleton, returns]
    cases hnode : g.nodes.lookup node with
    | none => exact .fails rfl
    | some n =>
      simp only [if_true]
      cases hrun : (n.call store.state config).runInline with
      | error e => exact .fails rfl
      | ok command =>
        simp only [Except.map, bind, Except.bind]
        rw [h.conclude config node store (h.commands node n hnode _ _ _ hrun)]
        rcases g.absorb config node store command with e | ⟨store', _ | next⟩
        · exact .fails rfl
        · exact .halts store'
        · exact .goes store' rfl

/-! ### A call -/

variable [InterruptHash] {call : InvokeCall S σ} {rounds : ℕ → Round S} {entry : String}

/-- The run ends as the flow chart does. -/
theorem exists_endsAt (hseq : g.Sequential) (hentry : g.Enters entry)
    (h : g.Undisturbed call rounds) :
    ∃ n l e, (g.invokeLoop call).EndsAt rounds n l e ∧ (g.invokeFinish call l e).1 =
      call.report (run (g.chart (g.invokeConfig call).2) entry ⟨call.input, .none⟩
        call.config.recursionLimit) := by
  obtain ⟨n, l, e, hend, hagree⟩ :=
    (hseq.charts (g.invokeConfig call).2 rounds).exists_endsAt (fun _ => rfl) hseq.plain hentry h
  refine ⟨n, l, e, hend, ?_⟩
  generalize call.report _ = r at hagree ⊢
  generalize (g.invokeFinish call l e).1 = r' at hagree ⊢
  cases hagree with
  | ok a => rfl
  | error heq => rw [heq]

/-- **A sequential graph is a flow chart**: a call returns what comes of the chart within the limit, and
nothing else. -/
theorem invoke_iff (hseq : g.Sequential) (hentry : g.Enters entry) (h : g.Undisturbed call rounds)
    (r : Except JunctureError (GraphOutput S)) :
    g.Yields call rounds r ↔ r = call.report (run (g.chart (g.invokeConfig call).2) entry
      ⟨call.input, .none⟩ call.config.recursionLimit) := by
  obtain ⟨n, l, e, hend, hreport⟩ := exists_endsAt hseq hentry h
  rw [yields_iff h.uncached hend, hreport]

end CompiledGraph

/-! ### Two nodes in a row -/

/-- The graph that goes from `a` to `b` is sequential. -/
theorem chainGraph_sequential : chainGraph.Sequential where
  edges node := by
    show ((buildTriggerTable _).edgesOf node).length ≤ 1
    have hstart : ¬ (START = node ∧ node ≠ START ∧ "a" ≠ END) := fun h => h.2.1 h.1.symm
    rw [edgesOf_buildTriggerTable]
    simp only [Edge.compiledAt, List.filterMap_cons, List.filterMap_nil, if_neg hstart]
    split_ifs <;> simp
  routers node router pathMap h := by
    have hmem : .conditional router pathMap ∈ (buildTriggerTable
      [.fixed START "a", .fixed "a" "b"] : TriggerTable Transcript).edgesOf node := h
    rw [edgesOf_buildTriggerTable] at hmem
    obtain ⟨e, he, hc⟩ := List.mem_filterMap.1 hmem
    simp only [List.mem_cons, List.not_mem_nil, or_false] at he
    obtain rfl | rfl := he
    · simp [Edge.compiledAt] at hc
    · simp [Edge.compiledAt] at hc
  commands name node h state config command hrun := by
    have hmem : ⟨name, node⟩ ∈ chainGraph.nodes.entries := AList.mem_lookup_iff.1 h
    have hentries : chainGraph.nodes.entries = [⟨"a", appending 1⟩, ⟨"b", appending 2⟩] := rfl
    rw [hentries] at hmem
    simp only [List.mem_cons, List.not_mem_nil, or_false, Sigma.mk.injEq] at hmem
    obtain ⟨-, hnode⟩ | ⟨-, hnode⟩ := hmem
    · obtain rfl := eq_of_heq hnode
      cases hrun
      exact .inl rfl
    · obtain rfl := eq_of_heq hnode
      cases hrun
      exact .inl rfl
  plain kv h := by cases h

/-- A call of it. -/
theorem invoke_iff_chain :
    chainGraph.Yields (chainCall none) undisturbed (.ok {
        value := { log := [1, 2] }
        interrupts := []
        steps := 2
        runId := 1
        checkpointId := none }) ↔
      (.ok {
        value := { log := [1, 2] }
        interrupts := []
        steps := 2
        runId := 1
        checkpointId := none } : Except JunctureError (GraphOutput Transcript)) =
      (chainCall none).report (run (chainGraph.chart (chainGraph.invokeConfig (chainCall none)).2) "a"
        ⟨{}, .none⟩ (chainCall none).config.recursionLimit) :=
  CompiledGraph.invoke_iff chainGraph_sequential rfl
    ⟨rfl, rfl, rfl, rfl, fun _ => ⟨rfl, rfl⟩⟩ _

end Juncture
