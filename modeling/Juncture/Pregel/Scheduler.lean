import Juncture.Graph.Edge
import Juncture.Lib.ExceptFold
import Juncture.Pregel.Types

/-!
# Scheduling the next superstep

`computeNextTasks` turns the outputs of a superstep into the tasks of the next one: an explicit
`Goto` of a command is followed as it stands, `Goto::None` follows the outgoing edges of the node.
PULL tasks are created once for a node, PUSH tasks once for each `Send` target, numbered from `0`
for each sender.

The abstract reading of the scheduler is a relation: `Routes … o n` says that output `o` sends
control to node `n`, and `RoutingFails … o` that scheduling cannot make sense of one of the branch
labels its routers return.  The scheduler is then characterised by

* `computeNextTasks_ok_iff` : it succeeds exactly when no output's routing fails;
* `mem_computeNextTasks_iff` : the nodes of its tasks are exactly those routed to.
-/

namespace Juncture

/-- The accumulator of `compute_next_tasks`: the tasks so far and the nodes that already have a
PULL task. -/
structure NextTasks (S : Type) where
  /-- `next_tasks`. -/
  tasks : List (PendingTask S)
  /-- `seen_nodes`. -/
  seenNodes : List String
  /-- Every seen node has a task. -/
  seen_sub : ∀ n ∈ seenNodes, ∃ t ∈ tasks, t.nodeName = n

namespace NextTasks

variable {S : Type}

/-- Nothing scheduled. -/
def empty : NextTasks S := ⟨[], [], by simp⟩

/-- The nodes that have a task. -/
def names (acc : NextTasks S) : Set String := {n | ∃ t ∈ acc.tasks, t.nodeName = n}

/-- Schedule a PULL task unless the node has one.  Identifiers are drawn from `base` on. -/
def pushPull (base : ℕ) (acc : NextTasks S) (target : String) : NextTasks S :=
  if acc.seenNodes.contains target then acc
  else
    { tasks := acc.tasks ++ [.pull (base + acc.tasks.length) target]
      seenNodes := target :: acc.seenNodes
      seen_sub := by
        intro n hn
        obtain rfl | hn := List.mem_cons.1 hn
        · exact ⟨_, List.mem_append_right _ List.mem_cons_self, rfl⟩
        · obtain ⟨t, ht, rfl⟩ := acc.seen_sub n hn
          exact ⟨t, List.mem_append_left _ ht, rfl⟩ }

/-- Schedule a PUSH task. -/
def pushSend (base : ℕ) (acc : NextTasks S) (p : SendTarget × ℕ) : NextTasks S :=
  { acc with
    tasks := acc.tasks ++ [.push (base + acc.tasks.length) p.1.node p.2 p.1.state]
    seen_sub := by
      intro n hn
      obtain ⟨t, ht, rfl⟩ := acc.seen_sub n hn
      exact ⟨t, List.mem_append_left _ ht, rfl⟩ }

@[simp] theorem mem_names_empty (n : String) : n ∈ (empty : NextTasks S).names ↔ False := by
  simp [names, empty]

theorem exists_mem_snoc {t : PendingTask S} {ts : List (PendingTask S)} {n : String} :
    (∃ t' ∈ ts ++ [t], t'.nodeName = n) ↔ (∃ t' ∈ ts, t'.nodeName = n) ∨ n = t.nodeName := by
  simp only [List.mem_append, List.mem_singleton, or_and_right, exists_or, exists_eq_left,
    @eq_comm _ n]

theorem mem_names_pushPull (base : ℕ) (acc : NextTasks S) (target n : String) :
    n ∈ (acc.pushPull base target).names ↔ n ∈ acc.names ∨ n = target := by
  unfold pushPull
  split_ifs with h
  · constructor
    · exact .inl
    · rintro (h' | rfl)
      · exact h'
      · exact acc.seen_sub _ (by simpa using h)
  · exact exists_mem_snoc

theorem mem_names_pushSend (base : ℕ) (acc : NextTasks S) (p : SendTarget × ℕ) (n : String) :
    n ∈ (acc.pushSend base p).names ↔ n ∈ acc.names ∨ n = p.1.node :=
  exists_mem_snoc

theorem mem_names_foldl_pushPull (base : ℕ) (n : String) :
    ∀ (targets : List String) (acc : NextTasks S),
      n ∈ (targets.foldl (pushPull base) acc).names ↔ n ∈ acc.names ∨ n ∈ targets := by
  intro targets
  induction targets with
  | nil => intro acc; simp
  | cons t ts ih => intro acc; rw [List.foldl_cons, ih, mem_names_pushPull, List.mem_cons, or_assoc]

theorem mem_names_foldl_pushSend (base : ℕ) (n : String) :
    ∀ (ps : List (SendTarget × ℕ)) (acc : NextTasks S),
      n ∈ (ps.foldl (pushSend base) acc).names ↔ n ∈ acc.names ∨ ∃ p ∈ ps, p.1.node = n := by
  intro ps
  induction ps with
  | nil => intro acc; simp
  | cons p ps ih =>
    intro acc
    rw [List.foldl_cons, ih, mem_names_pushSend, or_assoc, @eq_comm _ n]
    simp

end NextTasks

variable {S : Type} [State S]

/-! ### Edges -/

/-- The node a branch label stands for: its entry in the path map, or the label itself. -/
def labelTarget (pathMap : PathMap) (label : String) : String := (pathMap.lookup label).getD label

/-- A label is refused when it is not a key of the path map, not a node and not `END`. -/
def labelUnknown (nodes : Dict (Node S)) (pathMap : PathMap) (label : String) : Bool :=
  !pathMap.containsKey label && !nodes.containsKey (labelTarget pathMap label) &&
    labelTarget pathMap label != END

/-- One label of a conditional edge. -/
def processLabel (base : ℕ) (nodes : Dict (Node S)) (fromNode : String) (pathMap : PathMap)
    (acc : NextTasks S) (label : String) : Except JunctureError (NextTasks S) :=
  if labelUnknown nodes pathMap label then
    .error (.execution s!"Conditional edge from '{fromNode}' routed to '{label}', which is neither a path_map key nor a registered node")
  else if labelTarget pathMap label != END then
    .ok (acc.pushPull base (labelTarget pathMap label))
  else .ok acc

/-- `process_edge`. -/
def processEdge (base : ℕ) (state : S) (nodes : Dict (Node S)) (triggered : List String)
    (fromNode : String) (acc : NextTasks S) : CompiledEdge S → Except JunctureError (NextTasks S)
  | .fixed target =>
    .ok (if triggered.contains target && target != END then acc.pushPull base target else acc)
  | .conditional router pathMap =>
    match router state with
    | .error e => .error e
    | .ok route => route.targets.foldlM (processLabel base nodes fromNode pathMap) acc

/-- The routing of one completed task. -/
def routeOutput (base : ℕ) (table : TriggerTable S) (triggerToNodes : TriggerToNodes)
    (nodes : Dict (Node S)) (state : S) (acc : NextTasks S) (o : TaskOutput S) :
    Except JunctureError (NextTasks S) :=
  match o.command.goto with
  | .none =>
    (table.edgesOf o.nodeName).foldlM
      (processEdge base state nodes (triggerToNodes.triggeredNodes [o.nodeName]) o.nodeName) acc
  | .next target => .ok (acc.pushPull base target)
  | .multiple targets => .ok (targets.foldl (NextTasks.pushPull base) acc)
  | .send targets => .ok (targets.zipIdx.foldl (NextTasks.pushSend base) acc)
  | .end => .ok acc

/-- `compute_next_tasks`. -/
def computeNextTasks (base : ℕ) (completed : List (TaskOutput S)) (table : TriggerTable S)
    (triggerToNodes : TriggerToNodes) (nodes : Dict (Node S)) (state : S) :
    Except JunctureError (List (PendingTask S)) :=
  match completed.foldlM (routeOutput base table triggerToNodes nodes state) NextTasks.empty with
  | .error e => .error e
  | .ok acc => .ok acc.tasks

/-! ### What an output routes to -/

section Routes

variable (table : TriggerTable S) (triggerToNodes : TriggerToNodes) (nodes : Dict (Node S))
  (state : S)

/-- The node a label leads to, if any. -/
def labelRoutes (pathMap : PathMap) (label : String) : Set String :=
  {n | labelTarget pathMap label ≠ END ∧ n = labelTarget pathMap label}

/-- The nodes an edge leads to from `fromNode` in the given state. -/
def edgeRoutes (fromNode : String) : CompiledEdge S → Set String
  | .fixed target =>
    {n | n = target ∧ target ∈ triggerToNodes.triggeredNodes [fromNode] ∧ target ≠ END}
  | .conditional router pathMap =>
    {n | ∃ route, router state = .ok route ∧ ∃ label ∈ route.targets, n ∈ labelRoutes pathMap label}

/-- The nodes the outgoing edges of a node lead to. -/
def edgesRoute (fromNode : String) : Set String :=
  {n | ∃ e ∈ table.edgesOf fromNode, n ∈ edgeRoutes triggerToNodes state fromNode e}

/-- The nodes an output sends control to. -/
def Routes (o : TaskOutput S) : Set String :=
  match o.command.goto with
  | .none => edgesRoute table triggerToNodes state o.nodeName
  | .next target => {n | n = target}
  | .multiple targets => {n | n ∈ targets}
  | .send targets => {n | ∃ t ∈ targets, t.node = n}
  | .end => ∅

/-- An edge whose router fails, or returns a label that is no branch, no node and not `END`. -/
def edgeFails : CompiledEdge S → Prop
  | .fixed _ => False
  | .conditional router pathMap =>
    match router state with
    | .error _ => True
    | .ok route => ∃ label ∈ route.targets, labelUnknown nodes pathMap label = true

/-- The output follows its edges and one of them fails. -/
def RoutingFails (o : TaskOutput S) : Prop :=
  o.command.goto = .none ∧ ∃ e ∈ table.edgesOf o.nodeName, edgeFails nodes state e

end Routes

section Spec

variable {base : ℕ} {table : TriggerTable S} {triggerToNodes : TriggerToNodes}
  {nodes : Dict (Node S)} {state : S}

theorem processLabel_ok_iff {fromNode : String} {pathMap : PathMap} (acc : NextTasks S)
    (label : String) :
    (∃ c, processLabel base nodes fromNode pathMap acc label = .ok c) ↔
      ¬ labelUnknown nodes pathMap label = true := by
  unfold processLabel
  split_ifs <;> simp_all

theorem mem_names_processLabel {fromNode : String} {pathMap : PathMap} {acc c : NextTasks S}
    {label : String} (h : processLabel base nodes fromNode pathMap acc label = .ok c) (n : String) :
    n ∈ c.names ↔ n ∈ acc.names ∨ n ∈ labelRoutes pathMap label := by
  unfold processLabel at h
  split_ifs at h with h₁ h₂ <;> cases h
  · have h₂ : labelTarget pathMap label ≠ END := by simpa using h₂
    simp [NextTasks.mem_names_pushPull, labelRoutes, h₂]
  · have h₂ : labelTarget pathMap label = END := by simpa using h₂
    simp [labelRoutes, h₂]

theorem processEdge_ok_iff {triggered : List String} {fromNode : String} (acc : NextTasks S)
    (e : CompiledEdge S) :
    (∃ c, processEdge base state nodes triggered fromNode acc e = .ok c) ↔
      ¬ edgeFails nodes state e := by
  cases e with
  | fixed target => simp [processEdge, edgeFails]
  | conditional router pathMap =>
    simp only [processEdge, edgeFails]
    cases hr : router state with
    | error e => simp
    | ok route =>
      simp only [not_exists, not_and]
      exact ExceptFold.foldlM_ok_iff processLabel_ok_iff _ _

theorem mem_names_processEdge {fromNode : String} {acc c : NextTasks S} {e : CompiledEdge S}
    (h : processEdge base state nodes (triggerToNodes.triggeredNodes [fromNode]) fromNode acc e =
      .ok c) (n : String) :
    n ∈ c.names ↔ n ∈ acc.names ∨ n ∈ edgeRoutes triggerToNodes state fromNode e := by
  cases e with
  | fixed target =>
    simp only [processEdge] at h
    cases h
    split_ifs with ht
    · rw [Bool.and_eq_true, List.contains_iff_mem, bne_iff_ne] at ht
      simp [NextTasks.mem_names_pushPull, edgeRoutes, ht]
    · rw [Bool.and_eq_true, List.contains_iff_mem, bne_iff_ne] at ht
      simp [edgeRoutes, ht]
  | conditional router pathMap =>
    simp only [processEdge] at h
    cases hr : router state with
    | error e => simp [hr] at h
    | ok route =>
      have h : route.targets.foldlM (processLabel base nodes fromNode pathMap) acc = .ok c := by
        simpa [hr] using h
      rw [ExceptFold.foldlM_collects (R := labelRoutes pathMap)
        (fun _ _ _ => mem_names_processLabel) h n]
      simp [edgeRoutes, hr]

theorem routeOutput_ok_iff (acc : NextTasks S) (o : TaskOutput S) :
    (∃ c, routeOutput base table triggerToNodes nodes state acc o = .ok c) ↔
      ¬ RoutingFails table nodes state o := by
  unfold routeOutput RoutingFails
  cases o.command.goto with
  | none =>
    simp only [true_and, not_exists, not_and]
    exact ExceptFold.foldlM_ok_iff processEdge_ok_iff _ _
  | next | multiple | send | «end» => simp

theorem mem_names_routeOutput {acc c : NextTasks S} {o : TaskOutput S}
    (h : routeOutput base table triggerToNodes nodes state acc o = .ok c) (n : String) :
    n ∈ c.names ↔ n ∈ acc.names ∨ n ∈ Routes table triggerToNodes state o := by
  unfold routeOutput at h
  unfold Routes
  cases hg : o.command.goto with
  | none =>
    rw [hg] at h
    exact ExceptFold.foldlM_collects (fun _ _ _ => mem_names_processEdge) h n
  | next target =>
    rw [hg] at h; cases h
    simp [NextTasks.mem_names_pushPull]
  | multiple targets =>
    rw [hg] at h; cases h
    simp [NextTasks.mem_names_foldl_pushPull]
  | send targets =>
    rw [hg] at h; cases h
    rw [NextTasks.mem_names_foldl_pushSend]
    refine or_congr Iff.rfl ?_
    constructor
    · rintro ⟨p, hp, rfl⟩
      exact ⟨p.1, (List.mem_zipIdx' hp).2 ▸ List.getElem_mem _, rfl⟩
    · rintro ⟨t, ht, rfl⟩
      obtain ⟨i, hi, rfl⟩ := List.getElem_of_mem ht
      exact ⟨(targets[i], i), List.mem_zipIdx_iff_getElem?.2 (List.getElem?_eq_getElem hi), rfl⟩
  | «end» =>
    rw [hg] at h; cases h
    simp

/-- **The scheduler fails exactly when a followed edge fails.** -/
theorem computeNextTasks_ok_iff {completed : List (TaskOutput S)} :
    (∃ tasks, computeNextTasks base completed table triggerToNodes nodes state = .ok tasks) ↔
      ∀ o ∈ completed, ¬ RoutingFails table nodes state o := by
  rw [← ExceptFold.foldlM_ok_iff (f := routeOutput base table triggerToNodes nodes state)
    routeOutput_ok_iff completed NextTasks.empty]
  unfold computeNextTasks
  cases completed.foldlM (routeOutput base table triggerToNodes nodes state) NextTasks.empty with
  | error e => simp
  | ok acc => simp

/-- **The scheduled nodes are exactly those the outputs route to.** -/
theorem mem_computeNextTasks_iff {completed : List (TaskOutput S)} {tasks : List (PendingTask S)}
    (h : computeNextTasks base completed table triggerToNodes nodes state = .ok tasks)
    (n : String) :
    (∃ t ∈ tasks, t.nodeName = n) ↔ ∃ o ∈ completed, n ∈ Routes table triggerToNodes state o := by
  unfold computeNextTasks at h
  split at h
  · cases h
  · rename_i acc hacc
    cases h
    have hcoll := ExceptFold.foldlM_collects (fun _ _ _ => mem_names_routeOutput) hacc n
    rw [NextTasks.mem_names_empty, false_or] at hcoll
    exact hcoll

end Spec

end Juncture
