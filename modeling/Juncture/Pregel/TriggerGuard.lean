import Juncture.Pregel.Scheduler

/-!
# The guard on fixed edges

`compute_next_tasks` follows a fixed edge only if the reverse map names its target among the nodes
that the completed node triggers.  The reverse map is made from the incoming side of the trigger
table and the walk goes over the outgoing side.  Here is the same walk without the guard, and the
proof that a table built from edges has both sides in agreement.

* `mem_triggeredNodes_of_fixed` : the incoming side mirrors every fixed edge.
* `computeNextTasks_eq_walk` : the guard never suppresses an edge.
-/

namespace Juncture

variable {S : Type} [State S]

/-! ### The walk without the guard -/

/-- `process_edge`, following every fixed edge. -/
def walkEdge (base : ℕ) (state : S) (nodes : Dict (Node S)) (fromNode : String)
    (acc : NextTasks S) : CompiledEdge S → Except JunctureError (NextTasks S)
  | .fixed target => .ok (if target != END then acc.pushPull base target else acc)
  | .conditional router pathMap =>
    match router state with
    | .error e => .error e
    | .ok route => route.targets.foldlM (processLabel base nodes fromNode pathMap) acc

/-- The routing of one completed task, over all its outgoing edges. -/
def walkOutput (base : ℕ) (table : TriggerTable S) (nodes : Dict (Node S)) (state : S)
    (acc : NextTasks S) (o : TaskOutput S) : Except JunctureError (NextTasks S) :=
  match o.command.goto with
  | .none => (table.edgesOf o.nodeName).foldlM (walkEdge base state nodes o.nodeName) acc
  | .next target => .ok (acc.pushPull base target)
  | .multiple targets => .ok (targets.foldl (NextTasks.pushPull base) acc)
  | .send targets => .ok (targets.zipIdx.foldl (NextTasks.pushSend base) acc)
  | .end => .ok acc

/-- The tasks that a plain walk over the outgoing edges schedules. -/
def walkNextTasks (base : ℕ) (completed : List (TaskOutput S)) (table : TriggerTable S)
    (nodes : Dict (Node S)) (state : S) : Except JunctureError (List (PendingTask S)) :=
  match completed.foldlM (walkOutput base table nodes state) NextTasks.empty with
  | .error e => .error e
  | .ok acc => .ok acc.tasks

/-! ### The two sides of the table -/

omit [State S] in
/-- **The incoming side mirrors every fixed edge of the outgoing side.** -/
theorem mem_triggeredNodes_of_fixed {edges : List (Edge S)} {source target : String}
    (h : .fixed target ∈ (buildTriggerTable edges).edgesOf source) :
    target ∈ (TriggerToNodes.fromTriggerTable (buildTriggerTable edges)).triggeredNodes [source] := by
  obtain ⟨hmem, hend⟩ := fixed_of_buildTriggerTable h
  rw [TriggerToNodes.mem_triggeredNodes_iff]
  have htriggers : Edge.Triggers source target (.fixed source target : Edge S) :=
    ⟨rfl, rfl, .inr hend⟩
  exact ⟨.edge source, mem_sourcesOf_buildTriggerTable.2 ⟨_, hmem, htriggers⟩, rfl⟩

/-- **The guard never suppresses an edge**: with the reverse map of its own table, the scheduler
returns what the plain walk returns, for every list of outputs and every state. -/
theorem computeNextTasks_eq_walk (edges : List (Edge S)) (base : ℕ)
    (completed : List (TaskOutput S)) (nodes : Dict (Node S)) (state : S) :
    computeNextTasks base completed (buildTriggerTable edges)
        (.fromTriggerTable (buildTriggerTable edges)) nodes state =
      walkNextTasks base completed (buildTriggerTable edges) nodes state := by
  have hedge : ∀ source, ∀ e ∈ (buildTriggerTable edges).edgesOf source, ∀ acc : NextTasks S,
      processEdge base state nodes
          ((TriggerToNodes.fromTriggerTable (buildTriggerTable edges)).triggeredNodes [source])
          source acc e =
        walkEdge base state nodes source acc e := by
    intro source e he acc
    cases e with
    | fixed target =>
      have hmem := List.contains_iff_mem.2 (mem_triggeredNodes_of_fixed he)
      simp only [processEdge, walkEdge, hmem, Bool.true_and]
    | conditional router pathMap => rfl
  have houtput : ∀ o ∈ completed, ∀ acc : NextTasks S,
      routeOutput base (buildTriggerTable edges) (.fromTriggerTable (buildTriggerTable edges)) nodes
          state acc o =
        walkOutput base (buildTriggerTable edges) nodes state acc o := by
    intro o _ acc
    unfold routeOutput walkOutput
    cases o.command.goto with
    | none => exact ExceptFold.foldlM_congr (hedge o.nodeName)
    | next | multiple | send | «end» => rfl
  unfold computeNextTasks walkNextTasks
  have hfold := ExceptFold.foldlM_congr houtput (b := NextTasks.empty)
  cases hwalk : completed.foldlM (walkOutput base (buildTriggerTable edges) nodes state)
      NextTasks.empty with
  | error e => simp only [hfold, hwalk]
  | ok acc => simp only [hfold, hwalk]

end Juncture
