import Juncture.Core.Transcript
import Juncture.Pregel.Scheduler

/-!
# The targets of scheduled tasks

In a graph that validation accepts, edges lead to registered nodes, so a node that routes with
`Goto::None` can only schedule registered nodes, and a router that returns an unknown label fails
the superstep.  The targets of an explicit `Goto` are not looked at: `Goto::Next("__end__")` and a
misspelled name both become tasks.

`schedulesValid_iff` says exactly when the tasks of a superstep are valid.
-/

namespace Juncture

variable {S : Type} [State S]

/-- A graph that passed validation: its nodes, and edges whose ends are registered. -/
structure Topology (S : Type) [State S] where
  /-- Nodes, in registration order. -/
  nodes : Dict (Node S)
  /-- Edges, as the builder recorded them. -/
  edges : List (Edge S)
  /-- `check_edge_targets` accepted the edges. -/
  accepted : checkEdgeTargets nodes.containsKey edges = true

namespace Topology

/-- The compiled trigger table. -/
def table (G : Topology S) : TriggerTable S := buildTriggerTable G.edges

/-- The reverse map, built once for the loop. -/
def triggerToNodes (G : Topology S) : TriggerToNodes := .fromTriggerTable G.table

/-- The tasks after a superstep with the given outputs. -/
def nextTasks (G : Topology S) (base : ℕ) (completed : List (TaskOutput S)) (state : S) :
    Except JunctureError (List (PendingTask S)) :=
  computeNextTasks base completed G.table G.triggerToNodes G.nodes state

/-- The name of a registered node, other than `END`. -/
def IsTarget (G : Topology S) (n : String) : Prop := n ∈ G.nodes ∧ n ≠ END

/-- Scheduling after `completed` is valid: every task names a registered node and none names `END`,
and a target that is neither makes scheduling fail. -/
def SchedulesValid (G : Topology S) (base : ℕ) (completed : List (TaskOutput S)) (state : S) :
    Prop :=
  (∀ tasks, G.nextTasks base completed state = .ok tasks → ∀ t ∈ tasks, G.IsTarget t.nodeName) ∧
    ∀ o ∈ completed, ∀ n ∈ Routes G.table G.triggerToNodes state o, n ∉ G.nodes → n ≠ END →
      ∃ e, G.nextTasks base completed state = .error e

end Topology

/-- The targets a command names explicitly. -/
def Goto.targets : Goto → List String
  | .none => []
  | .next target => [target]
  | .multiple targets => targets
  | .send targets => targets.map SendTarget.node
  | .end => []

section

variable {G : Topology S} {base : ℕ} {completed : List (TaskOutput S)} {state : S}

omit [State S] in
theorem mem_labelRoutes {pathMap : PathMap} {label n : String} :
    n ∈ labelRoutes pathMap label ↔ n ≠ END ∧ n = labelTarget pathMap label := by
  constructor
  · rintro ⟨h, rfl⟩; exact ⟨h, rfl⟩
  · rintro ⟨h, rfl⟩; exact ⟨h, rfl⟩

/-- **The edges of an accepted graph lead to registered nodes**, unless a label is unknown. -/
theorem isTarget_of_edgeRoutes {node : String} {e : CompiledEdge S}
    (he : e ∈ G.table.edgesOf node) (hf : ¬ edgeFails G.nodes state e) {n : String}
    (hn : n ∈ edgeRoutes G.triggerToNodes state node e) : G.IsTarget n := by
  cases e with
  | fixed target =>
    obtain ⟨rfl, -, -⟩ := hn
    have h := fixed_target_registered G.accepted he
    exact ⟨Dict.containsKey_iff.1 h.1, h.2⟩
  | conditional router pathMap =>
    obtain ⟨route, hr, label, hl, hn⟩ := hn
    obtain ⟨hne, rfl⟩ := mem_labelRoutes.1 hn
    simp only [edgeFails, hr, not_exists, not_and] at hf
    have hk := hf label hl
    refine ⟨Dict.containsKey_iff.1 ?_, hne⟩
    cases hp : pathMap.lookup label with
    | some target =>
      have ht : labelTarget pathMap label = target := by simp [labelTarget, hp]
      rw [ht] at hne ⊢
      exact pathMap_target_registered G.accepted he hp hne
    | none =>
      -- A label that is no branch is used as a node name, and was checked to be one.
      simpa [labelUnknown, Dict.containsKey, hp, hne, Option.isSome_iff_ne_none] using hk

theorem mem_routes_of_mem_targets {o : TaskOutput S} {n : String}
    (h : n ∈ o.command.goto.targets) : n ∈ Routes G.table G.triggerToNodes state o := by
  unfold Routes
  cases hg : o.command.goto with
  | none => simp [hg, Goto.targets] at h
  | next target => simpa [hg, Goto.targets] using h
  | multiple targets => simpa [hg, Goto.targets] using h
  | send targets => simpa [hg, Goto.targets] using h
  | «end» => simp [hg, Goto.targets] at h

theorem isTarget_of_routes {o : TaskOutput S} (hf : ¬ RoutingFails G.table G.nodes state o)
    (ht : ∀ n ∈ o.command.goto.targets, G.IsTarget n) {n : String}
    (hn : n ∈ Routes G.table G.triggerToNodes state o) : G.IsTarget n := by
  unfold Routes at hn
  cases hg : o.command.goto with
  | none =>
    rw [hg] at hn
    obtain ⟨e, he, hn⟩ := hn
    exact isTarget_of_edgeRoutes he (fun hfe => hf ⟨hg, e, he, hfe⟩) hn
  | next target =>
    rw [hg] at hn ht
    exact ht n (by simpa [Goto.targets] using hn)
  | multiple targets =>
    rw [hg] at hn ht
    exact ht n (by simpa [Goto.targets] using hn)
  | send targets =>
    rw [hg] at hn ht
    exact ht n (by simpa [Goto.targets] using hn)
  | «end» =>
    rw [hg] at hn
    exact absurd hn (by simp)

/-- **When scheduling is valid.**  Either a followed edge fails, and nothing is scheduled, or every
target that a command names explicitly is a registered node other than `END`. -/
theorem schedulesValid_iff :
    G.SchedulesValid base completed state ↔
      (∃ o ∈ completed, RoutingFails G.table G.nodes state o) ∨
        ∀ o ∈ completed, ∀ n ∈ o.command.goto.targets, G.IsTarget n := by
  by_cases hfail : ∃ o ∈ completed, RoutingFails G.table G.nodes state o
  · have hnok : ¬ ∃ tasks, G.nextTasks base completed state = .ok tasks := by
      rw [Topology.nextTasks, computeNextTasks_ok_iff]
      push Not
      exact hfail
    refine ⟨fun _ => .inl hfail, fun _ => ⟨fun tasks h => absurd ⟨tasks, h⟩ hnok, ?_⟩⟩
    intro _ _ _ _ _ _
    cases h : G.nextTasks base completed state with
    | error e => exact ⟨e, rfl⟩
    | ok tasks => exact absurd ⟨tasks, h⟩ hnok
  · have hall : ∀ o ∈ completed, ¬ RoutingFails G.table G.nodes state o :=
      fun o ho h => hfail ⟨o, ho, h⟩
    obtain ⟨tasks, htasks⟩ := computeNextTasks_ok_iff.2 hall
    have hnames := mem_computeNextTasks_iff htasks
    constructor
    · rintro ⟨hvalid, -⟩
      refine .inr fun o ho n hn => ?_
      obtain ⟨t, ht, rfl⟩ := (hnames n).2 ⟨o, ho, mem_routes_of_mem_targets hn⟩
      exact hvalid tasks htasks t ht
    · intro h
      have hexp := h.resolve_left hfail
      constructor
      · intro tasks' h' t ht
        obtain rfl : tasks = tasks' := Except.ok.inj (htasks.symm.trans h')
        obtain ⟨o, ho, hn⟩ := (hnames t.nodeName).1 ⟨t, ht, rfl⟩
        exact isTarget_of_routes (hall o ho) (hexp o ho) hn
      · intro o ho n hn hreg _
        exact absurd (isTarget_of_routes (hall o ho) (hexp o ho) hn).1 hreg

/-- A one-node graph, entered at `a`, which finishes by naming `END`. -/
def gotoEnd : Topology Transcript where
  nodes := Dict.ofList [("a", ⟨fun _ _ => .done (.ok { goto := .next END })⟩)]
  edges := [.fixed START "a"]
  accepted := by decide

/-- The output of node `a` of `gotoEnd`. -/
def gotoEndOutput : TaskOutput Transcript :=
  { taskId := 0, nodeName := "a", command := { goto := .next END }, trigger := .pull }

/-- A node that returns `Goto::Next(END)` schedules a task for `END`. -/
theorem gotoEnd_not_schedulesValid : ¬ gotoEnd.SchedulesValid 1 [gotoEndOutput] {} := by
  intro h
  have ht := h.1 [.pull 1 END] rfl _ List.mem_cons_self
  exact ht.2 rfl

end

end Juncture
