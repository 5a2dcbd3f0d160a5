import Juncture.Graph.Components
import Juncture.Graph.EntryPoints
import Juncture.Pregel.Scheduled
import Mathlib.Data.Set.Finite.Basic
import Mathlib.Order.WellFounded

/-!
# Cycles that a run cannot leave

`check_infinite_loops` rejects a component of several names if none of its conditional edges leads
out of it.  It skips the components of one name, also if that has an edge to itself; and it takes a
conditional way out of a component for a way out of each of its cycles, although fixed edges are
followed whatever the routers say.

* `checkInfiniteLoops_eq_ok_iff` : what is accepted.
* `ForcedForever.scheduled` : what fixed edges do to a run.
* `loopLaw_iff` : when the check tells the graphs that may run for ever from the others.
-/

namespace Juncture

open Relation

variable {S : Type} [State S]

/-! ### Components and their exits -/

/-- The names that are reached from a node. -/
def Covered (nodes : Dict (Node S)) (edges : List (Edge S)) (x : String) : Prop :=
  ∃ node ∈ nodes.keys, Reaches edges node x

/-- The strongly connected component of a name. -/
def component (edges : List (Edge S)) (x : String) : Set String :=
  {y | Reaches edges x y ∧ Reaches edges y x}

/-- The name lies on a cycle. -/
def OnCycle (edges : List (Edge S)) (x : String) : Prop :=
  TransGen (fun x y => ∃ edge ∈ edges, edge.Leads x y) x x

/-- The edge is a conditional one, from the set to `END` or to a name outside. -/
def Edge.Exits (C : Set String) : Edge S → Prop
  | .fixed _ _ => False
  | .conditional source _ pathMap =>
    source ∈ C ∧ ∃ kv ∈ pathMap.entries, kv.2 = END ∨ kv.2 ∉ C

/-- There is a conditional way out of the set. -/
def HasExit (edges : List (Edge S)) (C : Set String) : Prop := ∃ edge ∈ edges, edge.Exits C

section

variable {nodes : Dict (Node S)} {edges : List (Edge S)} {x : String}

omit [State S] in
theorem isExit_iff {scc : List String} {edge : Edge S} :
    isExit scc edge = true ↔ edge.Exits {y | y ∈ scc} := by
  cases edge with
  | fixed source target => simp [isExit, Edge.Exits]
  | conditional source router pathMap => simp [isExit, Edge.Exits]

omit [State S] in
theorem any_isExit_iff {scc : List String} :
    edges.any (isExit scc) = true ↔ HasExit edges {y | y ∈ scc} := by
  rw [List.any_eq_true]
  exact exists_congr fun edge => and_congr_right fun _ => isExit_iff

/-- What `find_sccs` returns are the components. -/
theorem eq_component {scc : List String} (hscc : scc ∈ TarjanSCC.findSccs nodes edges)
    (hx : x ∈ scc) : {y | y ∈ scc} = component edges x := by
  ext y
  have hmutual := (TarjanSCC.isPartition_findSccs nodes edges).mutual_reach scc hscc x hx y
  rwa [reach_cyclicAdjacency] at hmutual

theorem covered_iff : Covered nodes edges x ↔ ∃ scc ∈ TarjanSCC.findSccs nodes edges, x ∈ scc := by
  have hcovers := (TarjanSCC.isPartition_findSccs nodes edges).covers x
  rw [reach_cyclicAdjacency, List.mem_flatten] at hcovers
  exact hcovers.symm

theorem one_lt_length_iff {scc : List String} (hscc : scc ∈ TarjanSCC.findSccs nodes edges) :
    1 < scc.length ↔ {y | y ∈ scc}.Nontrivial := by
  have hnodup : scc.Nodup := (List.nodup_flatten.1
    (TarjanSCC.isPartition_findSccs nodes edges).nodup).1 scc hscc
  constructor
  · intro hlt
    refine ⟨scc[0], List.getElem_mem _, scc[1], List.getElem_mem _, fun heq => ?_⟩
    have := (hnodup.getElem_inj_iff).1 heq
    omega
  · rintro ⟨y, hy, z, hz, hne⟩
    by_contra hle
    have hlen : scc.length = 1 := by
      have := List.length_pos_of_mem hy
      omega
    obtain ⟨w, rfl⟩ := List.length_eq_one_iff.1 hlen
    exact hne ((List.mem_singleton.1 hy).trans (List.mem_singleton.1 hz).symm)

/-- **What `check_infinite_loops` accepts**: every component of several names has an exit. -/
theorem checkInfiniteLoops_eq_ok_iff : checkInfiniteLoops nodes edges = .ok () ↔
    ∀ x, Covered nodes edges x → (component edges x).Nontrivial →
      HasExit edges (component edges x) := by
  rw [checkInfiniteLoops, StateGraph.reject_eq_ok_iff, Option.map_eq_none_iff, List.find?_eq_none]
  constructor
  · intro h x hx hnontrivial
    obtain ⟨scc, hscc, hxscc⟩ := covered_iff.1 hx
    rw [← eq_component hscc hxscc] at hnontrivial ⊢
    have hlt := (one_lt_length_iff hscc).2 hnontrivial
    have hpass := h scc hscc
    simp only [Bool.and_eq_true, decide_eq_true_eq, hlt, true_and, Bool.not_eq_true',
      Bool.not_eq_false] at hpass
    exact any_isExit_iff.1 hpass
  · intro h scc hscc
    simp only [Bool.and_eq_true, decide_eq_true_eq, Bool.not_eq_true', not_and, Bool.not_eq_false]
    intro hlt
    have hnontrivial := (one_lt_length_iff hscc).1 hlt
    obtain ⟨x, hx⟩ := hnontrivial.nonempty
    have heq := eq_component hscc hx
    rw [heq] at hnontrivial
    rw [any_isExit_iff, heq]
    exact h x (covered_iff.2 ⟨scc, hscc, hx⟩) hnontrivial

omit [State S] in
theorem mem_component_self : x ∈ component edges x := ⟨.refl, .refl⟩

omit [State S] in
/-- In a component of several names every name lies on a cycle. -/
theorem onCycle_of_nontrivial (h : (component edges x).Nontrivial) : OnCycle edges x := by
  obtain ⟨y, ⟨hxy, hyx⟩, hne⟩ := h.exists_ne x
  obtain rfl | htrans := reflTransGen_iff_eq_or_transGen.1 hxy
  · exact absurd rfl hne
  · exact htrans.trans_left hyx

omit [State S] in
/-- A name that is alone in its component lies on a cycle only if it has an edge to itself. -/
theorem onCycle_iff_of_alone (h : component edges x = {x}) :
    OnCycle edges x ↔ ∃ edge ∈ edges, edge.Leads x x := by
  constructor
  · intro hcycle
    obtain ⟨y, hxy, hyx⟩ := TransGen.head'_iff.1 hcycle
    have hy : y ∈ component edges x := ⟨.single hxy, hyx⟩
    rw [h] at hy
    obtain rfl := Set.mem_singleton_iff.1 hy
    exact hxy
  · exact fun hself => .single hself

omit [State S] in
theorem eq_singleton_or_nontrivial (edges : List (Edge S)) (x : String) :
    component edges x = {x} ∨ (component edges x).Nontrivial :=
  (Set.eq_singleton_or_nontrivial mem_component_self)

end

/-! ### Sets that a run cannot leave -/

/-- `x` is entered, or reached from a node that is. -/
def Reachable (edges : List (Edge S)) (x : String) : Prop :=
  ∃ entry, (∃ edge ∈ edges, edge.Triggers START entry) ∧ Reaches edges entry x

/-- A fixed edge between nodes. -/
def Forces (nodes : Dict (Node S)) (edges : List (Edge S)) (x y : String) : Prop :=
  .fixed x y ∈ edges ∧ x ≠ START ∧ y ≠ END ∧ y ∈ nodes.keys

/-- Nodes that are reached, and that fixed edges force to run for ever: after each of them, one of
them is next. -/
structure ForcedForever (nodes : Dict (Node S)) (edges : List (Edge S)) (F : Set String) :
    Prop where
  /-- There is one. -/
  nonempty : F.Nonempty
  /-- They are nodes. -/
  nodes : ∀ x ∈ F, x ∈ nodes.keys
  /-- They are reached. -/
  reachable : ∀ x ∈ F, Reachable edges x
  /-- A fixed edge leads from each to one of them. -/
  forced : ∀ x ∈ F, ∃ y ∈ F, .fixed x y ∈ edges ∧ x ≠ START ∧ y ≠ END

section

variable {nodes : Dict (Node S)} {edges : List (Edge S)} {F : Set String} {x y : String}

/-- **A node of the set has one of the set scheduled**, whatever the routers say, when it completes
without a command. -/
theorem ForcedForever.scheduled (h : ForcedForever nodes edges F) {base : ℕ}
    {completed : List (TaskOutput S)} {state : S} {tasks : List (PendingTask S)}
    {o : TaskOutput S} (ho : o ∈ completed) (hF : o.nodeName ∈ F) (hgoto : o.command.goto = .none)
    (htasks : computeNextTasks base completed (buildTriggerTable edges)
      (.fromTriggerTable (buildTriggerTable edges)) nodes state = .ok tasks) :
    ∃ t ∈ tasks, t.nodeName ∈ F := by
  obtain ⟨y, hy, hedge, hstart, hend⟩ := h.forced _ hF
  have hmem := fixed_mem_edgesOf_iff.2 ⟨hedge, hstart, hend⟩
  have hroutes : y ∈ Routes (buildTriggerTable edges)
      (.fromTriggerTable (buildTriggerTable edges)) state o := by
    rw [Routes, hgoto]
    exact ⟨.fixed y, hmem, rfl, mem_triggeredNodes_of_fixed hmem, hend⟩
  obtain ⟨t, ht, rfl⟩ := (mem_computeNextTasks_iff htasks y).2 ⟨o, ho, hroutes⟩
  exact ⟨t, ht, hy⟩

omit [State S] in
/-- In a finite set that every step can stay in, there is a cycle. -/
theorem exists_transGen_self {R : String → String → Prop} (hfin : F.Finite) (hne : F.Nonempty)
    (hstep : ∀ x ∈ F, ∃ y ∈ F, R x y) : ∃ x ∈ F, TransGen R x x := by
  by_contra hnone
  have hfinite := hfin.to_subtype
  have htrans : IsTrans F fun x y => TransGen R y.1 x.1 := ⟨fun _ _ _ hxy hyz => hyz.trans hxy⟩
  have hirrefl : Std.Irrefl fun x y : F => TransGen R y.1 x.1 :=
    ⟨fun x hx => hnone ⟨x.1, x.2, hx⟩⟩
  have hwf := Finite.wellFounded_of_trans_of_irrefl fun x y : F => TransGen R y.1 x.1
  obtain ⟨x, hx⟩ := hne
  -- a node from which no other one is reached
  obtain ⟨m, -, hmin⟩ := hwf.has_min Set.univ ⟨⟨x, hx⟩, trivial⟩
  obtain ⟨y, hy, hmy⟩ := hstep m.1 m.2
  exact hmin ⟨y, hy⟩ trivial (.single hmy)

theorem Forces.reaches (h : TransGen (Forces nodes edges) x y) : Reaches edges x y := by
  have hleads : ∀ x y, Forces nodes edges x y → ∃ edge ∈ edges, edge.Leads x y := by
    rintro x y ⟨hmem, hx, hy, -⟩
    exact ⟨_, hmem, rfl, rfl, hx, hy⟩
  exact h.to_reflTransGen.lift id hleads

/-- **There are such nodes exactly if a cycle of fixed edges is reached.** -/
theorem exists_forcedForever_iff : (∃ F, ForcedForever nodes edges F) ↔
    ∃ x, Reachable edges x ∧ TransGen (Forces nodes edges) x x := by
  constructor
  · rintro ⟨F, hF⟩
    have hfin : F.Finite := (List.finite_toSet nodes.keys).subset hF.nodes
    obtain ⟨x, hx, hcycle⟩ := exists_transGen_self (R := Forces nodes edges) hfin hF.nonempty
      fun x hx => by
        obtain ⟨y, hy, hmem, hstart, hend⟩ := hF.forced x hx
        exact ⟨y, hy, hmem, hstart, hend, hF.nodes y hy⟩
    exact ⟨x, hF.reachable x hx, hcycle⟩
  · rintro ⟨x, ⟨entry, hentry, hreach⟩, hcycle⟩
    -- the names on the cycles through `x`
    refine ⟨{y | TransGen (Forces nodes edges) x y ∧ TransGen (Forces nodes edges) y x},
      ⟨x, hcycle, hcycle⟩, fun y hy => ?_, fun y hy => ⟨entry, hentry, ?_⟩, fun y hy => ?_⟩
    · obtain ⟨z, -, hzy⟩ := TransGen.tail'_iff.1 hy.1
      exact hzy.2.2.2
    · exact hreach.trans (Forces.reaches hy.1)
    · obtain ⟨z, hyz, hzx⟩ := TransGen.head'_iff.1 hy.2
      refine ⟨z, ⟨hy.1.tail hyz, ?_⟩, hyz.1, hyz.2.1, hyz.2.2.1⟩
      exact hcycle.trans_right hzx

end

/-! ### The law -/

/-- The graphs that are accepted are those whose components with cycles have exits, and none of them
has nodes that are forced to run for ever. -/
def LoopLaw (nodes : Dict (Node S)) (edges : List (Edge S)) : Prop :=
  (checkInfiniteLoops nodes edges = .ok () ↔
    ∀ x, Covered nodes edges x → (∃ y ∈ component edges x, OnCycle edges y) →
      HasExit edges (component edges x)) ∧
  (checkInfiniteLoops nodes edges = .ok () → ¬ ∃ F, ForcedForever nodes edges F)

/-- A component of several names has no exit. -/
def Trapped (nodes : Dict (Node S)) (edges : List (Edge S)) : Prop :=
  ∃ x, Covered nodes edges x ∧ (component edges x).Nontrivial ∧ ¬ HasExit edges (component edges x)

/-- Every name that is alone in its component and has an edge to itself has an exit, and no cycle of
fixed edges is reached. -/
structure FreeOfLoops (nodes : Dict (Node S)) (edges : List (Edge S)) : Prop where
  /-- Edges to oneself. -/
  alone : ∀ x, Covered nodes edges x → component edges x = {x} →
    (∃ edge ∈ edges, edge.Leads x x) → HasExit edges {x}
  /-- Fixed edges. -/
  fixed : ∀ x, Reachable edges x → ¬ TransGen (Forces nodes edges) x x

/-- **When the check is right**: if it rejects the graph, or there is nothing to reject it for among
the components of one name and the fixed edges. -/
theorem loopLaw_iff (nodes : Dict (Node S)) (edges : List (Edge S)) :
    LoopLaw nodes edges ↔ Trapped nodes edges ∨ FreeOfLoops nodes edges := by
  have hforced : (¬ ∃ F, ForcedForever nodes edges F) ↔
      ∀ x, Reachable edges x → ¬ TransGen (Forces nodes edges) x x := by
    rw [exists_forcedForever_iff]
    push Not
    rfl
  rw [LoopLaw, hforced, checkInfiniteLoops_eq_ok_iff]
  constructor
  · rintro ⟨hexact, hsafe⟩
    by_cases htrapped : Trapped nodes edges
    · exact .inl htrapped
    · have hok : ∀ x, Covered nodes edges x → (component edges x).Nontrivial →
          HasExit edges (component edges x) := fun x hx hnontrivial =>
        not_not.1 fun hnot => htrapped ⟨x, hx, hnontrivial, hnot⟩
      refine .inr ⟨fun x hx halone hself => ?_, hsafe hok⟩
      have hexit := hexact.1 hok x hx ⟨x, mem_component_self, (onCycle_iff_of_alone halone).2 hself⟩
      rwa [halone] at hexit
  · rintro (⟨x, hx, hnontrivial, hnot⟩ | hfree)
    · refine ⟨⟨fun h => absurd (h x hx hnontrivial) hnot, fun h => ?_⟩,
        fun h => absurd (h x hx hnontrivial) hnot⟩
      exact absurd (h x hx ⟨x, mem_component_self, onCycle_of_nontrivial hnontrivial⟩) hnot
    · refine ⟨⟨fun h x hx hcycle => ?_, fun h x hx hnontrivial => ?_⟩, fun _ => hfree.fixed⟩
      · obtain halone | hnontrivial := eq_singleton_or_nontrivial edges x
        · obtain ⟨y, hy, hcycle⟩ := hcycle
          rw [halone] at hy ⊢
          obtain rfl := Set.mem_singleton_iff.1 hy
          exact hfree.alone _ hx halone ((onCycle_iff_of_alone halone).1 hcycle)
        · exact h x hx hnontrivial
      · exact h x hx ⟨x, mem_component_self, onCycle_of_nontrivial hnontrivial⟩

/-- A node with an edge to itself. -/
def selfLoop : StateGraph Transcript :=
  { nodes := Dict.ofList [("a", appending 1)] : StateGraph Transcript }.setEntryPoint "a" |>.addEdge
    "a" "a"

/-- It compiles. -/
theorem selfLoop_not_loopLaw :
    (∃ c, selfLoop.compileInner {} (none : Option (CheckpointSaver Unit)) = .ok c) ∧
      ¬ LoopLaw selfLoop.nodes selfLoop.edges := by
  have hedges : selfLoop.edges = [.fixed START "a", .fixed "a" "a"] := rfl
  refine ⟨⟨_, rfl⟩, fun h => h.2 (by decide) ⟨{"a"}, ⟨"a", rfl⟩, ?_, ?_, ?_⟩⟩
  · rintro x rfl
    decide
  · rintro x rfl
    refine ⟨"a", ⟨.fixed START "a", ?_, rfl, rfl, .inl rfl⟩, .refl⟩
    rw [hedges]
    exact List.mem_cons_self
  · rintro x rfl
    refine ⟨"a", rfl, ?_, by decide, by decide⟩
    rw [hedges]
    exact List.mem_cons_of_mem _ List.mem_cons_self

end Juncture
