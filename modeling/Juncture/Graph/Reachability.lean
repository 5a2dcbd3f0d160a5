import Juncture.Graph.EntryPoints
import Juncture.Graph.Components
import Juncture.Lib.BreadthFirst

/-!
# Which nodes validation takes for reachable

`check_reachability` searches from the entry point, along edges, path maps and fallbacks.  A run
starts from the target of every `START` edge, and error handlers are scheduled besides.

* `checkReachability_eq_ok_iff` : the search finds what is reached from the entry point.
* `reachabilityLaw_iff` : when the nodes that it misses are those that no run can get to.
-/

namespace Juncture

open Relation

variable {S : Type} [State S]

/-! ### The search -/

theorem bfsVisit_eq (acc : List String × List String) (neighbor : String) :
    bfsVisit acc neighbor = BreadthFirst.look acc neighbor := by
  simp [bfsVisit, BreadthFirst.look]

theorem bfs_eq_search (a : Adjacency) (fuel : ℕ) (visited queue : List String) :
    bfs a fuel visited queue = BreadthFirst.search a.neighbors fuel visited queue := by
  have hlook : bfsVisit = BreadthFirst.look := funext₂ bfsVisit_eq
  induction fuel generalizing visited queue with
  | zero => rfl
  | succ fuel ih =>
    cases queue with
    | nil => rfl
    | cons current queue =>
      rw [bfs, BreadthFirst.search, hlook]
      exact ih ..

/-- **The search finds what is reached**: no run of it uses its fuel up. -/
theorem mem_bfs_iff (a : Adjacency) (entry x : String) :
    x ∈ bfs a (a.size + 1) [entry] [entry] ↔
      ReflTransGen (fun x y => y ∈ a.neighbors x) entry x := by
  have hnames : ∀ x, ∀ y ∈ a.neighbors x, y ∈ a.names :=
    fun _ _ hy => Adjacency.mem_names_of_neighbor hy
  rw [bfs_eq_search]
  exact BreadthFirst.mem_search_iff hnames (Nat.succ_le_succ a.card_names_le) x

/-! ### Its adjacency -/

/-- `y` is the fallback of `x`. -/
def FallsBack (metadata : Dict NodeMetadata) (x y : String) : Prop :=
  ∃ m, metadata.lookup x = some m ∧ m.fallbackNode = some y

/-- `y` is the error handler of `x`. -/
def HandledBy (metadata : Dict NodeMetadata) (x y : String) : Prop :=
  ∃ m, metadata.lookup x = some m ∧ m.errorHandler = some y

/-- What the search follows. -/
def Follows (edges : List (Edge S)) (metadata : Dict NodeMetadata) (x y : String) : Prop :=
  (∃ edge ∈ edges, edge.Leads x y) ∨ FallsBack metadata x y

omit [State S] in
/-- The entries of the other edges apart, it is the adjacency of `find_sccs`. -/
theorem neighbors_addReachable (a : Adjacency) (edge : Edge S) (x : String) :
    (addReachable a edge).neighbors x = (addCyclic a edge).neighbors x := by
  cases edge with
  | fixed source target =>
    by_cases hstart : source = START
    · simp [addReachable, addCyclic, hstart]
    · simp [addReachable, addCyclic, hstart]
  | conditional source router pathMap =>
    by_cases hstart : source = START
    · simp [addReachable, addCyclic, hstart, Adjacency.neighbors_foldl_touch]
    · simp [addReachable, addCyclic, hstart]

theorem mem_neighbors_addFallbacks (a : Adjacency) (metadata : Dict NodeMetadata) (x y : String) :
    y ∈ (addFallbacks a metadata).neighbors x ↔ y ∈ a.neighbors x ∨ FallsBack metadata x y := by
  have hsteps : addFallbacks a metadata = metadata.entries.foldl
      (fun a kv => kv.2.fallbackNode.elim a (Adjacency.link kv.1 a)) a := by
    unfold addFallbacks
    congr 1
    funext a kv
    cases kv.2.fallbackNode with
    | none => rfl
    | some fallback => rfl
  have hfold := ExceptFold.foldl_collects
    (f := fun (a : Adjacency) (kv : Σ _ : String, NodeMetadata) =>
      kv.2.fallbackNode.elim a (Adjacency.link kv.1 a))
    (fun a : Adjacency => {y | y ∈ a.neighbors x})
    (R := fun kv => {y | x = kv.1 ∧ kv.2.fallbackNode = some y})
    (fun a kv y => by
      cases hfallback : kv.2.fallbackNode with
      | none => simp
      | some fallback =>
        refine Adjacency.mem_neighbors_link.trans (or_congr_right (and_congr_right fun _ => ?_))
        rw [Option.some.injEq, eq_comm]) metadata.entries a y
  rw [hsteps]
  refine (show _ ↔ _ from hfold).trans (or_congr_right ?_)
  constructor
  · rintro ⟨⟨node, m⟩, hmem, rfl, hfallback⟩
    exact ⟨m, AList.mem_lookup_iff.2 hmem, hfallback⟩
  · rintro ⟨m, hlookup, hfallback⟩
    exact ⟨⟨x, m⟩, AList.mem_lookup_iff.1 hlookup, rfl, hfallback⟩

theorem mem_neighbors_reachAdjacency (nodes : Dict (Node S)) (edges : List (Edge S))
    (metadata : Dict NodeMetadata) (x y : String) :
    y ∈ (reachAdjacency nodes edges metadata).neighbors x ↔ Follows edges metadata x y := by
  have hfold := ExceptFold.foldl_collects (f := addReachable)
    (fun a : Adjacency => {y | y ∈ a.neighbors x})
    (R := fun edge : Edge S => {y | edge.Leads x y})
    (fun a edge y => by
      rw [Set.mem_ofPred_eq, neighbors_addReachable]
      exact mem_neighbors_addCyclic a edge x y) edges
    (nodes.keys.foldl Adjacency.touch ∅) y
  have hempty : (nodes.keys.foldl Adjacency.touch ∅).neighbors x = [] :=
    Adjacency.neighbors_foldl_touch ..
  rw [reachAdjacency, mem_neighbors_addFallbacks]
  refine or_congr_left ((show _ ↔ _ from hfold).trans (or_iff_right fun h => ?_))
  rw [Set.mem_ofPred_eq, hempty] at h
  cases h

/-- **What `check_reachability` accepts**: every node is reached from the entry point. -/
theorem checkReachability_eq_ok_iff {nodes : Dict (Node S)} {edges : List (Edge S)}
    {entryPoint : Option String} {metadata : Dict NodeMetadata} :
    checkReachability nodes edges entryPoint metadata = .ok () ↔
      ∃ entry, entryPoint = some entry ∧
        ∀ node ∈ nodes.keys, ReflTransGen (Follows edges metadata) entry node := by
  have hfollows : (fun x y => y ∈ (reachAdjacency nodes edges metadata).neighbors x) =
      Follows edges metadata := by
    funext x y
    exact propext (mem_neighbors_reachAdjacency nodes edges metadata x y)
  cases entryPoint with
  | none => simp [checkReachability]
  | some entry =>
    rw [checkReachability, StateGraph.reject_eq_ok_iff, Option.map_eq_none_iff, List.find?_eq_none]
    simp only [Bool.not_eq_true', List.contains_eq_mem, decide_eq_false_iff_not, not_not,
      Option.some.injEq, exists_eq_left', mem_bfs_iff, hfollows]

/-! ### What a run can get to -/

namespace StateGraph

/-- A node that a run can schedule: a target of a `START` edge, or what an edge, a path map, a
fallback or an error handler leads to from such a node. -/
inductive Schedulable (g : StateGraph S) : String → Prop
  | entered {x edge} : edge ∈ g.edges → edge.Triggers START x → g.Schedulable x
  | led {x y edge} : g.Schedulable x → edge ∈ g.edges → edge.Leads x y → g.Schedulable y
  | fallback {x y} : g.Schedulable x → FallsBack g.builderMetadata x y → g.Schedulable y
  | handler {x y} : g.Schedulable x → HandledBy g.builderMetadata x y → g.Schedulable y

/-- The graphs that can be built. -/
inductive Built : StateGraph S → Prop
  | new : Built {}
  /-- The functions that register nodes change nothing else. -/
  | register {g nodes metadata} : Built g →
      Built { g with nodes := nodes, builderMetadata := metadata }
  | addEdge {g source target} : Built g → Built (g.addEdge source target)
  | addConditionalEdges {g source router pathMap} : Built g →
      Built (g.addConditionalEdges source router pathMap)
  | setEntryPoint {g node} : Built g → Built (g.setEntryPoint node)
  | setFinishPoint {g node} : Built g → Built (g.setFinishPoint node)

variable {g : StateGraph S}

/-- The entry point has its edge. -/
theorem Built.entry (h : Built g) : ∀ entry, g.entryPoint = some entry →
    .fixed START entry ∈ g.edges := by
  induction h with
  | new => exact fun _ hentry => nomatch hentry
  | register _ ih => exact ih
  | addEdge _ ih => exact fun entry hentry => List.mem_append_left _ (ih entry hentry)
  | addConditionalEdges _ ih => exact fun entry hentry => List.mem_append_left _ (ih entry hentry)
  | setEntryPoint _ _ =>
    intro entry hentry
    cases hentry
    exact List.mem_append_right _ List.mem_cons_self
  | setFinishPoint _ ih => exact fun entry hentry => List.mem_append_left _ (ih entry hentry)

/-- The first tasks are for schedulable nodes. -/
theorem schedulable_of_initial {base : Uuid} {t : PendingTask S}
    (ht : t ∈ PregelLoop.computeInitialTasks base (buildTriggerTable g.edges)) :
    g.Schedulable t.nodeName := by
  obtain hfixed | ⟨router, pathMap, hmem, kv, hkv, hname⟩ :=
    exists_mem_computeInitialTasks_iff.1 ⟨t, ht, rfl⟩
  · exact .entered hfixed ⟨rfl, rfl, .inl rfl⟩
  · exact .entered hmem ⟨rfl, kv, hkv, hname⟩

theorem Schedulable.of_follows {x y : String} (hx : g.Schedulable x)
    (h : ReflTransGen (Follows g.edges g.builderMetadata) x y) : g.Schedulable y := by
  induction h with
  | refl => exact hx
  | tail _ hstep ih =>
    obtain ⟨edge, hedge, hleads⟩ | hfallback := hstep
    · exact ih.led hedge hleads
    · exact ih.fallback hfallback

/-- The targets of `START` edges and the error handlers. -/
def Starts (g : StateGraph S) (x : String) : Prop :=
  (∃ edge ∈ g.edges, edge.Triggers START x) ∨ ∃ node, HandledBy g.builderMetadata node x

/-- What is schedulable is followed from one of these. -/
theorem Schedulable.exists_starts {y : String} (h : g.Schedulable y) :
    ∃ x, g.Starts x ∧ ReflTransGen (Follows g.edges g.builderMetadata) x y := by
  induction h with
  | entered hedge htriggers => exact ⟨_, .inl ⟨_, hedge, htriggers⟩, .refl⟩
  | led _ hedge hleads ih =>
    obtain ⟨x, hx, hreach⟩ := ih
    exact ⟨x, hx, hreach.tail (.inl ⟨_, hedge, hleads⟩)⟩
  | fallback _ hfallback ih =>
    obtain ⟨x, hx, hreach⟩ := ih
    exact ⟨x, hx, hreach.tail (.inr hfallback)⟩
  | handler _ hhandled _ => exact ⟨_, .inr ⟨_, hhandled⟩, .refl⟩

/-- Validation accepts the reachability of the nodes exactly if a run can schedule each of them. -/
def ReachabilityLaw (g : StateGraph S) : Prop :=
  checkReachability g.nodes g.edges g.entryPoint g.builderMetadata = .ok () ↔
    ∀ node ∈ g.nodes.keys, g.Schedulable node

/-- There is an entry point, and it leads to every node that another target of a `START` edge, or an
error handler, leads to. -/
def EntrySuffices (g : StateGraph S) : Prop :=
  ∃ entry, g.entryPoint = some entry ∧ ∀ start, g.Starts start → ∀ node ∈ g.nodes.keys,
    ReflTransGen (Follows g.edges g.builderMetadata) start node →
      ReflTransGen (Follows g.edges g.builderMetadata) entry node

/-- **When validation and runs agree**: if there is a node that no run can schedule, or the entry
point leads wherever the other starts do. -/
theorem reachabilityLaw_iff (h : Built g) :
    g.ReachabilityLaw ↔ (∃ node ∈ g.nodes.keys, ¬ g.Schedulable node) ∨ g.EntrySuffices := by
  rw [ReachabilityLaw, checkReachability_eq_ok_iff]
  constructor
  · intro hlaw
    by_cases hall : ∀ node ∈ g.nodes.keys, g.Schedulable node
    · obtain ⟨entry, hentry, hreach⟩ := hlaw.2 hall
      exact .inr ⟨entry, hentry, fun _ _ node hnode _ => hreach node hnode⟩
    · push Not at hall
      exact .inl hall
  · rintro (⟨node, hnode, hnot⟩ | ⟨entry, hentry, hsuffices⟩)
    · refine ⟨?_, fun hall => absurd (hall node hnode) hnot⟩
      rintro ⟨entry, hentry, hreach⟩
      have hself : g.Schedulable entry := .entered (h.entry entry hentry) ⟨rfl, rfl, .inl rfl⟩
      exact absurd (hself.of_follows (hreach node hnode)) hnot
    · constructor
      · rintro ⟨entry, hentry, hreach⟩ node hnode
        have hself : g.Schedulable entry := .entered (h.entry entry hentry) ⟨rfl, rfl, .inl rfl⟩
        exact hself.of_follows (hreach node hnode)
      · intro hall
        refine ⟨entry, hentry, fun node hnode => ?_⟩
        obtain ⟨start, hstart, hreach⟩ := (hall node hnode).exists_starts
        exact hsuffices start hstart node hnode hreach

end StateGraph

/-- Two nodes, `a` the entry point and `b` with a `START` edge. -/
def twoEntries : StateGraph Transcript :=
  ({ nodes := Dict.ofList [("b", appending 2), ("a", appending 1)] : StateGraph Transcript
    }.setEntryPoint "a").addEdge START "b"

theorem twoEntries_built : twoEntries.Built := .addEdge (.setEntryPoint (.register .new))

/-- A node `a` with a fallback. -/
def backedUp : StateGraph Transcript :=
  { nodes := Dict.ofList [("b", appending 2), ("a", appending 1)]
    builderMetadata := Dict.ofList [("a", { fallbackNode := some "b" })] : StateGraph Transcript
    }.setEntryPoint "a"

/-- `a` leads to its fallback. -/
theorem backedUp_reachabilityLaw : backedUp.ReachabilityLaw := by
  have hbuilt : backedUp.Built := .setEntryPoint (.register .new)
  refine (StateGraph.reachabilityLaw_iff hbuilt).2 (.inr ⟨"a", rfl, fun _ _ node hnode _ => ?_⟩)
  have hkeys : backedUp.nodes.keys = ["a", "b"] := by decide
  rw [hkeys] at hnode
  obtain rfl | hnode := List.mem_cons.1 hnode
  · exact .refl
  · obtain rfl := List.mem_singleton.1 hnode
    exact .single (.inr ⟨_, rfl, rfl⟩)

/-- Validation does not find `b`, with which every run starts. -/
theorem twoEntries_not_reachabilityLaw :
    twoEntries.Built ∧
      checkReachability twoEntries.nodes twoEntries.edges twoEntries.entryPoint
        twoEntries.builderMetadata = .error (.unreachableNode "b") ∧ ¬ twoEntries.ReachabilityLaw := by
  have hedges : twoEntries.edges = [.fixed START "a", .fixed START "b"] := rfl
  have hrejected : checkReachability twoEntries.nodes twoEntries.edges twoEntries.entryPoint
      twoEntries.builderMetadata = .error (.unreachableNode "b") := rfl
  refine ⟨twoEntries_built, hrejected, fun h => ?_⟩
  have hall : ∀ node ∈ twoEntries.nodes.keys, twoEntries.Schedulable node := by
    have hkeys : twoEntries.nodes.keys = ["a", "b"] := by decide
    intro node hnode
    have hedge : .fixed START node ∈ twoEntries.edges := by
      rw [hkeys] at hnode
      rw [hedges]
      obtain rfl | hnode := List.mem_cons.1 hnode
      · exact List.mem_cons_self
      · obtain rfl := List.mem_singleton.1 hnode
        exact List.mem_cons_of_mem _ List.mem_cons_self
    exact .entered hedge ⟨rfl, rfl, .inl rfl⟩
  have hok := h.2 hall
  rw [hrejected] at hok
  cases hok

end Juncture
