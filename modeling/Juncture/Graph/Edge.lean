import Juncture.Core.Node
import Juncture.Lib.ExceptFold

/-!
# Edges, the trigger table and its validation

A graph under construction has a list of `Edge`s.  Compilation checks that they name registered
nodes (`checkEdgeTargets`) and turns them into a `TriggerTable` (`buildTriggerTable`), which the
scheduler reads in both directions: the outgoing edges of a node, and the reverse map
`TriggerToNodes` from a node to the nodes it triggers.

Main results:

* `fixed_of_buildTriggerTable`, `conditional_of_buildTriggerTable` : every compiled edge of a table
  comes from an edge of the builder.
* `fixed_target_registered`, `pathMap_target_registered` : the edges of an accepted graph lead to
  registered nodes, or, through a path map, to `END`.
-/

namespace Juncture

/-- The virtual entry node. -/
def START : String := "__start__"

/-- The virtual exit node: routing to `END` ends the graph. -/
def END : String := "__end__"

/-- `RouteResult`. -/
inductive RouteResult where
  | one (target : String)
  | multiple (targets : List String)
deriving DecidableEq

/-- `RouteResult::targets`. -/
def RouteResult.targets : RouteResult → List String
  | one t => [t]
  | multiple ts => ts

/-- `Router<S>`: chooses branch labels from the state, or fails. -/
abbrev Router (S : Type) := S → Except JunctureError RouteResult

/-- `PathMap`: branch label to node name. -/
abbrev PathMap := Dict String

/-- `Edge<S>`, as the builder records it. -/
inductive Edge (S : Type) where
  | fixed (source target : String)
  | conditional (source : String) (router : Router S) (pathMap : PathMap)

/-- `CompiledEdge<S>`. -/
inductive CompiledEdge (S : Type) where
  | fixed (target : String)
  | conditional (router : Router S) (pathMap : PathMap)

/-- `TriggerSource`. -/
inductive TriggerSource where
  | edge (source : String)
  | send (source : String)
deriving DecidableEq

/-- The node a trigger comes from. -/
def TriggerSource.source : TriggerSource → String
  | edge s => s
  | send s => s

/-- `TriggerTable<S>`. -/
structure TriggerTable (S : Type) where
  /-- Outgoing edges of each node. -/
  outgoing : Dict (List (CompiledEdge S)) := ∅
  /-- What each node is triggered by. -/
  incoming : Dict (List TriggerSource) := ∅

namespace TriggerTable

variable {S : Type}

/-- `add_outgoing`. -/
def addOutgoing (t : TriggerTable S) (source : String) (e : CompiledEdge S) : TriggerTable S :=
  { t with outgoing := t.outgoing.insert source ((t.outgoing.lookup source).getD [] ++ [e]) }

/-- `add_incoming`. -/
def addIncoming (t : TriggerTable S) (target : String) (src : TriggerSource) : TriggerTable S :=
  { t with incoming := t.incoming.insert target ((t.incoming.lookup target).getD [] ++ [src]) }

/-- The outgoing edges of a node. -/
def edgesOf (t : TriggerTable S) (node : String) : List (CompiledEdge S) :=
  (t.outgoing.lookup node).getD []

/-- What a node is triggered by. -/
def sourcesOf (t : TriggerTable S) (node : String) : List TriggerSource :=
  (t.incoming.lookup node).getD []

@[simp] theorem addIncoming_outgoing (t : TriggerTable S) (n : String) (src : TriggerSource) :
    (t.addIncoming n src).outgoing = t.outgoing := rfl

@[simp] theorem addIncoming_edgesOf (t : TriggerTable S) (n : String) (src : TriggerSource)
    (m : String) : (t.addIncoming n src).edgesOf m = t.edgesOf m := rfl

theorem mem_edgesOf_addOutgoing {t : TriggerTable S} {source node : String}
    {e c : CompiledEdge S} :
    c ∈ (t.addOutgoing source e).edgesOf node ↔ c ∈ t.edgesOf node ∨ node = source ∧ c = e := by
  unfold edgesOf addOutgoing
  by_cases hn : node = source
  · subst hn
    simp only [AList.lookup_insert, Option.getD_some, List.mem_append, List.mem_singleton,
      true_and]
  · rw [AList.lookup_insert_ne hn]
    simp [hn]

@[simp] theorem addOutgoing_sourcesOf (t : TriggerTable S) (source : String) (e : CompiledEdge S)
    (node : String) : (t.addOutgoing source e).sourcesOf node = t.sourcesOf node := rfl

theorem mem_sourcesOf_addIncoming {t : TriggerTable S} {target node : String}
    {src src' : TriggerSource} :
    src' ∈ (t.addIncoming target src).sourcesOf node ↔
      src' ∈ t.sourcesOf node ∨ node = target ∧ src' = src := by
  unfold sourcesOf addIncoming
  by_cases hn : node = target
  · subst hn
    simp only [AList.lookup_insert, Option.getD_some, List.mem_append, List.mem_singleton,
      true_and]
  · rw [AList.lookup_insert_ne hn]
    simp [hn]

end TriggerTable

section Build

variable {S : Type}

/-- One edge of `build_trigger_table`.  An edge to `END` leaves no trace, and a conditional entry
keeps only the targets of its path map. -/
def addEdge (t : TriggerTable S) : Edge S → TriggerTable S
  | .fixed source target =>
    if source = START then t.addIncoming target (.edge source)
    else if target = END then t
    else (t.addOutgoing source (.fixed target)).addIncoming target (.edge source)
  | .conditional source router pathMap =>
    if source = START then
      pathMap.entries.foldl (fun t kv => t.addIncoming kv.2 (.edge source)) t
    else
      pathMap.entries.foldl (fun t kv => t.addIncoming kv.2 (.edge source))
        (t.addOutgoing source (.conditional router pathMap))

/-- `build_trigger_table`. -/
def buildTriggerTable (edges : List (Edge S)) : TriggerTable S :=
  edges.foldl addEdge {}

/-- `check_edge_targets` on one edge: every end that is not virtual is a registered node. -/
def checkEdgeTarget (isNode : String → Bool) : Edge S → Bool
  | .fixed source target =>
    (source == START || isNode source) && (target == END || isNode target)
  | .conditional source _ pathMap =>
    (source == START || isNode source) &&
      pathMap.entries.all fun kv => kv.2 == END || isNode kv.2

/-- `check_edge_targets`: does validation accept the edges?  (`TopologyError` only says which edge
was refused.) -/
def checkEdgeTargets (isNode : String → Bool) (edges : List (Edge S)) : Bool :=
  edges.all (checkEdgeTarget isNode)

theorem foldl_addIncoming_edgesOf (source : String) (node : String) :
    ∀ (kvs : List (Σ _ : String, String)) (t : TriggerTable S),
      (kvs.foldl (fun t kv => t.addIncoming kv.2 (.edge source)) t).edgesOf node =
        t.edgesOf node := by
  intro kvs
  induction kvs with
  | nil => intro t; rfl
  | cons kv kvs ih => intro t; rw [List.foldl_cons, ih]; rfl

/-- The edge is kept as `c` among the outgoing edges of `node`. -/
def Edge.CompilesTo (node : String) (c : CompiledEdge S) : Edge S → Prop
  | .fixed source target => source = node ∧ node ≠ START ∧ target ≠ END ∧ c = .fixed target
  | .conditional source router pathMap =>
    source = node ∧ node ≠ START ∧ c = .conditional router pathMap

/-- What one builder edge adds to the outgoing edges. -/
theorem mem_edgesOf_addEdge {t : TriggerTable S} {e : Edge S} {node : String}
    {c : CompiledEdge S} :
    c ∈ (addEdge t e).edgesOf node ↔ c ∈ t.edgesOf node ∨ e.CompilesTo node c := by
  cases e with
  | fixed source target =>
    simp only [addEdge, Edge.CompilesTo]
    split_ifs with hs ht
    · refine (or_iff_left ?_).symm
      rintro ⟨rfl, hstart, -⟩
      exact hstart hs
    · exact (or_iff_left fun h => h.2.2.1 ht).symm
    · rw [TriggerTable.addIncoming_edgesOf, TriggerTable.mem_edgesOf_addOutgoing]
      refine or_congr_right ⟨?_, fun h => ⟨h.1.symm, h.2.2.2⟩⟩
      rintro ⟨rfl, rfl⟩
      exact ⟨rfl, hs, ht, rfl⟩
  | conditional source router pathMap =>
    simp only [addEdge, Edge.CompilesTo]
    split_ifs with hs
    · rw [foldl_addIncoming_edgesOf]
      refine (or_iff_left ?_).symm
      rintro ⟨rfl, hstart, -⟩
      exact hstart hs
    · rw [foldl_addIncoming_edgesOf, TriggerTable.mem_edgesOf_addOutgoing]
      refine or_congr_right ⟨?_, fun h => ⟨h.1.symm, h.2.2⟩⟩
      rintro ⟨rfl, rfl⟩
      exact ⟨rfl, hs, rfl⟩

/-- **The outgoing edges of a built table.** -/
theorem mem_edgesOf_buildTriggerTable {edges : List (Edge S)} {node : String}
    {c : CompiledEdge S} :
    c ∈ (buildTriggerTable edges).edgesOf node ↔ ∃ e ∈ edges, e.CompilesTo node c := by
  have h := ExceptFold.foldl_collects (f := addEdge)
    (fun t : TriggerTable S => {c | c ∈ t.edgesOf node})
    (R := fun e : Edge S => {c | e.CompilesTo node c})
    (fun _ _ _ => mem_edgesOf_addEdge) edges {} c
  refine Iff.trans (show _ ↔ _ from h) ?_
  simp [TriggerTable.edgesOf]

/-- What an edge is compiled to at a node. -/
def Edge.compiledAt (node : String) : Edge S → Option (CompiledEdge S)
  | .fixed source target =>
    if source = node ∧ node ≠ START ∧ target ≠ END then some (.fixed target) else none
  | .conditional source router pathMap =>
    if source = node ∧ node ≠ START then some (.conditional router pathMap) else none

theorem edgesOf_addOutgoing (t : TriggerTable S) (source node : String) (e : CompiledEdge S) :
    (t.addOutgoing source e).edgesOf node =
      t.edgesOf node ++ if source = node then [e] else [] := by
  unfold TriggerTable.edgesOf TriggerTable.addOutgoing
  split_ifs with hs
  · rw [hs, AList.lookup_insert]
    rfl
  · rw [AList.lookup_insert_ne (Ne.symm hs), List.append_nil]

/-- **The edges of a node**, in the order in which they have been added. -/
theorem edgesOf_buildTriggerTable (edges : List (Edge S)) (node : String) :
    (buildTriggerTable edges).edgesOf node = edges.filterMap (Edge.compiledAt node) := by
  have hadd : ∀ (t : TriggerTable S) (e : Edge S),
      (addEdge t e).edgesOf node = t.edgesOf node ++ (e.compiledAt node).toList := by
    intro t e
    cases e with
    | fixed source target =>
      unfold addEdge Edge.compiledAt
      dsimp only
      by_cases hs : source = START
      · rw [if_pos hs, if_neg (by rintro ⟨rfl, hn, -⟩; exact hn hs), TriggerTable.addIncoming_edgesOf,
          Option.toList_none, List.append_nil]
      by_cases ht : target = END
      · rw [if_neg hs, if_pos ht, if_neg fun h => h.2.2 ht, Option.toList_none, List.append_nil]
      rw [if_neg hs, if_neg ht, TriggerTable.addIncoming_edgesOf, edgesOf_addOutgoing]
      by_cases hn : source = node
      · rw [if_pos hn, if_pos ⟨hn, hn ▸ hs, ht⟩]
        rfl
      · rw [if_neg hn, if_neg fun h => hn h.1]
        rfl
    | conditional source router pathMap =>
      unfold addEdge Edge.compiledAt
      dsimp only
      by_cases hs : source = START
      · rw [if_pos hs, if_neg (by rintro ⟨rfl, hn⟩; exact hn hs), foldl_addIncoming_edgesOf,
          Option.toList_none, List.append_nil]
      rw [if_neg hs, foldl_addIncoming_edgesOf, edgesOf_addOutgoing]
      by_cases hn : source = node
      · rw [if_pos hn, if_pos ⟨hn, hn ▸ hs⟩]
        rfl
      · rw [if_neg hn, if_neg fun h => hn h.1]
        rfl
  have hfold : ∀ t : TriggerTable S, (edges.foldl addEdge t).edgesOf node =
      t.edgesOf node ++ edges.filterMap (Edge.compiledAt node) := by
    induction edges with
    | nil => exact fun t => (List.append_nil _).symm
    | cons e edges ih =>
      intro t
      rw [List.foldl_cons, ih, hadd, List.append_assoc]
      cases he : e.compiledAt node with
      | none => rw [List.filterMap_cons_none he]; rfl
      | some c => rw [List.filterMap_cons_some he]; rfl
  exact hfold {}

/-- The edge makes `source` a trigger of `node`.  A fixed edge to `END` does so only from `START`. -/
def Edge.Triggers (source node : String) : Edge S → Prop
  | .fixed source' target => source' = source ∧ target = node ∧ (source = START ∨ node ≠ END)
  | .conditional source' _ pathMap => source' = source ∧ ∃ kv ∈ pathMap.entries, kv.2 = node

theorem mem_sourcesOf_foldl_addIncoming (source : String) (node : String) (src : TriggerSource)
    (kvs : List (Σ _ : String, String)) (t : TriggerTable S) :
    src ∈ (kvs.foldl (fun t kv => t.addIncoming kv.2 (.edge source)) t).sourcesOf node ↔
      src ∈ t.sourcesOf node ∨ ∃ kv ∈ kvs, kv.2 = node ∧ src = .edge source := by
  have h := ExceptFold.foldl_collects (f := fun t kv => t.addIncoming kv.2 (.edge source))
    (fun t : TriggerTable S => {src | src ∈ t.sourcesOf node})
    (R := fun kv : Σ _ : String, String => {src | node = kv.2 ∧ src = .edge source})
    (fun _ _ _ => TriggerTable.mem_sourcesOf_addIncoming) kvs t src
  simpa only [Set.mem_ofPred_eq, @eq_comm _ node] using h

/-- What one builder edge adds to the triggers of a node. -/
theorem mem_sourcesOf_addEdge {t : TriggerTable S} {e : Edge S} {node : String}
    {src : TriggerSource} :
    src ∈ (addEdge t e).sourcesOf node ↔
      src ∈ t.sourcesOf node ∨ ∃ source, e.Triggers source node ∧ src = .edge source := by
  cases e with
  | fixed source target =>
    simp only [addEdge, Edge.Triggers]
    split_ifs with hs ht
    · rw [TriggerTable.mem_sourcesOf_addIncoming]
      refine or_congr Iff.rfl ⟨?_, ?_⟩
      · rintro ⟨rfl, rfl⟩
        exact ⟨source, ⟨rfl, rfl, .inl hs⟩, rfl⟩
      · rintro ⟨_, ⟨rfl, rfl, -⟩, rfl⟩
        exact ⟨rfl, rfl⟩
    · refine ⟨.inl, ?_⟩
      rintro (h | ⟨_, ⟨rfl, rfl, h⟩, -⟩)
      · exact h
      · exact absurd ht (h.resolve_left hs)
    · rw [TriggerTable.mem_sourcesOf_addIncoming, TriggerTable.addOutgoing_sourcesOf]
      refine or_congr Iff.rfl ⟨?_, ?_⟩
      · rintro ⟨rfl, rfl⟩
        exact ⟨source, ⟨rfl, rfl, .inr ht⟩, rfl⟩
      · rintro ⟨_, ⟨rfl, rfl, -⟩, rfl⟩
        exact ⟨rfl, rfl⟩
  | conditional source router pathMap =>
    have hmap : (∃ kv ∈ pathMap.entries, kv.2 = node ∧ src = .edge source) ↔
        ∃ source', (source = source' ∧ ∃ kv ∈ pathMap.entries, kv.2 = node) ∧
          src = .edge source' := by
      constructor
      · rintro ⟨kv, hkv, hn, rfl⟩
        exact ⟨source, ⟨rfl, kv, hkv, hn⟩, rfl⟩
      · rintro ⟨_, ⟨rfl, kv, hkv, hn⟩, rfl⟩
        exact ⟨kv, hkv, hn, rfl⟩
    simp only [addEdge, Edge.Triggers]
    split_ifs with hs
    · rw [mem_sourcesOf_foldl_addIncoming, hmap]
    · rw [mem_sourcesOf_foldl_addIncoming, hmap, TriggerTable.addOutgoing_sourcesOf]

/-- **What triggers a node of a built table.** -/
theorem mem_sourcesOf_buildTriggerTable {edges : List (Edge S)} {source node : String} :
    .edge source ∈ (buildTriggerTable edges).sourcesOf node ↔
      ∃ e ∈ edges, e.Triggers source node := by
  have h := ExceptFold.foldl_collects (f := addEdge)
    (fun t : TriggerTable S => {src | src ∈ t.sourcesOf node})
    (R := fun e : Edge S => {src | ∃ source, e.Triggers source node ∧ src = .edge source})
    (fun _ _ _ => mem_sourcesOf_addEdge) edges {} (.edge source)
  refine Iff.trans (show _ ↔ _ from h) ?_
  simp [TriggerTable.sourcesOf]

/-- The fixed edges of a built table. -/
theorem fixed_mem_edgesOf_iff {edges : List (Edge S)} {node target : String} :
    .fixed target ∈ (buildTriggerTable edges).edgesOf node ↔
      .fixed node target ∈ edges ∧ node ≠ START ∧ target ≠ END := by
  rw [mem_edgesOf_buildTriggerTable]
  constructor
  · rintro ⟨e, he, hc⟩
    cases e with
    | fixed source target' =>
      obtain ⟨rfl, hstart, hend, heq⟩ := hc
      cases heq
      exact ⟨he, hstart, hend⟩
    | conditional source router pathMap => cases hc.2.2
  · rintro ⟨he, hstart, hend⟩
    exact ⟨_, he, rfl, hstart, hend, rfl⟩

theorem fixed_of_buildTriggerTable {edges : List (Edge S)} {node target : String}
    (h : .fixed target ∈ (buildTriggerTable edges).edgesOf node) :
    .fixed node target ∈ edges ∧ target ≠ END :=
  ⟨(fixed_mem_edgesOf_iff.1 h).1, (fixed_mem_edgesOf_iff.1 h).2.2⟩

theorem conditional_of_buildTriggerTable {edges : List (Edge S)} {node : String}
    {router : Router S} {pathMap : PathMap}
    (h : .conditional router pathMap ∈ (buildTriggerTable edges).edgesOf node) :
    .conditional node router pathMap ∈ edges := by
  obtain ⟨e, he, hc⟩ := mem_edgesOf_buildTriggerTable.1 h
  cases e with
  | fixed source target => cases hc.2.2.2
  | conditional source router' pathMap' =>
    obtain ⟨rfl, -, heq⟩ := hc
    cases heq
    exact he

/-- **Fixed edges of an accepted graph lead to registered nodes.** -/
theorem fixed_target_registered {isNode : String → Bool} {edges : List (Edge S)}
    (hc : checkEdgeTargets isNode edges = true) {node target : String}
    (h : .fixed target ∈ (buildTriggerTable edges).edgesOf node) :
    isNode target = true ∧ target ≠ END := by
  obtain ⟨hm, ht⟩ := fixed_of_buildTriggerTable h
  have he := List.all_eq_true.1 hc _ hm
  simp only [checkEdgeTarget, Bool.and_eq_true, Bool.or_eq_true, beq_iff_eq] at he
  exact ⟨he.2.resolve_left ht, ht⟩

/-- **Path maps of an accepted graph lead to registered nodes or to `END`.** -/
theorem pathMap_target_registered {isNode : String → Bool} {edges : List (Edge S)}
    (hc : checkEdgeTargets isNode edges = true) {node : String} {router : Router S}
    {pathMap : PathMap}
    (h : .conditional router pathMap ∈ (buildTriggerTable edges).edgesOf node)
    {label target : String} (ht : pathMap.lookup label = some target) (hne : target ≠ END) :
    isNode target = true := by
  have he := List.all_eq_true.1 hc _ (conditional_of_buildTriggerTable h)
  simp only [checkEdgeTarget, Bool.and_eq_true, List.all_eq_true] at he
  have hkv := he.2 ⟨label, target⟩ (AList.mem_lookup_iff.1 ht)
  simp only [Bool.or_eq_true, beq_iff_eq] at hkv
  exact hkv.resolve_left hne

end Build

/-! ### The reverse map -/

/-- `TriggerToNodes`: the nodes each source triggers. -/
structure TriggerToNodes where
  /-- The map; the sets are kept as duplicate-free lists. -/
  mapping : Dict (List String) := ∅

namespace TriggerToNodes

/-- One source of one node. -/
def insertSource (node : String) (m : Dict (List String)) (src : TriggerSource) :
    Dict (List String) :=
  m.insert src.source (((m.lookup src.source).getD []).insert node)

/-- `from_trigger_table`. -/
def fromTriggerTable {S : Type} (table : TriggerTable S) : TriggerToNodes :=
  ⟨table.incoming.entries.foldl (fun m kv => kv.2.foldl (insertSource kv.1) m) ∅⟩

/-- `triggered_nodes`: the union of the sets of the given sources. -/
def triggeredNodes (t : TriggerToNodes) (updated : List String) : List String :=
  updated.flatMap fun ch => (t.mapping.lookup ch).getD []

theorem mem_insertSource {node : String} {m : Dict (List String)} {src : TriggerSource}
    {source n : String} :
    n ∈ ((insertSource node m src).lookup source).getD [] ↔
      n ∈ (m.lookup source).getD [] ∨ n = node ∧ src.source = source := by
  unfold insertSource
  by_cases hs : source = src.source
  · subst hs
    simp [AList.lookup_insert, or_comm]
  · rw [AList.lookup_insert_ne hs]
    simp [Ne.symm hs]

/-- **The reverse map is the trigger table read backwards.** -/
theorem mem_triggeredNodes_iff {S : Type} {table : TriggerTable S} {source n : String} :
    n ∈ (fromTriggerTable table).triggeredNodes [source] ↔
      ∃ src ∈ table.sourcesOf n, src.source = source := by
  -- The table is turned around one node at a time, and one source after the other.
  have hnode : ∀ (m : Dict (List String)) (kv : Σ _ : String, List TriggerSource) (n : String),
      n ∈ {n | n ∈ ((kv.2.foldl (insertSource kv.1) m).lookup source).getD []} ↔
        n ∈ {n | n ∈ (m.lookup source).getD []} ∨
          n ∈ {n | n = kv.1 ∧ ∃ src ∈ kv.2, src.source = source} := by
    intro m kv n
    have h := ExceptFold.foldl_collects (f := insertSource kv.1)
      (fun m : Dict (List String) => {n | n ∈ (m.lookup source).getD []})
      (R := fun src => {n | n = kv.1 ∧ src.source = source}) (fun _ _ _ => mem_insertSource) kv.2 m n
    rw [h]
    refine or_congr Iff.rfl ⟨?_, ?_⟩
    · rintro ⟨src, hsrc, hn, hs⟩
      exact ⟨hn, src, hsrc, hs⟩
    · rintro ⟨hn, src, hsrc, hs⟩
      exact ⟨src, hsrc, hn, hs⟩
  have h := ExceptFold.foldl_collects
    (fun m : Dict (List String) => {n | n ∈ (m.lookup source).getD []})
    hnode table.incoming.entries ∅ n
  have htrig : n ∈ (fromTriggerTable table).triggeredNodes [source] ↔
      ∃ kv ∈ table.incoming.entries, n = kv.1 ∧ ∃ src ∈ kv.2, src.source = source := by
    simpa [triggeredNodes, fromTriggerTable] using h
  rw [htrig]
  unfold TriggerTable.sourcesOf
  constructor
  · rintro ⟨⟨_, srcs⟩, hkv, rfl, src, hsrc, hs⟩
    refine ⟨src, ?_, hs⟩
    rw [AList.mem_lookup_iff.2 hkv]
    exact hsrc
  · rintro ⟨src, hsrc, hs⟩
    cases hl : table.incoming.lookup n with
    | none => simp [hl] at hsrc
    | some srcs =>
      rw [hl] at hsrc
      exact ⟨⟨n, srcs⟩, AList.mem_lookup_iff.1 hl, rfl, src, hsrc, hs⟩

end TriggerToNodes

end Juncture
