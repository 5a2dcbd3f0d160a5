import Juncture.Graph.Topology
import Juncture.Lib.Tarjan
import Juncture.Pregel.Halting
import Mathlib.Data.Finset.Card

/-!
# The components that validation looks at

`find_sccs` runs Tarjan's algorithm on the fixed edges and the targets of the path maps, without
those from `START` and to `END`, from every node in turn.

* `sweeps_findSccs` : its run is a search of the library, so the recursion of `visit` ends; the
  fuel of the model is never used up.
* `findSccs_partition` : what it returns are the classes of mutual reachability.

The adjacency has entries for names that are not nodes, if edges have them, and so have the
components.  `check_edge_targets` has rejected such edges before.
-/

namespace Juncture

variable {S : Type} [State S]

/-! ### Adjacency -/

namespace Adjacency

variable {a : Adjacency} {source target x y : String}

@[simp] theorem neighbors_empty (x : String) : neighbors ∅ x = [] := rfl

@[simp] theorem neighbors_touch (a : Adjacency) (node x : String) :
    (a.touch node).neighbors x = a.neighbors x := by
  rw [touch]
  split_ifs with hnode
  · rfl
  · by_cases hx : x = node
    · subst hx
      have hnone : a.lookup x = none := by simpa [Dict.containsKey] using hnode
      simp [neighbors, hnone]
    · simp [neighbors, AList.lookup_insert_ne hx]

theorem mem_neighbors_link :
    y ∈ (link source a target).neighbors x ↔ y ∈ a.neighbors x ∨ x = source ∧ y = target := by
  rw [link]
  by_cases hx : x = source
  · subst hx
    simp [neighbors]
  · simp [neighbors, AList.lookup_insert_ne hx, hx]

theorem neighbors_foldl_touch (nodes : List String) (a : Adjacency) (x : String) :
    (nodes.foldl touch a).neighbors x = a.neighbors x := by
  induction nodes generalizing a with
  | nil => rfl
  | cons node nodes ih => rw [List.foldl_cons, ih, neighbors_touch]

theorem mem_neighbors_foldl_link (targets : List String) (a : Adjacency) :
    y ∈ (targets.foldl (link source) a).neighbors x ↔
      y ∈ a.neighbors x ∨ x = source ∧ y ∈ targets := by
  induction targets generalizing a with
  | nil => simp
  | cons target targets ih =>
    rw [List.foldl_cons, ih, mem_neighbors_link, List.mem_cons, and_or_left, or_assoc]

theorem mem_touch : x ∈ a.touch source ↔ x ∈ a ∨ x = source := by
  rw [touch]
  split_ifs with hsource
  · refine (or_iff_left_of_imp fun hx => ?_).symm
    exact hx ▸ Dict.containsKey_iff.1 hsource
  · rw [AList.mem_insert, or_comm]

theorem mem_link : x ∈ link source a target ↔ x ∈ a ∨ x = source := by
  rw [link, AList.mem_insert, or_comm]

theorem mem_foldl_touch (nodes : List String) (a : Adjacency) :
    x ∈ nodes.foldl touch a ↔ x ∈ a ∨ x ∈ nodes := by
  induction nodes generalizing a with
  | nil => simp
  | cons node nodes ih => rw [List.foldl_cons, ih, mem_touch, List.mem_cons, or_assoc]

theorem mem_foldl_link (targets : List String) (hx : x ∈ a) : x ∈ targets.foldl (link source) a := by
  induction targets generalizing a with
  | nil => exact hx
  | cons target targets ih => exact ih (mem_link.2 (.inl hx))

/-- The names that occur. -/
def names (a : Adjacency) : Finset String :=
  (a.entries.flatMap fun kv => kv.1 :: kv.2).toFinset

theorem card_names_le (a : Adjacency) : a.names.card ≤ a.size := by
  refine (List.toFinset_card_le _).trans_eq ?_
  rw [List.length_flatMap, size]
  rfl

theorem mem_names_of_mem (hx : x ∈ a) : x ∈ a.names := by
  obtain ⟨l, hl⟩ := Option.isSome_iff_exists.1 (AList.lookup_isSome.2 hx)
  refine List.mem_toFinset.2 (List.mem_flatMap.2 ⟨⟨x, l⟩, AList.mem_lookup_iff.1 hl, ?_⟩)
  exact List.mem_cons_self

theorem mem_names_of_neighbor (hy : y ∈ a.neighbors x) : y ∈ a.names := by
  rw [neighbors] at hy
  cases hl : a.lookup x with
  | none =>
    rw [hl] at hy
    cases hy
  | some l =>
    rw [hl] at hy
    refine List.mem_toFinset.2 (List.mem_flatMap.2 ⟨⟨x, l⟩, AList.mem_lookup_iff.1 hl, ?_⟩)
    exact List.mem_cons_of_mem _ hy

end Adjacency

/-- The edge leads from one name to another one, neither from `START` nor to `END`. -/
def Edge.Leads (x y : String) : Edge S → Prop
  | .fixed source target => source = x ∧ target = y ∧ source ≠ START ∧ target ≠ END
  | .conditional source _ pathMap =>
    source = x ∧ source ≠ START ∧ y ∈ Adjacency.pathTargets pathMap

omit [State S] in
theorem mem_neighbors_addCyclic (a : Adjacency) (edge : Edge S) (x y : String) :
    y ∈ (addCyclic a edge).neighbors x ↔ y ∈ a.neighbors x ∨ edge.Leads x y := by
  cases edge with
  | fixed source target =>
    rw [addCyclic, Edge.Leads]
    split_ifs with h
    · rw [Adjacency.mem_neighbors_link]
      simp only [Bool.and_eq_true, bne_iff_ne] at h
      simp only [h.1, h.2, ne_eq, not_false_eq_true, and_true, eq_comm]
    · simp only [Bool.and_eq_true, bne_iff_ne] at h
      refine (or_iff_left fun hlead => h hlead.2.2).symm
  | conditional source router pathMap =>
    rw [addCyclic, Edge.Leads]
    split_ifs with h
    · rw [Adjacency.mem_neighbors_foldl_link, Adjacency.neighbors_touch]
      simp only [bne_iff_ne] at h
      simp only [ne_eq, h, not_false_eq_true, true_and, eq_comm]
    · refine (or_iff_left fun hlead => h ?_).symm
      simpa using hlead.2.1

/-- The adjacency of `find_sccs`. -/
def cyclicAdjacency (nodes : Dict (Node S)) (edges : List (Edge S)) : Adjacency :=
  edges.foldl addCyclic (nodes.keys.foldl Adjacency.touch ∅)

theorem mem_neighbors_cyclicAdjacency (nodes : Dict (Node S)) (edges : List (Edge S))
    (x y : String) :
    y ∈ (cyclicAdjacency nodes edges).neighbors x ↔ ∃ edge ∈ edges, edge.Leads x y := by
  have hfold := ExceptFold.foldl_collects (f := addCyclic)
    (fun a : Adjacency => {y | y ∈ a.neighbors x}) (R := fun edge : Edge S => {y | edge.Leads x y})
    (fun a edge y => mem_neighbors_addCyclic a edge x y) edges
    (nodes.keys.foldl Adjacency.touch ∅) y
  have hempty : (nodes.keys.foldl Adjacency.touch ∅).neighbors x = [] :=
    Adjacency.neighbors_foldl_touch ..
  refine (show _ ↔ _ from hfold).trans (or_iff_right fun h => ?_)
  rw [Set.mem_ofPred_eq, hempty] at h
  cases h

theorem mem_cyclicAdjacency {nodes : Dict (Node S)} {name : String} (h : name ∈ nodes.keys)
    (edges : List (Edge S)) : name ∈ cyclicAdjacency nodes edges := by
  refine ExceptFold.foldl_invariant (I := fun a : Adjacency => name ∈ a) (fun a edge _ ha => ?_)
    ((Adjacency.mem_foldl_touch _ _).2 (.inr h))
  cases edge with
  | fixed source target =>
    rw [addCyclic]
    split_ifs
    · exact Adjacency.mem_link.2 (.inl ha)
    · exact ha
  | conditional source router pathMap =>
    rw [addCyclic]
    split_ifs
    · exact Adjacency.mem_foldl_link _ (Adjacency.mem_touch.2 (.inl ha))
    · exact ha

/-! ### The search -/

namespace TarjanSCC

/-- The search of the library that the tables of `TarjanSCC` stand for. -/
def search (t : TarjanSCC) : Tarjan.State String where
  index := t.index
  stack := t.stack
  num := t.indices.lookup
  low x := (t.lowlink.lookup x).getD 0
  components := t.sccs

/-- The tables fit together. -/
structure Tidy (t : TarjanSCC) : Prop where
  /-- `onstack` has what is on the stack. -/
  onstack : ∀ x, x ∈ t.onstack ↔ x ∈ t.stack
  /-- A node is on the stack once. -/
  nodup : t.stack.Nodup
  /-- It has been visited. -/
  visited : ∀ x ∈ t.stack, t.indices.containsKey x = true
  /-- Visited nodes have a low link. -/
  lowlink : ∀ x, t.lowlink.containsKey x = t.indices.containsKey x

variable {t : TarjanSCC} {node : String}

theorem popTo_eq (node : String) (stack : List String) :
    popTo node stack = Tarjan.splitStack node stack := by
  induction stack with
  | nil => rfl
  | cons w stack ih =>
    rw [popTo, Tarjan.splitStack, ih]

/-- The stack is split in two. -/
theorem popTo_append (node : String) (stack : List String) :
    (popTo node stack).1 ++ (popTo node stack).2 = stack := by
  induction stack with
  | nil => rfl
  | cons w stack ih =>
    rw [popTo]
    split_ifs
    · rfl
    · rw [List.cons_append, ih]

theorem containsKey_insert (d : Dict ℕ) (k x : String) (v : ℕ) :
    Dict.containsKey (d.insert k v) x = (d.containsKey x || decide (x = k)) := by
  rw [Dict.containsKey, Dict.containsKey]
  by_cases hx : x = k
  · subst hx
    simp
  · simp [AList.lookup_insert_ne hx, hx]

theorem lookup_insert (d : Dict ℕ) (k : String) (v : ℕ) :
    (d.insert k v).lookup = Function.update d.lookup k (some v) := by
  funext x
  by_cases hx : x = k
  · subst hx
    simp
  · simp [AList.lookup_insert_ne hx, Function.update_of_ne hx]

theorem getD_lookup_insert (d : Dict ℕ) (k : String) (v : ℕ) :
    (fun x => ((d.insert k v).lookup x).getD 0) =
      Function.update (fun x => (d.lookup x).getD 0) k v := by
  have hcomp := Function.comp_update (fun o : Option ℕ => o.getD 0) d.lookup k (some v)
  rw [← lookup_insert] at hcomp
  exact hcomp

theorem search_enter (t : TarjanSCC) (node : String) :
    (t.enter node).search = t.search.enter node := by
  rw [search, enter, Tarjan.State.enter]
  simp only [lookup_insert t.indices, getD_lookup_insert, search]

theorem search_lower (t : TarjanSCC) (node : String) (value : ℕ) :
    (t.lower node value).search = t.search.lower node value := by
  rw [search, lower, Tarjan.State.lower]
  simp only [getD_lookup_insert, search]

theorem search_close (h : t.Tidy) (hnode : t.indices.containsKey node = true) :
    (t.close node).search = t.search.close node := by
  obtain ⟨k, hk⟩ := Option.isSome_iff_exists.1 hnode
  obtain ⟨l, hl⟩ := Option.isSome_iff_exists.1 ((h.lowlink node).trans hnode)
  have hroot : t.lowlink.lookup node = t.indices.lookup node ↔
      t.search.num node = some (t.search.low node) := by
    show _ ↔ t.indices.lookup node = some ((t.lowlink.lookup node).getD 0)
    rw [hk, hl, Option.some.injEq, Option.some.injEq, Option.getD_some, eq_comm]
  rw [close, Tarjan.State.close]
  by_cases hlow : t.lowlink.lookup node = t.indices.lookup node
  · rw [if_pos hlow, if_pos (hroot.1 hlow), popTo_eq]
    rfl
  · rw [if_neg hlow, if_neg fun h => hlow (hroot.2 h)]

theorem Tidy.enter (h : t.Tidy) (hnode : t.indices.containsKey node = false) :
    (t.enter node).Tidy where
  onstack x := by
    show x ∈ t.onstack.insert node ↔ x ∈ node :: t.stack
    rw [List.mem_insert_iff, List.mem_cons, h.onstack]
  nodup := by
    refine List.nodup_cons.2 ⟨fun hmem => ?_, h.nodup⟩
    rw [h.visited node hmem] at hnode
    cases hnode
  visited x hx := by
    show Dict.containsKey (t.indices.insert node t.index) x = true
    rw [containsKey_insert]
    obtain rfl | hx := List.mem_cons.1 hx
    · simp
    · rw [h.visited x hx]
      rfl
  lowlink x := by
    show Dict.containsKey (t.lowlink.insert node t.index) x =
      Dict.containsKey (t.indices.insert node t.index) x
    rw [containsKey_insert, containsKey_insert, h.lowlink]

theorem Tidy.lower (h : t.Tidy) (hnode : t.indices.containsKey node = true) (value : ℕ) :
    (t.lower node value).Tidy where
  onstack := h.onstack
  nodup := h.nodup
  visited := h.visited
  lowlink x := by
    show Dict.containsKey (t.lowlink.insert node _) x = t.indices.containsKey x
    rw [containsKey_insert, h.lowlink]
    by_cases hx : x = node
    · subst hx
      rw [hnode]
      rfl
    · simp [hx]

theorem Tidy.close (h : t.Tidy) (node : String) : (t.close node).Tidy := by
  rw [TarjanSCC.close]
  split_ifs
  · have hsplit := popTo_append node t.stack
    have hnodup := h.nodup
    rw [← hsplit] at hnodup
    have hsub : ∀ x ∈ (popTo node t.stack).2, x ∈ t.stack := fun x hx =>
      hsplit ▸ List.mem_append_right _ hx
    refine ⟨fun x => ?_, hnodup.of_append_right, fun x hx => h.visited x (hsub x hx), h.lowlink⟩
    show x ∈ t.onstack.filter _ ↔ x ∈ (popTo node t.stack).2
    rw [List.mem_filter, h.onstack]
    constructor
    · rintro ⟨hx, hscc⟩
      rw [← hsplit, List.mem_append] at hx
      exact hx.resolve_left fun hx => by simp [hx] at hscc
    · intro hx
      have hnot : x ∉ (popTo node t.stack).1 := fun hx' =>
        List.disjoint_of_nodup_append hnodup hx' hx
      exact ⟨hsub x hx, by simpa using hnot⟩
  · exact h

/-! ### Its runs -/

/-- The body of the loop over the neighbours. -/
def scanStep (a : Adjacency) (fuel : ℕ) (node : String) (t : TarjanSCC) (neighbor : String) :
    TarjanSCC :=
  if !t.indices.containsKey neighbor then
    let t := visit a fuel t neighbor
    t.lower node ((t.lowlink.lookup neighbor).getD 0)
  else if t.onstack.contains neighbor then
    t.lower node ((t.indices.lookup neighbor).getD 0)
  else t

variable {a : Adjacency}

theorem visit_succ (fuel : ℕ) (t : TarjanSCC) (node : String) : visit a (fuel + 1) t node =
    ((a.neighbors node).foldl (scanStep a fuel node) (t.enter node)).close node := rfl

/-- The names that have not been visited. -/
def unvisited (a : Adjacency) (t : TarjanSCC) : Finset String :=
  a.names.filter fun x => t.indices.containsKey x = false

/-- A call of the search, with its tables. -/
structure Simulates (a : Adjacency) (call : Tarjan.Call String) (t t' : TarjanSCC) : Prop where
  /-- It is one of the library. -/
  run : Tarjan.Runs a.neighbors call t.search t'.search
  /-- The tables still fit together. -/
  tidy : t'.Tidy
  /-- What has been visited stays so. -/
  keeps : ∀ x, t.indices.containsKey x = true → t'.indices.containsKey x = true

theorem card_unvisited_le {t t' : TarjanSCC}
    (h : ∀ x, t.indices.containsKey x = true → t'.indices.containsKey x = true) :
    (unvisited a t').card ≤ (unvisited a t).card := by
  refine Finset.card_le_card fun x hx => ?_
  obtain ⟨hx, hx'⟩ := Finset.mem_filter.1 hx
  refine Finset.mem_filter.2 ⟨hx, ?_⟩
  cases ht : t.indices.containsKey x with
  | false => rfl
  | true =>
    rw [h x ht] at hx'
    cases hx'

theorem containsKey_enter (t : TarjanSCC) (node x : String) :
    (t.enter node).indices.containsKey x = (t.indices.containsKey x || decide (x = node)) :=
  containsKey_insert ..

theorem card_unvisited_enter_lt (hnode : node ∈ a.names)
    (hfresh : t.indices.containsKey node = false) :
    (unvisited a (t.enter node)).card < (unvisited a t).card := by
  refine Finset.card_lt_card (Finset.ssubset_iff_of_subset ?_ |>.2 ⟨node, ?_, ?_⟩)
  · intro x hx
    obtain ⟨hx, hx'⟩ := Finset.mem_filter.1 hx
    rw [containsKey_enter, Bool.or_eq_false_iff] at hx'
    exact Finset.mem_filter.2 ⟨hx, hx'.1⟩
  · exact Finset.mem_filter.2 ⟨hnode, hfresh⟩
  · intro hmem
    have hfalse := (Finset.mem_filter.1 hmem).2
    rw [containsKey_enter] at hfalse
    simp at hfalse

theorem num_eq_none (h : t.indices.containsKey node = false) : t.search.num node = none :=
  Option.isNone_iff_eq_none.1 (Option.isSome_eq_false_iff.1 h)

theorem scanStep_fresh {fuel : ℕ} {w : String} (hw : t.indices.containsKey w = false) :
    scanStep a fuel node t w =
      (visit a fuel t w).lower node (((visit a fuel t w).lowlink.lookup w).getD 0) := by
  simp [scanStep, hw]

theorem scanStep_back {fuel : ℕ} {w : String} {k : ℕ} (htidy : t.Tidy)
    (hk : t.indices.lookup w = some k) (hon : w ∈ t.stack) :
    scanStep a fuel node t w = t.lower node k := by
  have hw : t.indices.containsKey w = true := Option.isSome_iff_exists.2 ⟨k, hk⟩
  simp [scanStep, hw, hk, (htidy.onstack w).2 hon]

theorem scanStep_cross {fuel : ℕ} {w : String} (htidy : t.Tidy)
    (hw : t.indices.containsKey w = true) (hoff : w ∉ t.stack) : scanStep a fuel node t w = t := by
  have hnot : w ∉ t.onstack := fun h => hoff ((htidy.onstack w).1 h)
  simp [scanStep, hw, hnot]

/-- The loop over the neighbours, if the visits are simulated. -/
theorem scan_simulates {fuel : ℕ} {neighbors : List String}
    (hvisit : ∀ (t : TarjanSCC) w, t.Tidy → w ∈ a.names → t.indices.containsKey w = false →
      (unvisited a t).card ≤ fuel → Simulates a (.visit w) t (visit a fuel t w))
    (hnames : ∀ w ∈ neighbors, w ∈ a.names) (htidy : t.Tidy)
    (hnode : t.indices.containsKey node = true) (hcard : (unvisited a t).card ≤ fuel) :
    Simulates a (.scan node neighbors) t (neighbors.foldl (scanStep a fuel node) t) := by
  induction neighbors generalizing t with
  | nil => exact ⟨.done, htidy, fun x hx => hx⟩
  | cons w neighbors ih =>
    have hnames' : ∀ w' ∈ neighbors, w' ∈ a.names := fun w' hw' =>
      hnames w' (List.mem_cons_of_mem _ hw')
    rw [List.foldl_cons]
    cases hw : t.indices.containsKey w with
    | false =>
      have hfirst := hvisit t w htidy (hnames w List.mem_cons_self) hw hcard
      have hnode' := hfirst.keeps node hnode
      -- A visit only marks names, so that the fuel is enough for the rest.
      have hcard' := (card_unvisited_le hfirst.keeps).trans hcard
      rw [scanStep_fresh hw]
      have hrest := ih hnames' (hfirst.tidy.lower hnode'
        (((visit a fuel t w).lowlink.lookup w).getD 0)) hnode' hcard'
      refine ⟨.tree (num_eq_none hw) hfirst.run ?_, hrest.tidy,
        fun x hx => hrest.keeps x (hfirst.keeps x hx)⟩
      have hrun := hrest.run
      rw [search_lower] at hrun
      exact hrun
    | true =>
      obtain ⟨k, hk⟩ := Option.isSome_iff_exists.1 hw
      by_cases hon : w ∈ t.stack
      · have hrest := ih hnames' (htidy.lower hnode k) hnode hcard
        rw [scanStep_back htidy hk hon]
        refine ⟨.back hk hon ?_, hrest.tidy, hrest.keeps⟩
        have hrun := hrest.run
        rw [search_lower] at hrun
        exact hrun
      · have hrest := ih hnames' htidy hnode hcard
        rw [scanStep_cross htidy hw hon]
        exact ⟨.cross hk hon hrest.run, hrest.tidy, hrest.keeps⟩

theorem indices_close (t : TarjanSCC) (node : String) : (t.close node).indices = t.indices := by
  rw [close]
  split_ifs <;> rfl

/-- **A visit with enough fuel is a visit of the library**: one for each name that is left is
enough. -/
theorem visit_simulates (fuel : ℕ) : ∀ (t : TarjanSCC) (node : String), t.Tidy → node ∈ a.names →
    t.indices.containsKey node = false → (unvisited a t).card ≤ fuel →
      Simulates a (.visit node) t (visit a fuel t node) := by
  induction fuel with
  | zero =>
    intro t node _ hnode hfresh hcard
    have hmem : node ∈ unvisited a t := Finset.mem_filter.2 ⟨hnode, hfresh⟩
    have := Finset.card_pos.2 ⟨node, hmem⟩
    omega
  | succ fuel ih =>
    intro t node htidy hnode hfresh hcard
    have hlt := card_unvisited_enter_lt hnode hfresh
    have hself : (t.enter node).indices.containsKey node = true := by
      rw [containsKey_enter]
      simp
    have hneighbors : ∀ w ∈ a.neighbors node, w ∈ a.names := fun w hw =>
      Adjacency.mem_names_of_neighbor hw
    have hscan := scan_simulates ih hneighbors (htidy.enter hfresh) hself (by omega)
    rw [visit_succ]
    refine ⟨?_, hscan.tidy.close node, fun x hx => ?_⟩
    · rw [search_close hscan.tidy (hscan.keeps node hself)]
      have hrun := hscan.run
      rw [search_enter] at hrun
      exact .visit hrun
    · rw [indices_close]
      refine hscan.keeps x ?_
      rw [containsKey_enter, hx]
      rfl

/-- The loop over the nodes. -/
theorem sweeps_foldl {fuel : ℕ} (hfuel : a.names.card ≤ fuel) {names : List String}
    (htidy : t.Tidy) (hnames : ∀ name ∈ names, name ∈ a.names) :
    Tarjan.Sweeps a.neighbors names t.search (names.foldl (fun (t : TarjanSCC) name =>
      if t.indices.containsKey name then t else visit a fuel t name) t).search := by
  induction names generalizing t with
  | nil => exact .done
  | cons name names ih =>
    have hnames' : ∀ name ∈ names, name ∈ a.names :=
      fun name hname => hnames name (List.mem_cons_of_mem _ hname)
    rw [List.foldl_cons]
    cases hseen : t.indices.containsKey name with
    | true =>
      obtain ⟨k, hk⟩ := Option.isSome_iff_exists.1 hseen
      exact .seen hk (ih htidy hnames')
    | false =>
      have hcard : (unvisited a t).card ≤ fuel := (Finset.card_filter_le _ _).trans hfuel
      have hvisit := visit_simulates _ t name htidy (hnames name List.mem_cons_self) hseen hcard
      exact .fresh (num_eq_none hseen) hvisit.run (ih hvisit.tidy hnames')

theorem tidy_default : ({} : TarjanSCC).Tidy where
  onstack _ := Iff.rfl
  nodup := List.nodup_nil
  visited _ hx := nomatch hx
  lowlink _ := rfl

/-- **The run of `find_sccs` is a search of the library**, so that it ends: `Sweeps` knows of no
fuel. -/
theorem sweeps_findSccs (nodes : Dict (Node S)) (edges : List (Edge S)) :
    ∃ s, Tarjan.Sweeps (cyclicAdjacency nodes edges).neighbors nodes.keys .initial s ∧
      s.components = findSccs nodes edges := by
  have hfuel : (cyclicAdjacency nodes edges).names.card ≤ (cyclicAdjacency nodes edges).size + 1 :=
    (Adjacency.card_names_le _).trans (Nat.le_succ _)
  have hnames : ∀ name ∈ nodes.keys, name ∈ (cyclicAdjacency nodes edges).names := fun name hname =>
    Adjacency.mem_names_of_mem (mem_cyclicAdjacency hname edges)
  exact ⟨_, sweeps_foldl hfuel tidy_default hnames, rfl⟩

/-- **What `find_sccs` returns**, whatever the graph. -/
theorem isPartition_findSccs (nodes : Dict (Node S)) (edges : List (Edge S)) :
    Tarjan.IsPartition (cyclicAdjacency nodes edges).neighbors nodes.keys
      (findSccs nodes edges) := by
  obtain ⟨s, hsweeps, hcomponents⟩ := sweeps_findSccs nodes edges
  exact hcomponents ▸ hsweeps.partition

end TarjanSCC

/-- `y` is reached from `x` along the edges that `find_sccs` looks at. -/
def Reaches (edges : List (Edge S)) : String → String → Prop :=
  Relation.ReflTransGen fun x y => ∃ edge ∈ edges, edge.Leads x y

theorem reach_cyclicAdjacency (nodes : Dict (Node S)) (edges : List (Edge S)) :
    Tarjan.Reach (cyclicAdjacency nodes edges).neighbors = Reaches edges := by
  funext x y
  exact congrArg (Relation.ReflTransGen · x y)
    (funext₂ fun x y => propext (mem_neighbors_cyclicAdjacency nodes edges x y))

omit [State S] in
/-- An edge that leads to a name has passed `check_edge_targets` only if the name is a node. -/
theorem Edge.Leads.isNode {isNode : String → Bool} {edge : Edge S} {x y : String}
    (h : edge.Leads x y) (hvalid : edgeTargetError isNode edge = none) : isNode y = true := by
  cases edge with
  | fixed source target =>
    obtain ⟨rfl, rfl, hsource, htarget⟩ := h
    by_contra hnot
    rw [edgeTargetError] at hvalid
    split_ifs at hvalid with h₁ h₂
    simp [htarget, hnot] at h₂
  | conditional source router pathMap =>
    obtain ⟨rfl, hsource, hy⟩ := h
    rw [Adjacency.pathTargets, List.mem_filter, List.mem_map] at hy
    obtain ⟨⟨kv, hkv, rfl⟩, hend⟩ := hy
    rw [edgeTargetError] at hvalid
    split_ifs at hvalid with h₁
    have hall := List.find?_eq_none.1 (Option.map_eq_none_iff.1 hvalid) kv hkv
    simpa [bne_iff_ne.1 hend] using hall

/-- **`find_sccs` on every graph.**  Its recursion ends, and it returns a partition of the nodes and
the names that are reached from them into the classes of mutual reachability.  There are no names
but nodes if the edges lead to nodes. -/
theorem findSccs_partition (nodes : Dict (Node S)) (edges : List (Edge S)) :
    (∃ s, Tarjan.Sweeps (cyclicAdjacency nodes edges).neighbors nodes.keys .initial s ∧
      s.components = TarjanSCC.findSccs nodes edges) ∧
    (∀ scc ∈ TarjanSCC.findSccs nodes edges, scc ≠ []) ∧
    (TarjanSCC.findSccs nodes edges).flatten.Nodup ∧
    (∀ x, x ∈ (TarjanSCC.findSccs nodes edges).flatten ↔ ∃ node ∈ nodes.keys, Reaches edges node x) ∧
    (∀ scc ∈ TarjanSCC.findSccs nodes edges, ∀ x ∈ scc, ∀ y,
      y ∈ scc ↔ Reaches edges x y ∧ Reaches edges y x) ∧
    (validateEdgeTargets nodes edges = .ok () →
      ∀ x, x ∈ (TarjanSCC.findSccs nodes edges).flatten ↔ x ∈ nodes.keys) := by
  have hpartition := TarjanSCC.isPartition_findSccs nodes edges
  have hreach := reach_cyclicAdjacency nodes edges
  have hcovers : ∀ x, x ∈ (TarjanSCC.findSccs nodes edges).flatten ↔
      ∃ node ∈ nodes.keys, Reaches edges node x := fun x => hreach ▸ hpartition.covers x
  refine ⟨TarjanSCC.sweeps_findSccs nodes edges, hpartition.nonempty, hpartition.nodup, hcovers,
    hreach ▸ hpartition.mutual_reach, fun hvalid x => ?_⟩
  rw [hcovers]
  constructor
  · rintro ⟨node, hnode, hx⟩
    -- along the edges nodes lead to nodes
    induction hx with
    | refl => exact hnode
    | tail _ hedge _ =>
      obtain ⟨edge, hedge, hleads⟩ := hedge
      have hnone : edges.findSome? (edgeTargetError nodes.containsKey) = none := by
        rw [validateEdgeTargets] at hvalid
        cases herr : edges.findSome? (edgeTargetError nodes.containsKey) with
        | none => rfl
        | some e =>
          rw [herr] at hvalid
          cases hvalid
      have hkey := hleads.isNode (List.findSome?_eq_none_iff.1 hnone edge hedge)
      exact AList.mem_keys.2 (Dict.containsKey_iff.1 hkey)
  · exact fun hx => ⟨x, hx, .refl⟩

/-- A node with an edge to a name that is not a node: `ghost` has a component of its own, although
it is no node. -/
theorem findSccs_ghost :
    TarjanSCC.findSccs (Dict.ofList [("a", appending 1)]) [.fixed "a" "ghost"] =
        [["ghost"], ["a"]] ∧
      ¬ ∀ (nodes : Dict (Node Transcript)) (edges : List (Edge Transcript)) (x : String),
        x ∈ (TarjanSCC.findSccs nodes edges).flatten ↔ x ∈ nodes.keys := by
  have hfound : TarjanSCC.findSccs (Dict.ofList [("a", appending 1)]) [.fixed "a" "ghost"] =
      [["ghost"], ["a"]] := by decide
  refine ⟨hfound, fun h => ?_⟩
  have hghost := (h (Dict.ofList [("a", appending 1)]) [.fixed "a" "ghost"] "ghost").1
    (by rw [hfound]; decide)
  revert hghost
  decide

end Juncture
