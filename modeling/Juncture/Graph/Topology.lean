import Juncture.Graph.Compiled

/-!
# Topology validation

The checks that a graph passes before it is compiled: an entry point is set, edges lead to
registered nodes, every node is reached from the entry point by a breadth-first search, no node is
isolated, and every cycle has a conditional way out, where cycles are found by Tarjan's algorithm.

The two searches are bounded by a fuel that no run uses up: a name enters the queue, or is visited,
only once.
-/

namespace Juncture

/-- `TopologyError`. -/
inductive TopologyError where
  | duplicateNode (name : String)
  | invalidNodeName (name reason : String)
  | noEntryPoint
  | nodeNotFound (name : String)
  | edgeTargetNotFound (source branch target : String)
  | isolatedNode (name : String)
  | unreachableNode (name : String)
  | potentialInfiniteLoop (cycle : List String)
  | invalidFieldReference (index fieldCount : ℕ) (fieldNames : List String) (context : String)
deriving DecidableEq

/-- A check that has found something wrong, or nothing. -/
def reject : Option TopologyError → Except TopologyError Unit
  | some e => .error e
  | none => .ok ()

/-! ### Adjacency -/

/-- The neighbours of each node. -/
abbrev Adjacency := Dict (List String)

namespace Adjacency

/-- `entry(node).or_default()`. -/
def touch (a : Adjacency) (node : String) : Adjacency :=
  if a.containsKey node then a else a.insert node []

/-- `entry(source).or_default().push(target)`. -/
def link (source : String) (a : Adjacency) (target : String) : Adjacency :=
  a.insert source ((a.lookup source).getD [] ++ [target])

/-- The neighbours of a node. -/
def neighbors (a : Adjacency) (node : String) : List String := (a.lookup node).getD []

/-- The number of names, with repetitions. -/
def size (a : Adjacency) : ℕ := (a.entries.map fun kv => kv.2.length + 1).sum

/-- The targets of a path map that are not `END`. -/
def pathTargets (pathMap : PathMap) : List String :=
  (pathMap.entries.map Sigma.snd).filter fun target => target != END

end Adjacency

variable {S : Type} [State S]

/-- One edge of the adjacency of `check_reachability`: an entry only touches its targets. -/
def addReachable (a : Adjacency) : Edge S → Adjacency
  | .fixed source target =>
    if source = START then a.touch target
    else if target != END then a.link source target
    else a
  | .conditional source _ pathMap =>
    if source = START then (pathMap.entries.map Sigma.snd).foldl Adjacency.touch a
    else (Adjacency.pathTargets pathMap).foldl (Adjacency.link source) (a.touch source)

/-- One edge of the adjacency of `find_sccs`. -/
def addCyclic (a : Adjacency) : Edge S → Adjacency
  | .fixed source target =>
    if source != START && target != END then a.link source target else a
  | .conditional source _ pathMap =>
    if source != START then
      (Adjacency.pathTargets pathMap).foldl (Adjacency.link source) (a.touch source)
    else a

/-! ### Reachability -/

/-- One neighbour: visited nodes and queue. -/
def bfsVisit (acc : List String × List String) (neighbor : String) : List String × List String :=
  if acc.1.contains neighbor then acc else (acc.1 ++ [neighbor], acc.2 ++ [neighbor])

/-- The breadth-first search: the nodes visited from a queue. -/
def bfs (a : Adjacency) : ℕ → List String → List String → List String
  | 0, visited, _ => visited
  | _ + 1, visited, [] => visited
  | fuel + 1, visited, current :: queue =>
    let (visited, queue) := (a.neighbors current).foldl bfsVisit (visited, queue)
    bfs a fuel visited queue

/-- The fallback edges. -/
def addFallbacks (a : Adjacency) (metadata : Dict NodeMetadata) : Adjacency :=
  metadata.entries.foldl (fun a kv =>
    match kv.2.fallbackNode with
    | some fallback => Adjacency.link kv.1 a fallback
    | none => a) a

/-- The adjacency of `check_reachability`. -/
def reachAdjacency (nodes : Dict (Node S)) (edges : List (Edge S)) (metadata : Dict NodeMetadata) :
    Adjacency :=
  addFallbacks (edges.foldl addReachable (nodes.keys.foldl Adjacency.touch ∅)) metadata

/-- `check_reachability`. -/
def checkReachability (nodes : Dict (Node S)) (edges : List (Edge S)) (entryPoint : Option String)
    (metadata : Dict NodeMetadata) : Except TopologyError Unit :=
  match entryPoint with
  | none => .error .noEntryPoint
  | some entry =>
    let a := reachAdjacency nodes edges metadata
    let visited := bfs a (a.size + 1) [entry] [entry]
    reject ((nodes.keys.find? fun name => !visited.contains name).map .unreachableNode)

/-! ### Cycles -/

/-- `TarjanSCC`.  The top of the stack comes first. -/
structure TarjanSCC where
  /-- Next index. -/
  index : ℕ := 0
  /-- Nodes whose component is open. -/
  stack : List String := []
  /-- Index of each visited node. -/
  indices : Dict ℕ := ∅
  /-- Low link of each visited node. -/
  lowlink : Dict ℕ := ∅
  /-- Membership in the stack. -/
  onstack : List String := []
  /-- Finished components. -/
  sccs : List (List String) := []

namespace TarjanSCC

/-- A node is opened. -/
def enter (t : TarjanSCC) (node : String) : TarjanSCC :=
  { t with
    indices := t.indices.insert node t.index
    lowlink := t.lowlink.insert node t.index
    index := t.index + 1
    stack := node :: t.stack
    onstack := t.onstack.insert node }

/-- The low link of a node takes a neighbour's value into account. -/
def lower (t : TarjanSCC) (node : String) (value : ℕ) : TarjanSCC :=
  { t with lowlink := t.lowlink.insert node (min ((t.lowlink.lookup node).getD 0) value) }

/-- The stack down to `node`, and the rest. -/
def popTo (node : String) : List String → List String × List String
  | [] => ([], [])
  | w :: stack =>
    if w = node then ([w], stack)
    else (w :: (popTo node stack).1, (popTo node stack).2)

/-- A node whose low link is its index closes a component. -/
def close (t : TarjanSCC) (node : String) : TarjanSCC :=
  if t.lowlink.lookup node = t.indices.lookup node then
    let (scc, stack) := popTo node t.stack
    { t with
      stack
      onstack := t.onstack.filter fun w => !scc.contains w
      sccs := t.sccs ++ [scc] }
  else t

/-- `visit`. -/
def visit (a : Adjacency) : ℕ → TarjanSCC → String → TarjanSCC
  | 0, t, _ => t
  | fuel + 1, t, node =>
    let t := (a.neighbors node).foldl (fun t neighbor =>
      if !t.indices.containsKey neighbor then
        let t := visit a fuel t neighbor
        t.lower node ((t.lowlink.lookup neighbor).getD 0)
      else if t.onstack.contains neighbor then
        t.lower node ((t.indices.lookup neighbor).getD 0)
      else t) (t.enter node)
    t.close node

/-- `find_sccs`. -/
def findSccs (nodes : Dict (Node S)) (edges : List (Edge S)) : List (List String) :=
  let a := edges.foldl addCyclic (nodes.keys.foldl Adjacency.touch ∅)
  (nodes.keys.foldl (fun (t : TarjanSCC) name =>
    if t.indices.containsKey name then t else visit a (a.size + 1) t name) {}).sccs

end TarjanSCC

/-- Is the edge a conditional one from a node of the component to a target outside? -/
def isExit (scc : List String) : Edge S → Bool
  | .fixed _ _ => false
  | .conditional source _ pathMap =>
    scc.contains source && pathMap.entries.any fun kv => kv.2 == END || !scc.contains kv.2

/-- `check_infinite_loops`. -/
def checkInfiniteLoops (nodes : Dict (Node S)) (edges : List (Edge S)) :
    Except TopologyError Unit :=
  reject (((TarjanSCC.findSccs nodes edges).find? fun scc =>
    decide (1 < scc.length) && !edges.any (isExit scc)).map .potentialInfiniteLoop)

/-! ### The other checks -/

/-- `check_entry_point`. -/
def checkEntryPoint (entryPoint : Option String) : Except TopologyError Unit :=
  if entryPoint.isNone then .error .noEntryPoint else .ok ()

/-- What `check_edge_targets` finds wrong with an edge. -/
def edgeTargetError (isNode : String → Bool) : Edge S → Option TopologyError
  | .fixed source target =>
    if source != START && !isNode source then some (.nodeNotFound source)
    else if target != END && !isNode target then some (.nodeNotFound target)
    else none
  | .conditional source _ pathMap =>
    if source != START && !isNode source then some (.nodeNotFound source)
    else (pathMap.entries.find? fun kv => kv.2 != END && !isNode kv.2).map fun kv =>
      .edgeTargetNotFound source kv.1 kv.2

/-- `check_edge_targets`, with its error. -/
def validateEdgeTargets (nodes : Dict (Node S)) (edges : List (Edge S)) :
    Except TopologyError Unit :=
  reject (edges.findSome? (edgeTargetError nodes.containsKey))

/-- Does the edge enter the node? -/
def enters (name : String) : Edge S → Bool
  | .fixed _ target => target != END && target == name
  | .conditional _ _ pathMap => (Adjacency.pathTargets pathMap).contains name

/-- Does the edge leave the node? -/
def leaves (name : String) : Edge S → Bool
  | .fixed source _ => source != START && source == name
  | .conditional source _ _ => source != START && source == name

/-- `check_isolated_nodes`. -/
def checkIsolatedNodes (nodes : Dict (Node S)) (edges : List (Edge S)) :
    Except TopologyError Unit :=
  reject ((nodes.keys.find? fun name =>
    !edges.any (enters name) && !edges.any (leaves name)).map .isolatedNode)

/-- `TopologyValidator::validate`. -/
def validate (nodes : Dict (Node S)) (edges : List (Edge S)) (entryPoint : Option String)
    (metadata : Dict NodeMetadata) : Except TopologyError Unit := do
  checkEntryPoint entryPoint
  validateEdgeTargets nodes edges
  checkReachability nodes edges entryPoint metadata
  checkIsolatedNodes nodes edges
  checkInfiniteLoops nodes edges

end Juncture
