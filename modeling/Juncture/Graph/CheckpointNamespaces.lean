import Juncture.Graph.Builder
import Juncture.Graph.Subgraph
import Juncture.Lib.Delimited

/-!
# The text of a namespace

A checkpoint namespace is a list of segments, each the name of a node and the identifier of an invocation.
Savers keep it as a text, with `|` before each segment and `:` inside it.  Names of nodes may not have a
`:`, but both names and identifiers may have a `|`.

* `CheckpointNamespace.asStr`, `CheckpointNamespace.parse` : to the text, and back.
* `parse_asStr_iff` : which namespaces are read back.
* `separate_iff` : which are kept apart by their texts.
-/

namespace Juncture

open Delimited

/-- `NamespaceSegment`. -/
structure NamespaceSegment where
  /-- Name of the node. -/
  nodeName : String
  /-- Identifier of the invocation. -/
  invocationId : String
deriving DecidableEq

/-- `CheckpointNamespace`. -/
structure CheckpointNamespace where
  /-- Segments, outermost first. -/
  segments : List NamespaceSegment := []
deriving DecidableEq

namespace CheckpointNamespace

/-- `root`. -/
def root : CheckpointNamespace := {}

/-- `child`. -/
def child (ns : CheckpointNamespace) (nodeName invocationId : String) : CheckpointNamespace :=
  ⟨ns.segments ++ [⟨nodeName, invocationId⟩]⟩

/-- `as_str`. -/
def asStr (ns : CheckpointNamespace) : String :=
  ns.segments.foldl (fun acc s => acc ++ "|" ++ s.nodeName ++ ":" ++ s.invocationId) ""

/-- `split_once(':')` of a segment; one without a colon is left out. -/
def parseSegment (seg : List Char) : Option NamespaceSegment :=
  (cut ':' seg).map fun (nodeName, invocationId) =>
    { nodeName := String.ofList nodeName, invocationId := String.ofList invocationId }

/-- `parse`. -/
def parse (s : String) : CheckpointNamespace :=
  if s.isEmpty then root
  else
    let trimmed := s.toList.dropWhile (· == '|')
    ⟨(trimmed.splitOn '|').filterMap parseSegment⟩

/-- `compute_child_namespace`. -/
def computeChild (persistence : SubgraphPersistence) (name : String)
    (parentNs : Option CheckpointNamespace) (threadId : Option String) (invocationId : String) :
    Option CheckpointNamespace :=
  match persistence with
  | .stateless => none
  | .perThread => some ((parentNs.getD root).child name (threadId.getD "default"))
  | .inherit => some ((parentNs.getD root).child name invocationId)

/-- A namespace made by `root` and `child`, with names of nodes that `validate_keys` accepts. -/
inductive Built : CheckpointNamespace → Prop where
  | root : Built root
  | child {ns : CheckpointNamespace} {nodeName : String} (invocationId : String) (hns : Built ns)
      (hname : StateGraph.nodeNameError nodeName = none) : Built (ns.child nodeName invocationId)

/-- No name or identifier has a bar. -/
def BarFree (ns : CheckpointNamespace) : Prop :=
  ∀ s ∈ ns.segments, '|' ∉ s.nodeName.toList ∧ '|' ∉ s.invocationId.toList

instance (ns : CheckpointNamespace) : Decidable ns.BarFree :=
  inferInstanceAs (Decidable (∀ s ∈ ns.segments, _))

/-- Both namespaces are read back, and what a thread keeps under the text of the one is not found under the
text of the other: they are the same, and so are the threads, if their storage keys are. -/
def Separate (threadId threadId' : String) (ns ns' : CheckpointNamespace) : Prop :=
  parse ns.asStr = ns ∧ parse ns'.asStr = ns' ∧
    ((threadId, ns.asStr) = (threadId', ns'.asStr) → threadId = threadId' ∧ ns = ns')

/-! ### Texts -/

/-- The text of a segment, without its bar. -/
def segmentText (s : NamespaceSegment) : List Char :=
  s.nodeName.toList ++ ':' :: s.invocationId.toList

theorem asStr_child (ns : CheckpointNamespace) (nodeName invocationId : String) :
    (ns.child nodeName invocationId).asStr = childNamespace ns.asStr nodeName invocationId := by
  rw [asStr, child, List.foldl_append]
  rfl

/-- The namespaces of the engine's runs are these texts. -/
theorem asStr_computeChild (persistence : SubgraphPersistence) (name : String)
    (parentNs : Option CheckpointNamespace) (threadId : Option String) (invocationId : String) :
    (computeChild persistence name parentNs threadId invocationId).map asStr =
      computeChildNamespace persistence name (parentNs.map asStr) threadId invocationId := by
  have hbase : (parentNs.map asStr).getD "" = (parentNs.getD root).asStr := by
    cases parentNs <;> rfl
  cases persistence with
  | stateless => rfl
  | perThread | inherit =>
    rw [computeChildNamespace, hbase, ← asStr_child]
    rfl

theorem toList_asStr (ns : CheckpointNamespace) :
    ns.asStr.toList = marked '|' (ns.segments.map segmentText) := by
  have hfold : ∀ (acc : String) (segments : List NamespaceSegment),
      (segments.foldl (fun acc s => acc ++ "|" ++ s.nodeName ++ ":" ++ s.invocationId) acc).toList =
        acc.toList ++ marked '|' (segments.map segmentText) := by
    intro acc segments
    induction segments generalizing acc with
    | nil => simp [marked]
    | cons s segments ih =>
      rw [List.foldl_cons, ih]
      simp [marked, segmentText]
  rw [asStr, hfold]
  rfl

theorem colon_not_mem {name : String} (h : StateGraph.nodeNameError name = none) :
    ':' ∉ name.toList := by
  intro hmem
  unfold StateGraph.nodeNameError at h
  split at h
  · cases h
  · split at h
    · cases h
    · next hany => exact hany (List.any_eq_true.mpr ⟨':', hmem, by decide⟩)

theorem Built.colon_not_mem {ns : CheckpointNamespace} (h : ns.Built) :
    ∀ s ∈ ns.segments, ':' ∉ s.nodeName.toList := by
  induction h with
  | root => exact fun s hs => absurd hs List.not_mem_nil
  | child invocationId hns hname ih =>
    intro s hs
    rw [CheckpointNamespace.child] at hs
    obtain hs | hs := List.mem_append.mp hs
    · exact ih s hs
    · rw [List.mem_singleton.mp hs]
      exact CheckpointNamespace.colon_not_mem hname

/-- A segment is read back if its name has no colon. -/
theorem parseSegment_segmentText {s : NamespaceSegment} (h : ':' ∉ s.nodeName.toList) :
    parseSegment (segmentText s) = some s := by
  rw [parseSegment, segmentText, cut_append_cons h]
  simp

theorem bar_not_mem_segmentText {s : NamespaceSegment}
    (h : '|' ∉ s.nodeName.toList ∧ '|' ∉ s.invocationId.toList) : '|' ∉ segmentText s := by
  simp [segmentText, h.1, h.2]

/-- What is read has no bars. -/
theorem barFree_parse (s : String) : (parse s).BarFree := by
  rw [parse]
  split
  · exact fun s hs => absurd hs List.not_mem_nil
  · intro s hs
    obtain ⟨seg, hseg, hparse⟩ := List.mem_filterMap.mp hs
    obtain ⟨⟨nodeName, invocationId⟩, hcut, rfl⟩ := Option.map_eq_some_iff.mp hparse
    have hbar := not_mem_of_mem_splitOn hseg
    obtain ⟨rfl, -⟩ := cut_eq_some hcut
    simp only [List.mem_append, List.mem_cons, not_or] at hbar
    exact ⟨by simpa using hbar.1, by simpa using hbar.2.2⟩

/-- **Namespaces without bars are read back.** -/
theorem parse_asStr {ns : CheckpointNamespace} (hcolon : ∀ s ∈ ns.segments, ':' ∉ s.nodeName.toList)
    (hbar : ns.BarFree) : parse ns.asStr = ns := by
  obtain ⟨segments⟩ := ns
  cases segments with
  | nil => rfl
  | cons s rest =>
    have htext : (asStr ⟨s :: rest⟩).toList = '|' :: (segmentText s ++ marked '|' (rest.map segmentText)) :=
      toList_asStr _
    have hne : (asStr ⟨s :: rest⟩).isEmpty = false := by
      rw [← Bool.not_eq_true, String.isEmpty_iff]
      intro hempty
      rw [hempty] at htext
      cases htext
    have hbars : ∀ w ∈ (s :: rest).map segmentText, '|' ∉ w := by
      intro w hw
      obtain ⟨t, ht, rfl⟩ := List.mem_map.mp hw
      exact bar_not_mem_segmentText (hbar t ht)
    rw [List.map_cons, List.forall_mem_cons] at hbars
    -- only the bar of the first segment is trimmed
    have htrim : (asStr ⟨s :: rest⟩).toList.dropWhile (· == '|') =
        segmentText s ++ marked '|' (rest.map segmentText) := by
      rw [htext, List.dropWhile_cons_of_pos (by rfl)]
      cases hseg : segmentText s with
      | nil => simp [segmentText] at hseg
      | cons c seg =>
        have hc : c ≠ '|' := fun hc => hbars.1 (by rw [hseg, hc]; exact List.mem_cons_self)
        rw [List.cons_append, List.dropWhile_cons_of_neg (by simpa using hc)]
    have hread : ((s :: rest).map segmentText).filterMap parseSegment = s :: rest := by
      rw [List.filterMap_map]
      exact (List.filterMap_congr fun t ht => parseSegment_segmentText (hcolon t ht)).trans
        List.filterMap_some
    simp only [parse, hne, Bool.false_eq_true, ↓reduceIte, htrim]
    rw [splitOn_append_marked hbars.1 hbars.2, ← List.map_cons, hread]

theorem parse_asStr_iff {ns : CheckpointNamespace} (h : ns.Built) :
    parse ns.asStr = ns ↔ ns.BarFree :=
  ⟨fun heq => heq ▸ barFree_parse _, parse_asStr h.colon_not_mem⟩

/-- **Which namespaces are kept apart**: those whose names and identifiers have no bars. -/
theorem separate_iff {ns ns' : CheckpointNamespace} (h : ns.Built) (h' : ns'.Built)
    (threadId threadId' : String) :
    Separate threadId threadId' ns ns' ↔ ns.BarFree ∧ ns'.BarFree := by
  rw [Separate, parse_asStr_iff h, parse_asStr_iff h']
  refine and_congr_right fun hbar => and_iff_left_of_imp fun hbar' hkey => ?_
  obtain ⟨hthread, htext⟩ := Prod.mk.inj hkey
  refine ⟨hthread, ?_⟩
  rw [← parse_asStr h.colon_not_mem hbar, htext, parse_asStr h'.colon_not_mem hbar']

/-- The namespace of a subgraph `a`, with persistence per thread, on the thread `x|b:y`. -/
def barredThread : CheckpointNamespace := root.child "a" "x|b:y"

theorem barredThread_built : barredThread.Built := .child _ .root (by decide)

/-- It is read back as that of a subgraph `b` in a subgraph `a`, which has the same text. -/
theorem barredThread_not_separate :
    ¬ Separate "x|b:y" "x|b:y" barredThread ((root.child "a" "x").child "b" "y") := by
  rintro ⟨-, -, hkey⟩
  exact absurd (hkey (by decide)).2 (by decide)

/-- Two subgraphs of different threads are kept apart. -/
theorem separate_plain :
    Separate "t" "u" (root.child "a" "t") (root.child "a" "u") :=
  (separate_iff (.child "t" .root (by decide)) (.child "u" .root (by decide)) "t" "u").mpr (by decide)

end CheckpointNamespace

end Juncture
