import Juncture.Pregel.Targets
import Juncture.Pregel.TriggerGuard

/-!
# What the next superstep consists of

`compute_next_tasks` walks over the outputs, the edges of each and the labels of each router, with
one set of seen nodes for all of them.  `resolvedTargets` and `sendTargets` are what one output asks
for, without that set.

* `Scheduled` : the invariant of the walk, kept by each of its loops.
* `computeNextTasks_exact` : the tasks of the next superstep, and when there is an error instead.
-/

namespace Juncture

/-! ### First occurrences -/

/-- `l'` has what is in `l`, once each, in the order in which it comes up there. -/
structure FirstOccurrences {α : Type} [DecidableEq α] (l l' : List α) : Prop where
  /-- Nothing is repeated. -/
  nodup : l'.Nodup
  /-- Nothing is left out, or added. -/
  mem : ∀ x, x ∈ l' ↔ x ∈ l
  /-- What comes up earlier comes first. -/
  order : l'.Pairwise fun x y => l.idxOf x < l.idxOf y

namespace FirstOccurrences

variable {α : Type} [DecidableEq α] {l l' : List α} {x : α}

theorem nil : FirstOccurrences ([] : List α) [] := ⟨.nil, fun _ => .rfl, .nil⟩

/-- Positions of first occurrences stay when the list grows. -/
theorem order_append (h : FirstOccurrences l l') (x : α) :
    l'.Pairwise fun y z => (l ++ [x]).idxOf y < (l ++ [x]).idxOf z := by
  refine h.order.imp_of_mem fun hy hz hlt => ?_
  rw [List.idxOf_append_of_mem ((h.mem _).1 hy), List.idxOf_append_of_mem ((h.mem _).1 hz)]
  exact hlt

/-- One more item, which is there already. -/
theorem snoc_old (h : FirstOccurrences l l') (hx : x ∈ l) : FirstOccurrences (l ++ [x]) l' where
  nodup := h.nodup
  mem y := by
    rw [h.mem, List.mem_append, List.mem_singleton]
    refine (or_iff_left_of_imp ?_).symm
    rintro rfl
    exact hx
  order := h.order_append x

/-- One more item, which is new. -/
theorem snoc_new (h : FirstOccurrences l l') (hx : x ∉ l) :
    FirstOccurrences (l ++ [x]) (l' ++ [x]) where
  nodup := by
    refine h.nodup.append (List.nodup_singleton x) fun y hy hyx => ?_
    obtain rfl := List.mem_singleton.1 hyx
    exact hx ((h.mem y).1 hy)
  mem y := by rw [List.mem_append, List.mem_append, h.mem]
  order := by
    refine List.pairwise_append.2 ⟨h.order_append x, List.pairwise_singleton .., ?_⟩
    intro y hy z hz
    obtain rfl := List.mem_singleton.1 hz
    have hyl := (h.mem y).1 hy
    rw [List.idxOf_append_of_mem hyl, List.idxOf_append_of_notMem hx]
    have := List.idxOf_lt_length_iff.2 hyl
    omega

theorem eq_nil (h : FirstOccurrences [] l) : l = [] :=
  List.eq_nil_iff_forall_not_mem.2 fun y hy => nomatch (h.mem y).1 hy

/-- A list of one has its own first occurrences. -/
theorem eq_singleton (h : FirstOccurrences [x] l) : l = [x] := by
  have hmem : ∀ y, y ∈ l ↔ y ∈ [x] := h.mem
  exact List.perm_singleton.1 ((List.perm_ext_iff_of_nodup h.nodup (List.nodup_singleton x)).2 hmem)

end FirstOccurrences

/-! ### What an output asks for -/

variable {S : Type} [State S]

/-- The target of a label, unless it is `END`. -/
def labelTargets (pathMap : PathMap) (label : String) : List String :=
  if labelTarget pathMap label != END then [labelTarget pathMap label] else []

/-- The targets of an edge. -/
def edgeTargets (state : S) : CompiledEdge S → List String
  | .fixed target => [target]
  | .conditional router pathMap =>
    match router state with
    | .error _ => []
    | .ok route => route.targets.flatMap (labelTargets pathMap)

/-- The targets of an output. -/
def resolvedTargets (table : TriggerTable S) (state : S) (o : TaskOutput S) : List String :=
  match o.command.goto with
  | .none => (table.edgesOf o.nodeName).flatMap (edgeTargets state)
  | .next target => [target]
  | .multiple targets => targets
  | .send _ => []
  | .end => []

/-- The `Send` targets of an output, with their indices. -/
def sendTargets (o : TaskOutput S) : List (SendTarget × ℕ) :=
  match o.command.goto with
  | .send targets => targets.zipIdx
  | _ => []

/-- The nodes of the PULL tasks. -/
def pullNames (tasks : List (PendingTask S)) : List String :=
  tasks.filterMap fun t =>
    match t.trigger with
    | .pull => some t.nodeName
    | .push _ => none

/-- The nodes of the PUSH tasks, with their indices and states. -/
def pushTasks (tasks : List (PendingTask S)) : List (String × ℕ × Option Json) :=
  tasks.filterMap fun t =>
    match t.trigger with
    | .pull => none
    | .push index => some (t.nodeName, index, t.stateJson)

/-- The PUSH task of a `Send` target. -/
def pushTask (p : SendTarget × ℕ) : String × ℕ × Option Json :=
  (p.1.node, p.2, some p.1.state)

omit [State S] in
theorem pullNames_append (tasks tasks' : List (PendingTask S)) :
    pullNames (tasks ++ tasks') = pullNames tasks ++ pullNames tasks' := List.filterMap_append

omit [State S] in
theorem pushTasks_append (tasks tasks' : List (PendingTask S)) :
    pushTasks (tasks ++ tasks') = pushTasks tasks ++ pushTasks tasks' := List.filterMap_append

omit [State S] in
/-- Without PUSH tasks, all tasks are PULL tasks. -/
theorem pullNames_of_pushTasks {tasks : List (PendingTask S)} (h : pushTasks tasks = []) :
    pullNames tasks = tasks.map PendingTask.nodeName := by
  have hpull := List.filterMap_eq_nil_iff.1 h
  unfold pullNames
  refine List.filterMap_eq_map_iff_forall_eq_some.2 fun t ht => ?_
  have htrigger := hpull t ht
  cases hx : t.trigger with
  | pull => rfl
  | push index =>
    rw [hx] at htrigger
    cases htrigger

/-! ### The walk -/

/-- The accumulator after targets and `Send` targets have been asked for. -/
structure Scheduled (acc : NextTasks S) (targets : List String) (sends : List (SendTarget × ℕ)) :
    Prop where
  /-- The PULL tasks. -/
  pulls : FirstOccurrences targets (pullNames acc.tasks)
  /-- The nodes that have one. -/
  seen : ∀ n, n ∈ acc.seenNodes ↔ n ∈ targets
  /-- The PUSH tasks. -/
  pushes : pushTasks acc.tasks = sends.map pushTask

namespace Scheduled

variable {acc c : NextTasks S} {targets : List String} {sends : List (SendTarget × ℕ)} {base : ℕ}

omit [State S] in
theorem empty : Scheduled (S := S) .empty [] [] := ⟨.nil, fun _ => .rfl, rfl⟩

omit [State S] in
theorem pushPull (h : Scheduled acc targets sends) (target : String) :
    Scheduled (acc.pushPull base target) (targets ++ [target]) sends := by
  rw [NextTasks.pushPull]
  split_ifs with hseen
  · have hmem := (h.seen target).1 (List.contains_iff_mem.1 hseen)
    refine ⟨h.pulls.snoc_old hmem, fun n => ?_, h.pushes⟩
    rw [h.seen, List.mem_append, List.mem_singleton]
    refine (or_iff_left_of_imp ?_).symm
    rintro rfl
    exact hmem
  · have hnot : target ∉ targets := fun hmem =>
      hseen (List.contains_iff_mem.2 ((h.seen target).2 hmem))
    refine ⟨?_, fun n => ?_, ?_⟩
    · rw [pullNames_append]
      exact h.pulls.snoc_new hnot
    · rw [List.mem_cons, h.seen, List.mem_append, List.mem_singleton, or_comm]
    · rw [pushTasks_append, h.pushes]
      exact List.append_nil _

omit [State S] in
theorem pushSend (h : Scheduled acc targets sends) (p : SendTarget × ℕ) :
    Scheduled (acc.pushSend base p) targets (sends ++ [p]) := by
  rw [NextTasks.pushSend]
  refine ⟨?_, h.seen, ?_⟩
  · rw [pullNames_append]
    show FirstOccurrences targets (pullNames acc.tasks ++ [])
    rw [List.append_nil]
    exact h.pulls
  · rw [pushTasks_append, h.pushes, List.map_append]
    rfl

omit [State S] in
theorem foldl_pushPull (l : List String) (h : Scheduled acc targets sends) :
    Scheduled (l.foldl (NextTasks.pushPull base) acc) (targets ++ l) sends := by
  induction l generalizing acc targets with
  | nil => rwa [List.append_nil]
  | cons target l ih =>
    rw [List.append_cons]
    exact ih (h.pushPull target)

omit [State S] in
theorem foldl_pushSend (l : List (SendTarget × ℕ)) (h : Scheduled acc targets sends) :
    Scheduled (l.foldl (NextTasks.pushSend base) acc) targets (sends ++ l) := by
  induction l generalizing acc sends with
  | nil => rwa [List.append_nil]
  | cons p l ih =>
    rw [List.append_cons]
    exact ih (h.pushSend p)

variable {nodes : Dict (Node S)} {state : S}

/-- One label. -/
theorem processLabel {source : String} {pathMap : PathMap} {label : String}
    (hc : processLabel base nodes source pathMap acc label = .ok c)
    (h : Scheduled acc targets sends) :
    Scheduled c (targets ++ labelTargets pathMap label) sends := by
  rw [Juncture.processLabel] at hc
  rw [labelTargets]
  split_ifs at hc ⊢ with hunknown hend
  · cases hc
    exact h.pushPull _
  · cases hc
    rwa [List.append_nil]

variable {edges : List (Edge S)}

/-- One edge of a table that has been built. -/
theorem processEdge {source : String} {e : CompiledEdge S}
    (he : e ∈ (buildTriggerTable edges).edgesOf source)
    (hc : processEdge base state nodes
      ((TriggerToNodes.fromTriggerTable (buildTriggerTable edges)).triggeredNodes [source])
        source acc e = .ok c)
    (h : Scheduled acc targets sends) :
    Scheduled c (targets ++ edgeTargets state e) sends := by
  cases e with
  | fixed target =>
    -- the reverse map has the target, and the table has no edge to `END`
    have htriggered := List.contains_iff_mem.2 (mem_triggeredNodes_of_fixed he)
    have hend := bne_iff_ne.2 (fixed_of_buildTriggerTable he).2
    simp only [Juncture.processEdge, htriggered, hend, Bool.and_self, if_true] at hc
    cases hc
    exact h.pushPull target
  | conditional router pathMap =>
    simp only [Juncture.processEdge] at hc
    rw [edgeTargets]
    cases hr : router state with
    | error e =>
      rw [hr] at hc
      cases hc
    | ok route =>
      rw [hr] at hc
      refine ExceptFold.foldlM_all
        (I := fun done acc => Scheduled acc (targets ++ done.flatMap (labelTargets pathMap)) sends)
        (fun done b c label _ hc hb => ?_) hc (by simpa using h)
      rw [List.flatMap_append, List.flatMap_singleton, ← List.append_assoc]
      exact hb.processLabel hc

/-- One output. -/
theorem routeOutput {o : TaskOutput S}
    (hc : routeOutput base (buildTriggerTable edges) (.fromTriggerTable (buildTriggerTable edges))
      nodes state acc o = .ok c)
    (h : Scheduled acc targets sends) :
    Scheduled c (targets ++ resolvedTargets (buildTriggerTable edges) state o)
      (sends ++ sendTargets o) := by
  unfold Juncture.routeOutput at hc
  unfold resolvedTargets sendTargets
  cases hgoto : o.command.goto with
  | none =>
    rw [hgoto] at hc
    rw [List.append_nil]
    refine ExceptFold.foldlM_all
      (I := fun done acc => Scheduled acc (targets ++ done.flatMap (edgeTargets state)) sends)
      (fun done b c e he hc hb => ?_) hc (by simpa using h)
    rw [List.flatMap_append, List.flatMap_singleton, ← List.append_assoc]
    exact hb.processEdge he hc
  | next target =>
    rw [hgoto] at hc
    cases hc
    rw [List.append_nil]
    exact h.pushPull target
  | multiple l =>
    rw [hgoto] at hc
    cases hc
    rw [List.append_nil]
    exact h.foldl_pushPull l
  | send l =>
    rw [hgoto] at hc
    cases hc
    rw [List.append_nil]
    exact h.foldl_pushSend l.zipIdx
  | «end» =>
    rw [hgoto] at hc
    cases hc
    rwa [List.append_nil, List.append_nil]

end Scheduled

/-- **After the walk**: everything that the outputs ask for has been scheduled. -/
theorem scheduled_foldlM {edges : List (Edge S)} {base : ℕ} {completed : List (TaskOutput S)}
    {nodes : Dict (Node S)} {state : S} {acc : NextTasks S}
    (h : completed.foldlM (routeOutput base (buildTriggerTable edges)
      (.fromTriggerTable (buildTriggerTable edges)) nodes state) NextTasks.empty = .ok acc) :
    Scheduled acc (completed.flatMap (resolvedTargets (buildTriggerTable edges) state))
      (completed.flatMap sendTargets) := by
  refine ExceptFold.foldlM_all
    (I := fun done acc => Scheduled acc
      (done.flatMap (resolvedTargets (buildTriggerTable edges) state)) (done.flatMap sendTargets))
    (fun done b c o _ hc hb => ?_) h .empty
  rw [List.flatMap_append, List.flatMap_append, List.flatMap_singleton, List.flatMap_singleton]
  exact hb.routeOutput hc

/-- **What is scheduled** is what the outputs ask for. -/
theorem scheduled_computeNextTasks {edges : List (Edge S)} {nodes : Dict (Node S)} {state : S}
    {base : ℕ} {completed : List (TaskOutput S)} {tasks : List (PendingTask S)}
    (h : computeNextTasks base completed (buildTriggerTable edges)
      (.fromTriggerTable (buildTriggerTable edges)) nodes state = .ok tasks) :
    FirstOccurrences (completed.flatMap (resolvedTargets (buildTriggerTable edges) state))
      (pullNames tasks) ∧
      pushTasks tasks = (completed.flatMap sendTargets).map pushTask := by
  unfold computeNextTasks at h
  split at h
  · cases h
  · rename_i acc hacc
    cases h
    have hscheduled := scheduled_foldlM hacc
    exact ⟨hscheduled.pulls, hscheduled.pushes⟩

/-- A router that is asked fails, or returns a label that nothing stands for. -/
def RouterFails (table : TriggerTable S) (nodes : Dict (Node S)) (state : S) (o : TaskOutput S) :
    Prop :=
  ∃ router pathMap, .conditional router pathMap ∈ table.edgesOf o.nodeName ∧
    ((∃ e, router state = .error e) ∨ ∃ route, router state = .ok route ∧
      ∃ label ∈ route.targets, label ∉ pathMap ∧ label ∉ nodes ∧ label ≠ END)

theorem labelUnknown_iff {nodes : Dict (Node S)} {pathMap : PathMap} {label : String} :
    labelUnknown nodes pathMap label = true ↔ label ∉ pathMap ∧ label ∉ nodes ∧ label ≠ END := by
  have hself : label ∉ pathMap → labelTarget pathMap label = label := by
    intro hlabel
    rw [labelTarget, AList.lookup_eq_none.2 hlabel]
    rfl
  rw [labelUnknown, Bool.and_eq_true, Bool.and_eq_true, bne_iff_ne, Bool.not_eq_true',
    Bool.not_eq_true', ← Bool.not_eq_true, ← Bool.not_eq_true, Dict.containsKey_iff,
    Dict.containsKey_iff, and_assoc]
  refine and_congr_right fun hlabel => ?_
  rw [hself hlabel]

theorem routingFails_iff {table : TriggerTable S} {nodes : Dict (Node S)} {state : S}
    {o : TaskOutput S} :
    RoutingFails table nodes state o ↔
      o.command.goto = .none ∧ RouterFails table nodes state o := by
  refine and_congr_right fun _ => ?_
  constructor
  · rintro ⟨e, he, hfails⟩
    cases e with
    | fixed target => exact hfails.elim
    | conditional router pathMap =>
      refine ⟨router, pathMap, he, ?_⟩
      simp only [edgeFails] at hfails
      cases hr : router state with
      | error e => exact .inl ⟨e, rfl⟩
      | ok route =>
        rw [hr] at hfails
        obtain ⟨label, hlabel, hunknown⟩ := hfails
        exact .inr ⟨route, rfl, label, hlabel, labelUnknown_iff.1 hunknown⟩
  · rintro ⟨router, pathMap, he, ⟨e, hr⟩ | ⟨route, hr, label, hlabel, hunknown⟩⟩
    · exact ⟨_, he, by simp only [edgeFails, hr]⟩
    · refine ⟨_, he, ?_⟩
      simp only [edgeFails, hr]
      exact ⟨label, hlabel, labelUnknown_iff.2 hunknown⟩

/-- **The tasks of the next superstep**: one PULL task for each target that an output resolves to, in
the order in which they come up, and one PUSH task for each `Send` target.  There is an error exactly
when a router fails, or returns a label that nothing stands for. -/
theorem computeNextTasks_exact (edges : List (Edge S)) (nodes : Dict (Node S)) (state : S)
    (base : ℕ) (completed : List (TaskOutput S)) :
    (∀ tasks, computeNextTasks base completed (buildTriggerTable edges)
        (.fromTriggerTable (buildTriggerTable edges)) nodes state = .ok tasks →
      FirstOccurrences (completed.flatMap (resolvedTargets (buildTriggerTable edges) state))
        (pullNames tasks) ∧
      pushTasks tasks = (completed.flatMap sendTargets).map pushTask) ∧
    ((∃ e, computeNextTasks base completed (buildTriggerTable edges)
        (.fromTriggerTable (buildTriggerTable edges)) nodes state = .error e) ↔
      ∃ o ∈ completed, o.command.goto = .none ∧
        RouterFails (buildTriggerTable edges) nodes state o) := by
  constructor
  · exact fun tasks h => scheduled_computeNextTasks h
  · have hok : (∃ tasks, computeNextTasks base completed (buildTriggerTable edges)
        (.fromTriggerTable (buildTriggerTable edges)) nodes state = .ok tasks) ↔
        ∀ o ∈ completed, ¬ RoutingFails (buildTriggerTable edges) nodes state o :=
      computeNextTasks_ok_iff
    rw [← not_iff_not]
    refine Iff.trans ?_ (hok.trans ?_)
    · cases computeNextTasks base completed (buildTriggerTable edges)
        (.fromTriggerTable (buildTriggerTable edges)) nodes state with
      | error e => simp
      | ok tasks => simp
    · simp only [routingFails_iff, not_exists, not_and]

end Juncture
