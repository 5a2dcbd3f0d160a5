import Juncture.Core.Checkpoint
import Juncture.Pregel.Scheduler

/-!
# Recovery tasks

A task that fails on a node with a fallback or an error handler does not fail the superstep: the
runner records a failed output with the default command, and `after_tick` adds a recovery task to
the next superstep.  `scheduleNext` is the part of `after_tick` that puts the next tasks together:
the routed tasks, the fallback tasks, the handler tasks, and the handler tasks of failures whose
markers a crashed run left in the checkpoint.
-/

namespace Juncture

variable {S : Type} [State S]

/-- The accumulator of `schedule_fallback_tasks`. -/
structure FallbackTasks (S : Type) where
  /-- `recovery_tasks`. -/
  tasks : List (PendingTask S) := []
  /-- `handled_nodes`. -/
  handled : List String := []

/-- The fallback scheduled for an output, given the nodes handled before it.  A fallback that is not
registered, that is the node itself, or that was handled before in this superstep (a mutual cycle)
is skipped. -/
def fallbackFor (nodes : Dict (Node S)) (fallbackMap : Dict String) (handled : List String)
    (o : TaskOutput S) : Option String :=
  if o.circuitBlocked || o.error.isNone then none
  else (fallbackMap.lookup o.nodeName).filter fun fallback =>
    nodes.containsKey fallback && fallback != o.nodeName && !handled.contains fallback

/-- One output in `schedule_fallback_tasks`. -/
def fallbackStep (base : ℕ) (nodes : Dict (Node S)) (fallbackMap : Dict String)
    (acc : FallbackTasks S) (o : TaskOutput S) : FallbackTasks S :=
  match fallbackFor nodes fallbackMap acc.handled o with
  | none => acc
  | some fallback =>
    { tasks := acc.tasks ++ [.pull (base + acc.tasks.length) fallback]
      handled := acc.handled.insert o.nodeName }

/-- `schedule_fallback_tasks`: the recovery tasks and the nodes they are for. -/
def scheduleFallbackTasks (base : ℕ) (outputs : List (TaskOutput S)) (nodes : Dict (Node S))
    (fallbackMap : Dict String) : FallbackTasks S :=
  outputs.foldl (fallbackStep base nodes fallbackMap) {}

/-- The handler node of a failed output that no fallback took care of. -/
def handlerFor (nodes : Dict (Node S)) (errorHandlerMap : Dict String)
    (fallbackHandled : List String) (o : TaskOutput S) : Option String :=
  if o.circuitBlocked || o.error.isNone || fallbackHandled.contains o.nodeName then none
  else (errorHandlerMap.lookup o.nodeName).filter nodes.containsKey

/-- PULL tasks for the given nodes, with identifiers from `base` on. -/
def pullTasks (base : ℕ) (names : List String) : List (PendingTask S) :=
  names.zipIdx.map fun p => .pull (base + p.2) p.1

/-- `schedule_error_handlers_filtered`. -/
def scheduleErrorHandlersFiltered (base : ℕ) (outputs : List (TaskOutput S))
    (nodes : Dict (Node S)) (errorHandlerMap : Dict String) (fallbackHandled : List String) :
    List (PendingTask S) :=
  pullTasks base (outputs.filterMap (handlerFor nodes errorHandlerMap fallbackHandled))

/-- The failed nodes that `ERROR_SOURCE_NODE` markers name. -/
def markedNodes (pendingWrites : List PendingWrite) : List String :=
  (pendingWrites.filter fun w => w.channel == ERROR_SOURCE_NODE).filterMap fun w => w.value.asStr

/-- `schedule_error_handlers_from_writes`: one task for each marked node with a handler, unless the
node failed in this superstep too. -/
def scheduleErrorHandlersFromWrites (base : ℕ) (pendingWrites : List PendingWrite)
    (nodes : Dict (Node S)) (errorHandlerMap : Dict String) (alreadyHandled : List String) :
    List (PendingTask S) :=
  pullTasks base (((markedNodes pendingWrites).eraseDups.filter
    fun n => !alreadyHandled.contains n).filterMap
      fun n => (errorHandlerMap.lookup n).filter nodes.containsKey)

/-- What scheduling reads of the loop. -/
structure ScheduleEnv (S : Type) [State S] where
  /-- Nodes of the graph. -/
  nodes : Dict (Node S)
  /-- Trigger table. -/
  table : TriggerTable S
  /-- Its reverse map. -/
  triggerToNodes : TriggerToNodes
  /-- Fallback of each node. -/
  fallbackMap : Dict String
  /-- Error handler of each node. -/
  errorHandlerMap : Dict String

/-- The next tasks of `after_tick`, from the executed outputs and the pending writes of the
checkpoint (empty when no error handler is registered or there is no checkpoint). -/
def scheduleNext (env : ScheduleEnv S) (base : ℕ) (outputs : List (TaskOutput S)) (state : S)
    (persisted : List PendingWrite) : Except JunctureError (List (PendingTask S)) :=
  match computeNextTasks base outputs env.table env.triggerToNodes env.nodes state with
  | .error e => .error e
  | .ok routed =>
    let fallback := scheduleFallbackTasks (base + routed.length) outputs env.nodes env.fallbackMap
    -- Fallback tasks are only compared with the routed tasks, not with one another.
    let fallbackTasks := fallback.tasks.filter fun t =>
      !(routed.map PendingTask.nodeName).contains t.nodeName
    let pending := routed ++ fallbackTasks
    let handlers := scheduleErrorHandlersFiltered
      (base + routed.length + fallback.tasks.length) outputs env.nodes env.errorHandlerMap
      fallback.handled
    let alreadyHandled := (outputs.filter fun o => o.error.isSome).map TaskOutput.nodeName
    let fromWrites := scheduleErrorHandlersFromWrites
      (base + routed.length + fallback.tasks.length + handlers.length) persisted env.nodes
      env.errorHandlerMap alreadyHandled
    .ok (pending ++ handlers ++ fromWrites)

/-! ### Where the next tasks come from -/

/-- The task of the output failed, and was not just kept from running. -/
def Failed (o : TaskOutput S) : Prop := o.circuitBlocked = false ∧ o.error.isSome = true

/-- The nodes whose fallback has been scheduled after the given outputs. -/
def fallbackHandled (env : ScheduleEnv S) (outputs : List (TaskOutput S)) : List String :=
  (scheduleFallbackTasks 0 outputs env.nodes env.fallbackMap).handled

/-- The node of the recovery task scheduled for output `o`, which completed after `pre` and before
`post`: its fallback, or its error handler. -/
def recoveryFor (env : ScheduleEnv S) (pre : List (TaskOutput S)) (o : TaskOutput S)
    (post : List (TaskOutput S)) : Option String × Option String :=
  (fallbackFor env.nodes env.fallbackMap (fallbackHandled env pre) o,
    handlerFor env.nodes env.errorHandlerMap (fallbackHandled env (pre ++ o :: post)) o)

/-- The handlers of the failures that persisted markers report. -/
def markerTargets (env : ScheduleEnv S) (outputs : List (TaskOutput S))
    (persisted : List PendingWrite) : Set String :=
  {h | ∃ n ∈ markedNodes persisted, (∀ o ∈ outputs, o.error.isSome = true → o.nodeName ≠ n) ∧
    env.errorHandlerMap.lookup n = some h ∧ h ∈ env.nodes}

section Spec

variable {env : ScheduleEnv S}

theorem fallbackStep_handled (base : ℕ) (acc : FallbackTasks S) (o : TaskOutput S) :
    (fallbackStep base env.nodes env.fallbackMap acc o).handled =
      if (fallbackFor env.nodes env.fallbackMap acc.handled o).isSome
      then acc.handled.insert o.nodeName else acc.handled := by
  unfold fallbackStep
  cases fallbackFor env.nodes env.fallbackMap acc.handled o <;> simp

/-- The handled nodes do not depend on where identifiers start, nor on the tasks so far. -/
theorem foldl_fallbackStep_handled (base base' : ℕ) :
    ∀ (outputs : List (TaskOutput S)) (acc acc' : FallbackTasks S), acc.handled = acc'.handled →
      (outputs.foldl (fallbackStep base env.nodes env.fallbackMap) acc).handled =
        (outputs.foldl (fallbackStep base' env.nodes env.fallbackMap) acc').handled := by
  intro outputs
  induction outputs with
  | nil => intro acc acc' h; exact h
  | cons o os ih =>
    intro acc acc' h
    refine ih _ _ ?_
    rw [fallbackStep_handled, fallbackStep_handled, h]

theorem scheduleFallbackTasks_handled (base : ℕ) (outputs : List (TaskOutput S)) :
    (scheduleFallbackTasks base outputs env.nodes env.fallbackMap).handled =
      fallbackHandled env outputs :=
  foldl_fallbackStep_handled base 0 outputs _ _ rfl

theorem exists_split_cons {α : Type*} {a : α} {l : List α} {P : List α → α → Prop} :
    (∃ pre b post, a :: l = pre ++ b :: post ∧ P pre b) ↔
      P [] a ∨ ∃ pre b post, l = pre ++ b :: post ∧ P (a :: pre) b := by
  constructor
  · rintro ⟨pre, b, post, h, hP⟩
    obtain ⟨rfl, h⟩ | ⟨pre', rfl, rfl⟩ := List.cons_eq_append_iff.1 h
    · cases h; exact .inl hP
    · exact .inr ⟨pre', b, post, rfl, hP⟩
  · rintro (hP | ⟨pre, b, post, rfl, hP⟩)
    · exact ⟨[], a, l, rfl, hP⟩
    · exact ⟨a :: pre, b, post, rfl, hP⟩

theorem mem_fallbackStep_iff (base : ℕ) (acc : FallbackTasks S) (o : TaskOutput S) (n : String) :
    (∃ t ∈ (fallbackStep base env.nodes env.fallbackMap acc o).tasks, t.nodeName = n) ↔
      (∃ t ∈ acc.tasks, t.nodeName = n) ∨
        fallbackFor env.nodes env.fallbackMap acc.handled o = some n := by
  unfold fallbackStep
  cases fallbackFor env.nodes env.fallbackMap acc.handled o with
  | none => simp
  | some f =>
    simp only [NextTasks.exists_mem_snoc, PendingTask.pull, Option.some.injEq]
    exact or_congr Iff.rfl eq_comm

/-- The fallback tasks, output by output. -/
theorem mem_foldl_fallbackStep_iff (base : ℕ) (n : String) :
    ∀ (outputs : List (TaskOutput S)) (acc : FallbackTasks S),
      (∃ t ∈ (outputs.foldl (fallbackStep base env.nodes env.fallbackMap) acc).tasks,
          t.nodeName = n) ↔
        (∃ t ∈ acc.tasks, t.nodeName = n) ∨
          ∃ pre o post, outputs = pre ++ o :: post ∧
            fallbackFor env.nodes env.fallbackMap
              (pre.foldl (fallbackStep base env.nodes env.fallbackMap) acc).handled o = some n := by
  intro outputs
  induction outputs with
  | nil => intro acc; simp
  | cons o os ih =>
    intro acc
    rw [List.foldl_cons, ih, mem_fallbackStep_iff, exists_split_cons
      (P := fun pre o => fallbackFor env.nodes env.fallbackMap
        (pre.foldl (fallbackStep base env.nodes env.fallbackMap) acc).handled o = some n), or_assoc]
    rfl

/-- A node is handled when an earlier output of it had its fallback scheduled. -/
theorem mem_foldl_fallbackStep_handled_iff (base : ℕ) (n : String) :
    ∀ (outputs : List (TaskOutput S)) (acc : FallbackTasks S),
      n ∈ (outputs.foldl (fallbackStep base env.nodes env.fallbackMap) acc).handled ↔
        n ∈ acc.handled ∨
          ∃ pre o post, outputs = pre ++ o :: post ∧ o.nodeName = n ∧
            (fallbackFor env.nodes env.fallbackMap
              (pre.foldl (fallbackStep base env.nodes env.fallbackMap) acc).handled o).isSome := by
  intro outputs
  induction outputs with
  | nil => intro acc; simp
  | cons o os ih =>
    intro acc
    rw [List.foldl_cons, ih, fallbackStep_handled, exists_split_cons
      (P := fun pre o => o.nodeName = n ∧ (fallbackFor env.nodes env.fallbackMap
        (pre.foldl (fallbackStep base env.nodes env.fallbackMap) acc).handled o).isSome), ← or_assoc]
    refine or_congr ?_ Iff.rfl
    simp only [List.foldl_nil]
    split_ifs with h
    · simp only [List.mem_insert_iff, h, and_true, @eq_comm _ o.nodeName]
      exact or_comm
    · simp [h]

theorem mem_fallbackHandled_iff (outputs : List (TaskOutput S)) (n : String) :
    n ∈ fallbackHandled env outputs ↔
      ∃ pre o post, outputs = pre ++ o :: post ∧ o.nodeName = n ∧
        (fallbackFor env.nodes env.fallbackMap (fallbackHandled env pre) o).isSome := by
  refine (mem_foldl_fallbackStep_handled_iff 0 n outputs {}).trans ?_
  simp only [List.not_mem_nil, false_or]
  rfl

omit [State S] in
theorem exists_mem_pullTasks_iff (base : ℕ) (names : List String) (n : String) :
    (∃ t ∈ (pullTasks base names : List (PendingTask S)), t.nodeName = n) ↔ n ∈ names := by
  simp only [pullTasks, List.mem_map]
  constructor
  · rintro ⟨_, ⟨p, hp, rfl⟩, rfl⟩
    exact (List.mem_zipIdx' hp).2 ▸ List.getElem_mem _
  · intro h
    obtain ⟨i, hi, rfl⟩ := List.getElem_of_mem h
    exact ⟨_, ⟨(names[i], i), List.mem_zipIdx_iff_getElem?.2 (List.getElem?_eq_getElem hi), rfl⟩,
      rfl⟩

theorem mem_scheduleErrorHandlersFromWrites_iff (base : ℕ) (outputs : List (TaskOutput S))
    (persisted : List PendingWrite) (n : String) :
    (∃ t ∈ (scheduleErrorHandlersFromWrites base persisted env.nodes env.errorHandlerMap
        ((outputs.filter fun o => o.error.isSome).map TaskOutput.nodeName) :
          List (PendingTask S)), t.nodeName = n) ↔
      n ∈ markerTargets env outputs persisted := by
  rw [scheduleErrorHandlersFromWrites, exists_mem_pullTasks_iff]
  simp only [List.mem_filterMap, List.mem_filter, List.mem_eraseDups, Bool.not_eq_true',
    List.contains_eq_mem, decide_eq_false_iff_not, List.mem_map, Option.filter_eq_some_iff, Dict.containsKey_iff]
  constructor
  · rintro ⟨m, ⟨hm, hnot⟩, hl, hn⟩
    exact ⟨m, hm, fun o ho he hne => hnot ⟨o, ⟨ho, he⟩, hne⟩, hl, hn⟩
  · rintro ⟨m, hm, hnot, hl, hn⟩
    exact ⟨m, ⟨hm, fun ⟨o, ⟨ho, he⟩, hne⟩ => hnot o ho he hne⟩, hl, hn⟩

theorem mem_iff_split {α : Type*} {a : α} {l : List α} :
    a ∈ l ↔ ∃ pre post, l = pre ++ a :: post := by
  constructor
  · exact List.append_of_mem
  · rintro ⟨pre, post, rfl⟩; simp

omit [State S] in
/-- The fallback tasks that survive the comparison with the routed tasks change nothing about which
nodes have a task. -/
theorem mem_append_filter_names_iff {l l' : List (PendingTask S)} {n : String} :
    n ∈ (l ++ l'.filter fun t => !(l.map PendingTask.nodeName).contains t.nodeName).map
        PendingTask.nodeName ↔
      n ∈ l.map PendingTask.nodeName ∨ n ∈ l'.map PendingTask.nodeName := by
  rw [List.map_append, List.mem_append]
  constructor
  · rintro (h | h)
    · exact .inl h
    · obtain ⟨t, ht, rfl⟩ := List.mem_map.1 h
      exact .inr (List.mem_map_of_mem (List.mem_of_mem_filter ht))
  · rintro (h | h)
    · exact .inl h
    · by_cases hn : n ∈ l.map PendingTask.nodeName
      · exact .inl hn
      · obtain ⟨t, ht, rfl⟩ := List.mem_map.1 h
        exact .inr (List.mem_map_of_mem (List.mem_filter.2 ⟨ht, by simpa using hn⟩))

/-- **Where the tasks of the next superstep come from**: the routing of an output, the recovery of
an output, or a persisted marker. -/
theorem mem_scheduleNext_iff {base : ℕ} {outputs : List (TaskOutput S)} {state : S}
    {persisted : List PendingWrite} {tasks : List (PendingTask S)}
    (h : scheduleNext env base outputs state persisted = .ok tasks) (n : String) :
    n ∈ tasks.map PendingTask.nodeName ↔
      (∃ pre o post, outputs = pre ++ o :: post ∧
        (n ∈ Routes env.table env.triggerToNodes state o ∨
          (recoveryFor env pre o post).1 = some n ∨ (recoveryFor env pre o post).2 = some n)) ∨
        n ∈ markerTargets env outputs persisted := by
  unfold scheduleNext at h
  split at h
  · cases h
  rename_i routed hrouted
  -- Three of the four lists that are appended; the one of the markers has its own lemma.
  have hA : n ∈ routed.map PendingTask.nodeName ↔
      ∃ pre o post, outputs = pre ++ o :: post ∧ n ∈ Routes env.table env.triggerToNodes state o := by
    rw [List.mem_map, mem_computeNextTasks_iff hrouted n]
    constructor
    · rintro ⟨o, ho, hn⟩
      obtain ⟨pre, post, rfl⟩ := mem_iff_split.1 ho
      exact ⟨pre, o, post, rfl, hn⟩
    · rintro ⟨pre, o, post, rfl, hn⟩
      exact ⟨o, by simp, hn⟩
  have hB : n ∈ (scheduleFallbackTasks (base + routed.length) outputs env.nodes
        env.fallbackMap).tasks.map PendingTask.nodeName ↔
      ∃ pre o post, outputs = pre ++ o :: post ∧ (recoveryFor env pre o post).1 = some n := by
    rw [List.mem_map]
    refine (mem_foldl_fallbackStep_iff (base + routed.length) n outputs {}).trans ?_
    simp only [List.not_mem_nil, false_and, exists_false, false_or]
    simp only [recoveryFor, ← scheduleFallbackTasks_handled (base + routed.length)]
    rfl
  have hC : ∀ base', n ∈ (scheduleErrorHandlersFiltered base' outputs env.nodes env.errorHandlerMap
        (scheduleFallbackTasks (base + routed.length) outputs env.nodes
          env.fallbackMap).handled).map PendingTask.nodeName ↔
      ∃ pre o post, outputs = pre ++ o :: post ∧ (recoveryFor env pre o post).2 = some n := by
    intro base'
    rw [scheduleFallbackTasks_handled, List.mem_map, scheduleErrorHandlersFiltered,
      exists_mem_pullTasks_iff, List.mem_filterMap]
    constructor
    · rintro ⟨o, ho, hn⟩
      obtain ⟨pre, post, rfl⟩ := mem_iff_split.1 ho
      exact ⟨pre, o, post, rfl, hn⟩
    · rintro ⟨pre, o, post, rfl, hn⟩
      exact ⟨o, by simp, hn⟩
  cases h
  rw [List.map_append, List.mem_append, List.mem_map (l := scheduleErrorHandlersFromWrites _ _ _ _ _),
    mem_scheduleErrorHandlersFromWrites_iff, List.map_append, List.mem_append,
    mem_append_filter_names_iff, hA, hB, hC]
  refine or_congr ?_ Iff.rfl
  simp only [and_or_left, exists_or, or_assoc]

/-- Only routing can make scheduling fail. -/
theorem scheduleNext_ok_iff {base : ℕ} {outputs : List (TaskOutput S)} {state : S}
    {persisted : List PendingWrite} :
    (∃ tasks, scheduleNext env base outputs state persisted = .ok tasks) ↔
      ∀ o ∈ outputs, ¬ RoutingFails env.table env.nodes state o := by
  have hrouted : (∃ tasks, computeNextTasks base outputs env.table env.triggerToNodes env.nodes
      state = .ok tasks) ↔ ∀ o ∈ outputs, ¬ RoutingFails env.table env.nodes state o :=
    computeNextTasks_ok_iff
  rw [← hrouted]
  unfold scheduleNext
  cases computeNextTasks base outputs env.table env.triggerToNodes env.nodes state with
  | error e => simp
  | ok routed => simp

/-- Failures on record that no handler is to see make no difference. -/
theorem scheduleNext_of_markerTargets {base : ℕ} {outputs : List (TaskOutput S)} {state : S}
    {persisted : List PendingWrite} (h : markerTargets env outputs persisted = ∅) :
    scheduleNext env base outputs state persisted = scheduleNext env base outputs state [] := by
  have hnil : ∀ base, scheduleErrorHandlersFromWrites base persisted env.nodes env.errorHandlerMap
      ((outputs.filter fun o => o.error.isSome).map TaskOutput.nodeName) =
        ([] : List (PendingTask S)) := by
    intro base
    refine List.eq_nil_iff_forall_not_mem.2 fun t ht => ?_
    have hmem := (mem_scheduleErrorHandlersFromWrites_iff base outputs persisted t.nodeName).1
      ⟨t, ht, rfl⟩
    rw [h] at hmem
    exact hmem
  unfold scheduleNext
  simp only [hnil]
  rfl

/-- Nothing is scheduled exactly when nothing asks for a task. -/
theorem scheduleNext_eq_nil_iff {base : ℕ} {outputs : List (TaskOutput S)} {state : S}
    {persisted : List PendingWrite} {tasks : List (PendingTask S)}
    (h : scheduleNext env base outputs state persisted = .ok tasks) :
    tasks = [] ↔
      (∀ pre o post, outputs = pre ++ o :: post →
        Routes env.table env.triggerToNodes state o = ∅ ∧
          recoveryFor env pre o post = (none, none)) ∧
        markerTargets env outputs persisted = ∅ := by
  have hmem := mem_scheduleNext_iff h
  have hnil : tasks = [] ↔ ∀ n, n ∉ tasks.map PendingTask.nodeName := by
    rw [← List.eq_nil_iff_forall_not_mem, List.map_eq_nil_iff]
  rw [hnil]
  simp only [hmem, not_or, not_exists, not_and]
  constructor
  · intro hno
    refine ⟨fun pre o post hsplit => ⟨?_, ?_⟩, ?_⟩
    · exact Set.eq_empty_iff_forall_notMem.2 fun n => ((hno n).1 pre o post hsplit).1
    · refine Prod.ext ?_ ?_
      · exact Option.eq_none_iff_forall_ne_some.2 fun n => ((hno n).1 pre o post hsplit).2.1
      · exact Option.eq_none_iff_forall_ne_some.2 fun n => ((hno n).1 pre o post hsplit).2.2
    · exact Set.eq_empty_iff_forall_notMem.2 fun n => (hno n).2
  · rintro ⟨hroutes, hmarkers⟩ n
    refine ⟨fun pre o post hsplit => ?_, by rw [hmarkers]; exact Set.notMem_empty n⟩
    obtain ⟨hr, hrec⟩ := hroutes pre o post hsplit
    rw [hr, hrec]
    simp

end Spec

end Juncture
