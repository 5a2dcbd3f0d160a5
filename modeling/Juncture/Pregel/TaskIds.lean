import Juncture.Pregel.Frames

/-!
# Task identifiers

The tasks of a superstep have pairwise different identifiers: each batch of tasks that scheduling
puts together draws them one after the other.

* `nodup_ids_scheduleNext` : the tasks of the next superstep.
* `nodup_ids_head` : those pending at any head of a run.
-/

namespace Juncture

variable {S : Type} [State S]

/-- The identifiers of the tasks are drawn one after the other from `base` on. -/
def Numbered (base : ℕ) (tasks : List (PendingTask S)) : Prop :=
  tasks.map PendingTask.id = List.range' base tasks.length

omit [State S] in
theorem Numbered.nil (base : ℕ) : Numbered base ([] : List (PendingTask S)) := rfl

omit [State S] in
theorem Numbered.snoc {base : ℕ} {tasks : List (PendingTask S)} {task : PendingTask S}
    (h : Numbered base tasks) (hid : task.id = base + tasks.length) :
    Numbered base (tasks ++ [task]) := by
  unfold Numbered at h ⊢
  rw [List.map_append, h, List.map_singleton, hid, List.length_append, List.length_singleton,
    List.range'_concat, Nat.one_mul]

omit [State S] in
theorem Numbered.append {base : ℕ} {tasks tasks' : List (PendingTask S)} (h : Numbered base tasks)
    (h' : Numbered (base + tasks.length) tasks') : Numbered base (tasks ++ tasks') := by
  unfold Numbered at h h' ⊢
  rw [List.map_append, h, h', List.length_append, List.range'_append_1]

omit [State S] in
theorem numbered_pullTasks (base : ℕ) (names : List String) :
    Numbered base (pullTasks base names : List (PendingTask S)) := by
  unfold Numbered pullTasks
  refine List.ext_getElem (by simp) fun i h₁ h₂ => ?_
  simp [PendingTask.pull]

/-! ### Routed tasks -/

omit [State S] in
theorem numbered_pushPull {base : ℕ} {acc : NextTasks S} (h : Numbered base acc.tasks)
    (target : String) : Numbered base (acc.pushPull base target).tasks := by
  unfold NextTasks.pushPull
  split_ifs
  · exact h
  · exact h.snoc rfl

theorem numbered_routeOutput {base : ℕ} {table : TriggerTable S} {triggerToNodes : TriggerToNodes}
    {nodes : Dict (Node S)} {state : S} {acc c : NextTasks S} {o : TaskOutput S}
    (hc : routeOutput base table triggerToNodes nodes state acc o = .ok c)
    (h : Numbered base acc.tasks) : Numbered base c.tasks := by
  unfold routeOutput at hc
  cases hg : o.command.goto with
  | none =>
    rw [hg] at hc
    refine ExceptFold.foldlM_invariant (I := fun acc => Numbered base acc.tasks) ?_ hc h
    intro acc e c he hacc
    cases e with
    | fixed target =>
      simp only [processEdge] at he
      cases he
      split_ifs
      · exact numbered_pushPull hacc target
      · exact hacc
    | conditional router pathMap =>
      simp only [processEdge] at he
      split at he
      · cases he
      · refine ExceptFold.foldlM_invariant (I := fun acc => Numbered base acc.tasks) ?_ he hacc
        intro acc label c hlabel hacc
        unfold processLabel at hlabel
        split_ifs at hlabel <;> cases hlabel
        · exact numbered_pushPull hacc _
        · exact hacc
  | next target =>
    rw [hg] at hc
    cases hc
    exact numbered_pushPull h target
  | multiple targets =>
    rw [hg] at hc
    cases hc
    exact ExceptFold.foldl_invariant (I := fun acc : NextTasks S => Numbered base acc.tasks)
      (fun acc target _ hacc => numbered_pushPull hacc target) h
  -- `Send` is not deduplicated; its tasks are numbered like the others.
  | send targets =>
    rw [hg] at hc
    cases hc
    exact ExceptFold.foldl_invariant (I := fun acc : NextTasks S => Numbered base acc.tasks)
      (fun acc p _ hacc => hacc.snoc rfl) h
  | «end» =>
    rw [hg] at hc
    cases hc
    exact h

theorem numbered_computeNextTasks {base : ℕ} {table : TriggerTable S}
    {triggerToNodes : TriggerToNodes} {nodes : Dict (Node S)} {state : S}
    {completed : List (TaskOutput S)} {tasks : List (PendingTask S)}
    (h : computeNextTasks base completed table triggerToNodes nodes state = .ok tasks) :
    Numbered base tasks := by
  unfold computeNextTasks at h
  split at h
  · cases h
  · rename_i acc hacc
    cases h
    exact ExceptFold.foldlM_invariant (I := fun acc : NextTasks S => Numbered base acc.tasks)
      (fun _ _ _ => numbered_routeOutput) hacc (.nil base)

/-! ### All of the next tasks -/

theorem numbered_scheduleFallbackTasks (base : ℕ) (outputs : List (TaskOutput S))
    (nodes : Dict (Node S)) (fallbackMap : Dict String) :
    Numbered base (scheduleFallbackTasks base outputs nodes fallbackMap).tasks := by
  refine ExceptFold.foldl_invariant (I := fun acc : FallbackTasks S => Numbered base acc.tasks)
    (fun acc o _ hacc => ?_) (.nil base)
  unfold fallbackStep
  split
  · exact hacc
  · exact hacc.snoc rfl

/-- **The tasks of the next superstep have different identifiers.** -/
theorem nodup_ids_scheduleNext {env : ScheduleEnv S} {base : ℕ} {outputs : List (TaskOutput S)}
    {state : S} {persisted : List PendingWrite} {tasks : List (PendingTask S)}
    (h : scheduleNext env base outputs state persisted = .ok tasks) :
    (tasks.map PendingTask.id).Nodup := by
  unfold scheduleNext at h
  split at h
  · cases h
  rename_i routed hrouted
  cases h
  -- With the fallback tasks that are left out again, the four batches are numbered through.
  have hfallback := numbered_scheduleFallbackTasks (base + routed.length) outputs env.nodes
    env.fallbackMap
  generalize scheduleFallbackTasks (base + routed.length) outputs env.nodes env.fallbackMap =
    fallback at hfallback ⊢
  have hhandlers : Numbered (base + routed.length + fallback.tasks.length)
      (scheduleErrorHandlersFiltered (base + routed.length + fallback.tasks.length) outputs
        env.nodes env.errorHandlerMap fallback.handled) := numbered_pullTasks _ _
  generalize scheduleErrorHandlersFiltered (base + routed.length + fallback.tasks.length) outputs
    env.nodes env.errorHandlerMap fallback.handled = handlers at hhandlers ⊢
  have hwrites : Numbered (base + routed.length + fallback.tasks.length + handlers.length)
      (scheduleErrorHandlersFromWrites (base + routed.length + fallback.tasks.length +
        handlers.length) persisted env.nodes env.errorHandlerMap
          ((outputs.filter fun o => o.error.isSome).map TaskOutput.nodeName)) :=
    numbered_pullTasks _ _
  generalize scheduleErrorHandlersFromWrites (base + routed.length + fallback.tasks.length +
    handlers.length) persisted env.nodes env.errorHandlerMap
      ((outputs.filter fun o => o.error.isSome).map TaskOutput.nodeName) = fromWrites at hwrites ⊢
  have hall : Numbered base (routed ++ fallback.tasks ++ handlers ++ fromWrites) := by
    refine (((numbered_computeNextTasks hrouted).append hfallback).append ?_).append ?_
    · rw [List.length_append, ← Nat.add_assoc]
      exact hhandlers
    · simp only [List.length_append, ← Nat.add_assoc]
      exact hwrites
  have hnodup : ((routed ++ fallback.tasks ++ handlers ++ fromWrites).map PendingTask.id).Nodup := by
    rw [hall]
    exact List.nodup_range'
  refine hnodup.sublist (List.Sublist.map _ ?_)
  exact ((List.Sublist.refl routed).append List.filter_sublist).append_right _ |>.append_right _

/-! ### Along a run -/

namespace PregelLoop

variable {σ : Type} {l l' l₀ t : PregelLoop S σ} [InterruptHash]

theorem nodup_ids_afterTick {result : SuperstepResult S} (h : l.afterTick result = (l', .ok ())) :
    (l'.pendingTasks.map PendingTask.id).Nodup := by
  obtain ⟨tasks, htasks, hcourse⟩ := afterTick_course h
  have hpending : l'.pendingTasks = tasks := by
    obtain ⟨-, hcourse⟩ | ⟨-, hcourse⟩ := hcourse
    · exact congrArg Course.pendingTasks hcourse
    · exact congrArg Course.pendingTasks hcourse
  rw [hpending]
  exact nodup_ids_scheduleNext htasks

/-- **The pending tasks have different identifiers**, at every head of a run. -/
theorem nodup_ids_head {rounds : ℕ → Round S} {n : ℕ}
    (h₀ : (l₀.pendingTasks.map PendingTask.id).Nodup) (h : l₀.head rounds n = some t) :
    (t.pendingTasks.map PendingTask.id).Nodup := by
  refine Machine.trace_invariant
    (I := fun _ t => (t.pendingTasks.map PendingTask.id).Nodup) h₀ ?_ h
  intro n t u _ _ hturn
  obtain ⟨l₁, result, -, ha⟩ := turn_eq_some_iff.1 hturn
  exact nodup_ids_afterTick ha

omit [InterruptHash] in
theorem nodup_ids_withErrorHandlers (state : S) (nodes : Dict (Node S)) (table : TriggerTable S)
    (config : RunnableConfig) (numFields : ℕ) (errorHandlerMap : Dict String) (store : σ)
    (nextUuid : Uuid) :
    ((withErrorHandlers state nodes table config numFields errorHandlerMap store
      nextUuid).pendingTasks.map PendingTask.id).Nodup := by
  have hnumbered : Numbered (nextUuid + 1) (computeInitialTasks (nextUuid + 1) table) :=
    numbered_pullTasks _ _
  show ((computeInitialTasks (nextUuid + 1) table).map PendingTask.id).Nodup
  rw [hnumbered]
  exact List.nodup_range'

end PregelLoop

end Juncture
