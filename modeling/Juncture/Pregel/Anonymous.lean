import Juncture.Lib.ExceptFold
import Juncture.Lib.KeyedMerge
import Juncture.Pregel.Recovery
import Juncture.Pregel.Writes

/-!
# Identifiers do not matter

Tasks and outputs carry an identifier, drawn anew in every run.  Neither merging nor scheduling looks
at it: on two batches that differ in the identifiers only, the merge order is the same, and so are
the next tasks, up to identifiers (`scheduleNext_anon`).  Outputs that do not send lead to one plain
task for each of some nodes (`pulls_computeNextTasks`).
-/

namespace Juncture

variable {S : Type} [State S]

/-- The task without its identifier. -/
def PendingTask.anon {S : Type} (t : PendingTask S) : PendingTask S := { t with id := 0 }

theorem PendingTask.anon_eq_iff {S : Type} {t t' : PendingTask S} :
    t.anon = t'.anon ↔ t.nodeName = t'.nodeName ∧ t.trigger = t'.trigger ∧
      t.stateOverride = t'.stateOverride ∧ t.stateJson = t'.stateJson := by
  simp [anon]

/-- The output without the identifier of its task. -/
def TaskOutput.anon (o : TaskOutput S) : TaskOutput S := { o with taskId := 0 }

/-- The batches differ in the identifiers only. -/
def SameOutputs (os os' : List (TaskOutput S)) : Prop :=
  os.map TaskOutput.anon = os'.map TaskOutput.anon

/-- The result without the identifiers of its tasks. -/
def SuperstepResult.anon (r : SuperstepResult S) : SuperstepResult S :=
  { r with taskOutputs := r.taskOutputs.map TaskOutput.anon }

theorem SuperstepResult.anon_eq_iff {a b : SuperstepResult S} :
    a.anon = b.anon ↔ SameOutputs a.taskOutputs b.taskOutputs ∧ a.bubbleUps = b.bubbleUps := by
  unfold anon SameOutputs
  rw [SuperstepResult.mk.injEq]

/-- The tasks differ in the identifiers only. -/
def SameTasks {S : Type} (ts ts' : List (PendingTask S)) : Prop :=
  ts.map PendingTask.anon = ts'.map PendingTask.anon

section Outputs

variable {os os' : List (TaskOutput S)}

/-- What is computed from an output without its identifier is the same for both batches. -/
theorem SameOutputs.map_eq {α : Type*} (h : SameOutputs os os') {f : TaskOutput S → α}
    (hf : ∀ o, f o.anon = f o) : os.map f = os'.map f := by
  have hcomp : f ∘ TaskOutput.anon = f := funext hf
  have h := congrArg (List.map f) h
  rwa [List.map_map, List.map_map, hcomp] at h

theorem SameOutputs.filterMap_eq {α : Type*} (h : SameOutputs os os')
    {f : TaskOutput S → Option α} (hf : ∀ o, f o.anon = f o) : os.filterMap f = os'.filterMap f := by
  have hcomp : f ∘ TaskOutput.anon = f := funext hf
  have h := congrArg (List.filterMap f) h
  rwa [List.filterMap_map, List.filterMap_map, hcomp] at h

theorem SameOutputs.filter (h : SameOutputs os os') {p : TaskOutput S → Bool}
    (hp : ∀ o, p o.anon = p o) : SameOutputs (os.filter p) (os'.filter p) := by
  have hcomp : p ∘ TaskOutput.anon = p := funext hp
  have h := congrArg (List.filter p) h
  rwa [List.filter_map, List.filter_map, hcomp] at h

theorem SameOutputs.executed (h : SameOutputs os os') :
    SameOutputs (executedOutputs os) (executedOutputs os') := by
  have hfilter : SameOutputs (os.filter fun o => !o.circuitBlocked)
      (os'.filter fun o => !o.circuitBlocked) := h.filter fun _ => rfl
  have hclone := congrArg (List.map TaskOutput.clone) hfilter
  unfold SameOutputs executedOutputs
  rw [List.map_map, List.map_map] at hclone ⊢
  exact hclone

/-- The merge order does not depend on the identifiers. -/
theorem SameOutputs.mergedUpdates_eq (h : SameOutputs os os') (nodeRegistration : Dict ℕ) :
    mergedUpdates nodeRegistration os = mergedUpdates nodeRegistration os' := by
  have hsort : ∀ os : List (TaskOutput S),
      (KeyedMerge.sortByKey MergeKey.le (outputKey nodeRegistration) os).map TaskOutput.anon =
        KeyedMerge.sortByKey MergeKey.le (outputKey nodeRegistration) (os.map TaskOutput.anon) :=
    fun os => List.map_insertionSort _ _ TaskOutput.anon os fun a _ b _ => Iff.rfl
  have hsame : SameOutputs (KeyedMerge.sortByKey MergeKey.le (outputKey nodeRegistration) os)
      (KeyedMerge.sortByKey MergeKey.le (outputKey nodeRegistration) os') := by
    unfold SameOutputs
    rw [hsort, hsort, h]
  exact hsame.filterMap_eq fun o => rfl

/-- The conflict check names the nodes, not the tasks. -/
theorem SameOutputs.checkReplaceConflicts_eq (h : SameOutputs os os') :
    checkReplaceConflicts os = checkReplaceConflicts os' := by
  have hwriters : fieldWriters os = fieldWriters os' := by
    funext i
    have hfilter : SameOutputs
        (os.filter fun o => o.command.update.any fun u => State.fieldIsSet u i)
        (os'.filter fun o => o.command.update.any fun u => State.fieldIsSet u i) :=
      h.filter fun _ => rfl
    exact hfilter.map_eq fun _ => rfl
  unfold checkReplaceConflicts
  rw [hwriters]

/-- Merging leaves the same behind, and fails alike. -/
theorem SameOutputs.applyWrites_eq (h : SameOutputs os os') (state : S)
    (fieldVersions : FieldVersionTracker) (nodeRegistration : Dict ℕ) :
    applyWrites state os fieldVersions nodeRegistration =
      applyWrites state os' fieldVersions nodeRegistration := by
  unfold applyWrites
  rw [h.checkReplaceConflicts_eq, h.mergedUpdates_eq]

end Outputs

/-! ### Scheduling -/

/-- The accumulator of `computeNextTasks` without the identifiers. -/
def NextTasks.shape {S : Type} (acc : NextTasks S) : List (PendingTask S) × List String :=
  (acc.tasks.map PendingTask.anon, acc.seenNodes)

section Routing

variable {acc acc' : NextTasks S} (base base' : ℕ)

omit [State S] in
theorem shape_pushPull (h : acc.shape = acc'.shape) (target : String) :
    (acc.pushPull base target).shape = (acc'.pushPull base' target).shape := by
  obtain ⟨ht, hs⟩ := Prod.mk.inj h
  cases hc : acc'.seenNodes.contains target with
  | true =>
    have hc' : acc.seenNodes.contains target = true := by rw [hs, hc]
    rw [NextTasks.pushPull, if_pos hc', NextTasks.pushPull, if_pos hc, h]
  | false =>
    have hc' : ¬ acc.seenNodes.contains target = true := by rw [hs, hc]; simp
    rw [NextTasks.pushPull, if_neg hc', NextTasks.pushPull, if_neg (by rw [hc]; simp)]
    simp only [NextTasks.shape, List.map_append, ht, hs]
    rfl

omit [State S] in
theorem shape_pushSend (h : acc.shape = acc'.shape) (p : SendTarget × ℕ) :
    (acc.pushSend base p).shape = (acc'.pushSend base' p).shape := by
  obtain ⟨ht, hs⟩ := Prod.mk.inj h
  simp only [NextTasks.pushSend, NextTasks.shape, List.map_append, ht, hs]
  rfl

theorem shape_processLabel (nodes : Dict (Node S)) (fromNode : String) (pathMap : PathMap)
    (h : acc.shape = acc'.shape) (label : String) :
    (processLabel base nodes fromNode pathMap acc label).map NextTasks.shape =
      (processLabel base' nodes fromNode pathMap acc' label).map NextTasks.shape := by
  unfold processLabel
  split_ifs
  · rfl
  · exact congrArg Except.ok (shape_pushPull base base' h _)
  · exact congrArg Except.ok h

theorem shape_processEdge (state : S) (nodes : Dict (Node S)) (triggered : List String)
    (fromNode : String) (h : acc.shape = acc'.shape) (e : CompiledEdge S) :
    (processEdge base state nodes triggered fromNode acc e).map NextTasks.shape =
      (processEdge base' state nodes triggered fromNode acc' e).map NextTasks.shape := by
  cases e with
  | fixed target =>
    refine congrArg Except.ok ?_
    split_ifs
    · exact shape_pushPull base base' h target
    · exact h
  | conditional router pathMap =>
    simp only [processEdge]
    cases router state with
    | error e => rfl
    | ok route =>
      exact ExceptFold.map_foldlM_congr
        (fun a b label hab => shape_processLabel base base' nodes fromNode pathMap hab label) h

theorem shape_routeOutput (table : TriggerTable S) (triggerToNodes : TriggerToNodes)
    (nodes : Dict (Node S)) (state : S) (h : acc.shape = acc'.shape) (o : TaskOutput S) :
    (routeOutput base table triggerToNodes nodes state acc o).map NextTasks.shape =
      (routeOutput base' table triggerToNodes nodes state acc' o).map NextTasks.shape := by
  unfold routeOutput
  cases o.command.goto with
  | none =>
    exact ExceptFold.map_foldlM_congr
      (fun a b e hab => shape_processEdge base base' state nodes _ o.nodeName hab e) h
  | next target => exact congrArg Except.ok (shape_pushPull base base' h target)
  | multiple targets =>
    refine congrArg Except.ok (List.foldl_rel (r := fun a b : NextTasks S => a.shape = b.shape) h ?_)
    exact fun target _ a b hab => shape_pushPull base base' hab target
  | send targets =>
    refine congrArg Except.ok (List.foldl_rel (r := fun a b : NextTasks S => a.shape = b.shape) h ?_)
    exact fun p _ a b hab => shape_pushSend base base' hab p
  | «end» => exact congrArg Except.ok h

/-- The routed tasks are the same up to identifiers, and so is a routing error. -/
theorem computeNextTasks_anon {os os' : List (TaskOutput S)} (h : SameOutputs os os')
    (table : TriggerTable S) (triggerToNodes : TriggerToNodes) (nodes : Dict (Node S)) (state : S) :
    (computeNextTasks base os table triggerToNodes nodes state).map (List.map PendingTask.anon) =
      (computeNextTasks base' os' table triggerToNodes nodes state).map
        (List.map PendingTask.anon) := by
  have hfold : ∀ (base : ℕ) (os : List (TaskOutput S)),
      os.foldlM (routeOutput base table triggerToNodes nodes state) NextTasks.empty =
        (os.map TaskOutput.anon).foldlM (routeOutput base table triggerToNodes nodes state)
          NextTasks.empty := by
    intro base os
    rw [List.foldlM_map]
    rfl
  have hshape := ExceptFold.map_foldlM_congr
    (fun a b o hab => shape_routeOutput base base' table triggerToNodes nodes state hab o)
    (l := os.map TaskOutput.anon) (b := NextTasks.empty) (c := NextTasks.empty) rfl
  unfold computeNextTasks
  rw [hfold base os, hfold base' os', ← (h : os.map TaskOutput.anon = os'.map TaskOutput.anon)]
  rcases hf : (os.map TaskOutput.anon).foldlM (routeOutput base table triggerToNodes nodes state)
      NextTasks.empty with e | acc <;>
    rcases hg : (os.map TaskOutput.anon).foldlM
      (routeOutput base' table triggerToNodes nodes state) NextTasks.empty with e' | acc' <;>
    rw [hf, hg] at hshape
  · cases hshape
    rfl
  · cases hshape
  · cases hshape
  · exact congrArg (Except.map Prod.fst) hshape

/-! ### Recovery -/

omit [State S] in
theorem map_anon_pullTasks (names : List String) :
    (pullTasks base names : List (PendingTask S)).map PendingTask.anon = names.map (.pull 0) := by
  unfold pullTasks
  rw [List.map_map]
  conv_rhs => rw [← List.zipIdx_map_fst 0 names, List.map_map]
  rfl

/-- The accumulator of `scheduleFallbackTasks` without the identifiers. -/
def FallbackTasks.shape {S : Type} (acc : FallbackTasks S) : List (PendingTask S) × List String :=
  (acc.tasks.map PendingTask.anon, acc.handled)

theorem shape_scheduleFallbackTasks {os os' : List (TaskOutput S)} (h : SameOutputs os os')
    (nodes : Dict (Node S)) (fallbackMap : Dict String) :
    (scheduleFallbackTasks base os nodes fallbackMap).shape =
      (scheduleFallbackTasks base' os' nodes fallbackMap).shape := by
  have hfold : ∀ (base : ℕ) (os : List (TaskOutput S)),
      scheduleFallbackTasks base os nodes fallbackMap =
        scheduleFallbackTasks base (os.map TaskOutput.anon) nodes fallbackMap := by
    intro base os
    unfold scheduleFallbackTasks
    rw [List.foldl_map]
    rfl
  rw [hfold base os, hfold base' os', ← (h : os.map TaskOutput.anon = os'.map TaskOutput.anon)]
  refine List.foldl_rel (r := fun a b : FallbackTasks S => a.shape = b.shape) rfl ?_
  intro o _ acc acc' hacc
  obtain ⟨ht, hs⟩ := Prod.mk.inj hacc
  unfold fallbackStep
  rw [hs]
  cases fallbackFor nodes fallbackMap acc'.handled o with
  | none => exact hacc
  | some fallback =>
    simp only [FallbackTasks.shape, List.map_append, ht]
    rfl

omit [State S] in
theorem map_nodeName_anon (ts : List (PendingTask S)) :
    (ts.map PendingTask.anon).map PendingTask.nodeName = ts.map PendingTask.nodeName := by
  rw [List.map_map]
  rfl

/-- **The next tasks do not depend on the identifiers** of the outputs, nor on where new identifiers
start. -/
theorem scheduleNext_anon {os os' : List (TaskOutput S)} (h : SameOutputs os os')
    (env : ScheduleEnv S) (state : S) (persisted : List PendingWrite) :
    (scheduleNext env base os state persisted).map (List.map PendingTask.anon) =
      (scheduleNext env base' os' state persisted).map (List.map PendingTask.anon) := by
  have hnext := computeNextTasks_anon base base' h env.table env.triggerToNodes env.nodes state
  unfold scheduleNext
  rcases hf : computeNextTasks base os env.table env.triggerToNodes env.nodes state with e | ts <;>
    rcases hg : computeNextTasks base' os' env.table env.triggerToNodes env.nodes state with
      e' | ts' <;>
    rw [hf, hg] at hnext
  · cases hnext
    rfl
  · cases hnext
  · cases hnext
  · have hts : ts.map PendingTask.anon = ts'.map PendingTask.anon := Except.ok.inj hnext
    have hnames : ts.map PendingTask.nodeName = ts'.map PendingTask.nodeName := by
      rw [← map_nodeName_anon ts, hts, map_nodeName_anon]
    obtain ⟨hfallback, hhandled⟩ := Prod.mk.inj
      (shape_scheduleFallbackTasks (base + ts.length) (base' + ts'.length) h env.nodes
        env.fallbackMap)
    have hfilter : ∀ (p : String → Bool) (us : List (PendingTask S)),
        (us.filter fun t => p t.nodeName).map PendingTask.anon =
          (us.map PendingTask.anon).filter fun t => p t.nodeName := by
      intro p us
      rw [List.filter_map]
      rfl
    have herrors : (os.filter fun o => o.error.isSome).map TaskOutput.nodeName =
        (os'.filter fun o => o.error.isSome).map TaskOutput.nodeName := by
      have hfailed : SameOutputs (os.filter fun o => o.error.isSome)
        (os'.filter fun o => o.error.isSome) := h.filter fun _ => rfl
      exact hfailed.map_eq fun _ => rfl
    refine congrArg Except.ok ?_
    simp only [List.map_append, scheduleErrorHandlersFiltered, scheduleErrorHandlersFromWrites,
      map_anon_pullTasks, hnames, hts, herrors, hhandled]
    rw [hfilter (fun n => !(ts'.map PendingTask.nodeName).contains n),
      hfilter (fun n => !(ts'.map PendingTask.nodeName).contains n), hfallback,
      h.filterMap_eq fun _ => rfl]

end Routing

/-! ### Tasks of a superstep that does not send -/

/-- The task is the plain task of a node. -/
def PendingTask.Plain (t : PendingTask S) : Prop := t.anon = .pull 0 t.nodeName

omit [State S] in
/-- It has no state of its own. -/
theorem PendingTask.Plain.fields {t : PendingTask S} (h : t.Plain) :
    t.trigger = .pull ∧ t.stateOverride = none ∧ t.stateJson = none :=
  ⟨congrArg trigger h, congrArg stateOverride h, congrArg stateJson h⟩

namespace NextTasks

variable {base : ℕ} {acc acc' : NextTasks S}

/-- The nodes of the tasks differ, and none of them was sent. -/
structure Pulls (acc : NextTasks S) : Prop where
  plain : ∀ t ∈ acc.tasks, t.Plain
  names : acc.tasks.map PendingTask.nodeName = acc.seenNodes.reverse
  nodup : acc.seenNodes.Nodup

omit [State S] in
theorem pulls_empty : (empty : NextTasks S).Pulls where
  plain t h := by cases h
  names := rfl
  nodup := .nil

omit [State S] in
theorem Pulls.pushPull (h : acc.Pulls) (target : String) : (acc.pushPull base target).Pulls := by
  unfold NextTasks.pushPull
  split_ifs with hseen
  · exact h
  · refine ⟨fun t ht => ?_, ?_, List.nodup_cons.2 ⟨by simpa using hseen, h.nodup⟩⟩
    · obtain ht | ht := List.mem_append.1 ht
      · exact h.plain t ht
      · obtain rfl := List.mem_singleton.1 ht
        rfl
    · simp only [List.map_append, h.names, List.map_cons, List.map_nil, List.reverse_cons,
        PendingTask.pull]

theorem Pulls.processEdge (h : acc.Pulls) {state : S} {nodes : Dict (Node S)}
    {triggered : List String} {fromNode : String} {edge : CompiledEdge S}
    (he : processEdge base state nodes triggered fromNode acc edge = .ok acc') : acc'.Pulls := by
  cases edge with
  | fixed target =>
    simp only [Juncture.processEdge, Except.ok.injEq] at he
    subst he
    split_ifs
    · exact h.pushPull target
    · exact h
  | conditional router pathMap =>
    simp only [Juncture.processEdge] at he
    cases hroute : router state with
    | error e =>
      rw [hroute] at he
      cases he
    | ok route =>
      rw [hroute] at he
      refine ExceptFold.foldlM_invariant (I := Pulls) (fun b label c hc hb => ?_) he h
      unfold processLabel at hc
      split_ifs at hc
      · cases hc
        exact hb.pushPull _
      · cases hc
        exact hb

theorem Pulls.routeOutput (h : acc.Pulls) {table : TriggerTable S} {triggerToNodes : TriggerToNodes}
    {nodes : Dict (Node S)} {state : S} {o : TaskOutput S} (ho : ∀ ts, o.command.goto ≠ .send ts)
    (hr : routeOutput base table triggerToNodes nodes state acc o = .ok acc') : acc'.Pulls := by
  unfold Juncture.routeOutput at hr
  cases hgoto : o.command.goto with
  | none =>
    rw [hgoto] at hr
    exact ExceptFold.foldlM_invariant (I := Pulls) (fun _ _ _ hc hb => hb.processEdge hc) hr h
  | next target =>
    rw [hgoto] at hr
    cases hr
    exact h.pushPull target
  | multiple targets =>
    rw [hgoto] at hr
    cases hr
    exact ExceptFold.foldl_invariant (I := Pulls) (fun _ target _ hb => hb.pushPull target) h
  | send targets => exact absurd hgoto (ho targets)
  | «end» =>
    rw [hgoto] at hr
    cases hr
    exact h

end NextTasks

/-- The tasks that come after outputs which do not send. -/
theorem pulls_computeNextTasks {base : ℕ} {os : List (TaskOutput S)} {table : TriggerTable S}
    {triggerToNodes : TriggerToNodes} {nodes : Dict (Node S)} {state : S}
    {tasks : List (PendingTask S)} (hos : ∀ o ∈ os, ∀ ts, o.command.goto ≠ .send ts)
    (h : computeNextTasks base os table triggerToNodes nodes state = .ok tasks) :
    (∀ t ∈ tasks, t.Plain) ∧ (tasks.map PendingTask.nodeName).Nodup := by
  unfold computeNextTasks at h
  split at h
  · cases h
  · rename_i acc hacc
    cases h
    have hpulls : acc.Pulls := ExceptFold.foldlM_all (I := fun _ acc => acc.Pulls)
      (fun _ _ _ o ho hc hb => hb.routeOutput (hos o ho) hc) hacc NextTasks.pulls_empty
    exact ⟨hpulls.plain, by rw [hpulls.names]; exact List.nodup_reverse.2 hpulls.nodup⟩

omit [State S] in
/-- Plain tasks are those of their nodes, up to identifiers. -/
theorem map_anon_of_plain {ts : List (PendingTask S)} (h : ∀ t ∈ ts, t.Plain) :
    ts.map PendingTask.anon = (ts.map PendingTask.nodeName).map (PendingTask.pull 0) := by
  rw [List.map_map]
  exact List.map_congr_left h

end Juncture
