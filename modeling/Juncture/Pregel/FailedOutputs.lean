import Juncture.Core.Transcript
import Juncture.Pregel.Recovery

/-!
# What a failed task schedules

A failed task should lead to its recovery task and to nothing else: the node did not do its work, so
its outgoing edges should not be followed.  But the runner records the failure as an output with the
default command, and `Goto::None` means *follow the edges*.

`failuresRecover_iff` says when the failures of a superstep schedule their recovery tasks and nothing
else, in every completion order: the edges of the failed nodes lead nowhere, the fallbacks are
registered, are not the failed node and are not part of a fallback cycle, and the error handlers are
registered.
-/

namespace Juncture

variable {S : Type} [State S]

/-- The recovery configured for the node of an output: the fallback, else the error handler. -/
def recoveryTarget (env : ScheduleEnv S) (o : TaskOutput S) : Option String :=
  (env.fallbackMap.lookup o.nodeName).or (env.errorHandlerMap.lookup o.nodeName)

/-- What the runner guarantees of the failures it reports: they carry the default command, and their
node has a fallback or an error handler (any other failure aborts the superstep). -/
def RunnerFailures (env : ScheduleEnv S) (outputs : List (TaskOutput S)) : Prop :=
  ∀ o ∈ outputs, Failed o → o.command = .default ∧ (recoveryTarget env o).isSome = true

/-- The failed output `o`, which completed after `pre` and before `post`, leads to its recovery task
and to nothing else. -/
structure RecoversOnly (env : ScheduleEnv S) (state : S) (pre : List (TaskOutput S))
    (o : TaskOutput S) (post : List (TaskOutput S)) : Prop where
  /-- Its edges do not make scheduling fail. -/
  noError : ¬ RoutingFails env.table env.nodes state o
  /-- Its edges are not followed. -/
  noRoute : ∀ n, n ∉ Routes env.table env.triggerToNodes state o
  /-- Its fallback is scheduled, if one is configured. -/
  fallback : (recoveryFor env pre o post).1 = env.fallbackMap.lookup o.nodeName
  /-- Its error handler is scheduled, if no fallback is configured. -/
  handler : (recoveryFor env pre o post).2 =
    if (env.fallbackMap.lookup o.nodeName).isSome then none
    else env.errorHandlerMap.lookup o.nodeName

/-- In every completion order, each failure leads to its recovery task only, so that a task is
scheduled only because a successful output routes to its node, because it is the recovery of a
failure, or because of a marker that an earlier run persisted. -/
def FailuresRecover (env : ScheduleEnv S) (outputs : List (TaskOutput S)) (state : S) : Prop :=
  ∀ outputs', outputs.Perm outputs' →
    (∀ pre o post, outputs' = pre ++ o :: post → Failed o → RecoversOnly env state pre o post) ∧
    ∀ base persisted tasks, scheduleNext env base outputs' state persisted = .ok tasks →
      ∀ t ∈ tasks,
        (∃ o ∈ outputs, ¬ Failed o ∧ t.nodeName ∈ Routes env.table env.triggerToNodes state o) ∨
        (∃ o ∈ outputs, Failed o ∧ recoveryTarget env o = some t.nodeName) ∨
        t.nodeName ∈ markerTargets env outputs' persisted

/-- The condition under which the failures of a superstep recover. -/
structure RecoveryClean (env : ScheduleEnv S) (outputs : List (TaskOutput S)) (state : S) :
    Prop where
  /-- The edges of a failed node lead nowhere. -/
  edges : ∀ o ∈ outputs, Failed o → ∀ e ∈ env.table.edgesOf o.nodeName,
    ¬ edgeFails env.nodes state e ∧ ∀ n, n ∉ edgeRoutes env.triggerToNodes state o.nodeName e
  /-- The fallback of a failed node is another registered node, which has not failed itself with a
  fallback to a registered node. -/
  fallbacks : ∀ o ∈ outputs, Failed o → ∀ f, env.fallbackMap.lookup o.nodeName = some f →
    f ∈ env.nodes ∧ f ≠ o.nodeName ∧ ∀ o' ∈ outputs, Failed o' → o'.nodeName = f →
      ∀ f', env.fallbackMap.lookup f = some f' → ¬ (f' ∈ env.nodes ∧ f' ≠ f)
  /-- The error handler of a failed node without fallback is registered. -/
  handlers : ∀ o ∈ outputs, Failed o → env.fallbackMap.lookup o.nodeName = none →
    ∀ h, env.errorHandlerMap.lookup o.nodeName = some h → h ∈ env.nodes

section

variable {env : ScheduleEnv S} {outputs : List (TaskOutput S)} {state : S}

theorem fallbackFor_eq_some_iff {handled : List String} {o : TaskOutput S} {f : String} :
    fallbackFor env.nodes env.fallbackMap handled o = some f ↔
      Failed o ∧ env.fallbackMap.lookup o.nodeName = some f ∧ f ∈ env.nodes ∧ f ≠ o.nodeName ∧
        f ∉ handled := by
  unfold fallbackFor Failed
  cases o.circuitBlocked <;> cases o.error <;>
    simp [Option.filter_eq_some_iff, Dict.containsKey_iff, and_assoc]

theorem handlerFor_eq_some_iff {handled : List String} {o : TaskOutput S} {h : String} :
    handlerFor env.nodes env.errorHandlerMap handled o = some h ↔
      Failed o ∧ o.nodeName ∉ handled ∧ env.errorHandlerMap.lookup o.nodeName = some h ∧
        h ∈ env.nodes := by
  unfold handlerFor Failed
  cases o.circuitBlocked <;> cases o.error <;>
    by_cases hh : o.nodeName ∈ handled <;>
      simp [Option.filter_eq_some_iff, Dict.containsKey_iff, hh]

theorem routes_default {o : TaskOutput S} (h : o.command = .default) :
    Routes env.table env.triggerToNodes state o =
      edgesRoute env.table env.triggerToNodes state o.nodeName := by
  simp [Routes, h]

/-- A handled node failed, and its fallback is another registered node. -/
theorem failed_of_mem_fallbackHandled {n : String} (h : n ∈ fallbackHandled env outputs) :
    ∃ o ∈ outputs, Failed o ∧ o.nodeName = n ∧
      ∃ f, env.fallbackMap.lookup n = some f ∧ f ∈ env.nodes ∧ f ≠ n := by
  obtain ⟨pre, o, post, rfl, rfl, ho⟩ := (mem_fallbackHandled_iff outputs n).1 h
  obtain ⟨f, hf⟩ := Option.isSome_iff_exists.1 ho
  obtain ⟨hfail, hl, hn, hne, -⟩ := fallbackFor_eq_some_iff.1 hf
  exact ⟨o, by simp, hfail, rfl, f, hl, hn, hne⟩

/-! ### The condition is necessary -/

/-- Two different outputs can complete first, in the given order. -/
theorem exists_perm_cons_cons {α : Type*} {l : List α} {a b : α} (ha : a ∈ l) (hb : b ∈ l)
    (hne : a ≠ b) : ∃ l', l.Perm (a :: b :: l') := by
  obtain ⟨p, q, rfl⟩ := List.append_of_mem ha
  have hb' : b ∈ p ++ q := by
    simp only [List.mem_append, List.mem_cons] at hb ⊢
    exact hb.imp id fun h => h.resolve_left hne.symm
  obtain ⟨p', q', hpq⟩ := List.append_of_mem hb'
  refine ⟨p' ++ q', List.perm_middle.trans (List.Perm.cons a ?_)⟩
  rw [hpq]
  exact List.perm_middle

theorem recoveryClean_of_failuresRecover (hr : RunnerFailures env outputs)
    (h : FailuresRecover env outputs state) : RecoveryClean env outputs state := by
  have hrec : ∀ o ∈ outputs, Failed o → ∃ pre post, RecoversOnly env state pre o post := by
    intro o ho hf
    obtain ⟨pre, post, heq⟩ := mem_iff_split.1 ho
    exact ⟨pre, post, (h outputs (.refl _)).1 pre o post heq hf⟩
  refine ⟨fun o ho hf e he => ?_, fun o ho hf f hl => ?_, fun o ho hf hl h' hh => ?_⟩
  · obtain ⟨pre, post, hro⟩ := hrec o ho hf
    have hd := (hr o ho hf).1
    refine ⟨fun hfe => hro.noError ⟨by rw [hd]; rfl, e, he, hfe⟩, fun n hn => hro.noRoute n ?_⟩
    rw [routes_default hd]
    exact ⟨e, he, hn⟩
  · obtain ⟨pre, post, hro⟩ := hrec o ho hf
    obtain ⟨-, -, hn, hne, -⟩ := fallbackFor_eq_some_iff.1 (hro.fallback.trans hl)
    refine ⟨hn, hne, fun o' ho' hf' hname f' hl' hf'n => ?_⟩
    -- Let `o'` complete first: its fallback is scheduled, and `o` is taken for a cycle.
    obtain ⟨rest, hperm⟩ := exists_perm_cons_cons ho' ho fun heq => hne (heq ▸ hname).symm
    have hro' := (h _ hperm).1 [o'] o rest rfl hf
    have hnot := (fallbackFor_eq_some_iff.1 (hro'.fallback.trans hl)).2.2.2.2
    refine hnot ((mem_fallbackHandled_iff [o'] f).2 ⟨[], o', [], rfl, hname, ?_⟩)
    rw [fallbackFor_eq_some_iff.2 ⟨hf', hname ▸ hl', hf'n.1, hname ▸ hf'n.2, by
      simp [fallbackHandled, scheduleFallbackTasks]⟩]
    rfl
  · obtain ⟨pre, post, hro⟩ := hrec o ho hf
    have hsome := hro.handler
    rw [hl, Option.isSome_none, if_neg Bool.false_ne_true, hh] at hsome
    exact (handlerFor_eq_some_iff.1 hsome).2.2.2

/-! ### The condition is sufficient -/

theorem recoversOnly_of_recoveryClean (hr : RunnerFailures env outputs)
    (hc : RecoveryClean env outputs state) {pre post : List (TaskOutput S)} {o : TaskOutput S}
    (hmem : ∀ o' ∈ pre ++ o :: post, o' ∈ outputs) (hf : Failed o) :
    RecoversOnly env state pre o post := by
  have ho : o ∈ outputs := hmem o (by simp)
  have hd := (hr o ho hf).1
  have hfb : (recoveryFor env pre o post).1 = env.fallbackMap.lookup o.nodeName := by
    cases hl : env.fallbackMap.lookup o.nodeName with
    | none =>
      rw [Option.eq_none_iff_forall_ne_some]
      intro f hf'
      exact absurd ((fallbackFor_eq_some_iff.1 hf').2.1) (by simp [hl])
    | some f =>
      obtain ⟨hn, hne, hcycle⟩ := hc.fallbacks o ho hf f hl
      refine fallbackFor_eq_some_iff.2 ⟨hf, hl, hn, hne, fun hmem' => ?_⟩
      obtain ⟨o', ho', hf', hname, f', hl', hf'n⟩ := failed_of_mem_fallbackHandled hmem'
      exact hcycle o' (hmem o' (by simp [ho'])) hf' hname f' hl' hf'n
  refine ⟨?_, ?_, hfb, ?_⟩
  · rintro ⟨-, e, he, hfe⟩
    exact (hc.edges o ho hf e he).1 hfe
  · intro n hn
    rw [routes_default hd] at hn
    obtain ⟨e, he, hn⟩ := hn
    exact (hc.edges o ho hf e he).2 n hn
  · cases hl : env.fallbackMap.lookup o.nodeName with
    | some f =>
      -- The fallback was scheduled, so the node counts as handled.
      have hmem' : o.nodeName ∈ fallbackHandled env (pre ++ o :: post) :=
        (mem_fallbackHandled_iff _ _).2 ⟨pre, o, post, rfl, rfl, by
          change (recoveryFor env pre o post).1.isSome = true
          rw [hfb, hl]; rfl⟩
      rw [Option.isSome_some, if_pos rfl, Option.eq_none_iff_forall_ne_some]
      intro h' hh
      exact (handlerFor_eq_some_iff.1 hh).2.1 hmem'
    | none =>
      rw [Option.isSome_none, if_neg Bool.false_ne_true]
      cases hh : env.errorHandlerMap.lookup o.nodeName with
      | none =>
        rw [Option.eq_none_iff_forall_ne_some]
        intro h' hh'
        exact absurd (handlerFor_eq_some_iff.1 hh').2.2.1 (by simp [hh])
      | some h' =>
        refine handlerFor_eq_some_iff.2 ⟨hf, fun hmem' => ?_, hh, hc.handlers o ho hf hl h' hh⟩
        obtain ⟨-, -, -, -, f, hlf, -⟩ := failed_of_mem_fallbackHandled hmem'
        rw [hl] at hlf; cases hlf

theorem recoveryTarget_of_recoversOnly {pre post : List (TaskOutput S)} {o : TaskOutput S}
    (h : RecoversOnly env state pre o post) {n : String}
    (hn : (recoveryFor env pre o post).1 = some n ∨ (recoveryFor env pre o post).2 = some n) :
    recoveryTarget env o = some n := by
  unfold recoveryTarget
  obtain hn | hn := hn
  · rw [← h.fallback, hn, Option.some_or]
  · rw [h.handler] at hn
    split_ifs at hn with hs
    rw [Option.not_isSome_iff_eq_none.1 hs, Option.none_or, hn]

/-- **When failures schedule their recovery and nothing else.** -/
theorem failuresRecover_iff (hr : RunnerFailures env outputs) :
    FailuresRecover env outputs state ↔ RecoveryClean env outputs state := by
  refine ⟨recoveryClean_of_failuresRecover hr, fun hc outputs' hperm => ?_⟩
  have hrec : ∀ pre o post, outputs' = pre ++ o :: post → Failed o →
      RecoversOnly env state pre o post := by
    rintro pre o post rfl hf
    exact recoversOnly_of_recoveryClean hr hc (fun o' ho' => hperm.mem_iff.2 ho') hf
  refine ⟨hrec, fun base persisted tasks htasks t ht => ?_⟩
  obtain ⟨pre, o, post, rfl, hcause⟩ | hmark :=
    (mem_scheduleNext_iff htasks t.nodeName).1 (List.mem_map_of_mem ht)
  · have ho : o ∈ outputs := hperm.mem_iff.2 (by simp)
    obtain hroute | hrecov := hcause
    · refine .inl ⟨o, ho, fun hf => ?_, hroute⟩
      exact (hrec pre o post rfl hf).noRoute _ hroute
    · have hf : Failed o := by
        obtain h | h := hrecov
        · exact (fallbackFor_eq_some_iff.1 h).1
        · exact (handlerFor_eq_some_iff.1 h).1
      exact .inr (.inl ⟨o, ho, hf, recoveryTarget_of_recoversOnly (hrec pre o post rfl hf) hrecov⟩)
  · exact .inr (.inr hmark)

/-- A graph `a → b` in which `a` has the fallback `f`. -/
def withFallback : ScheduleEnv Transcript :=
  let table := buildTriggerTable
    [.fixed START "a", .fixed "a" "b", .fixed "b" END, .fixed "f" END]
  { nodes := Dict.ofList (["f", "b", "a"].map fun n => (n, ⟨fun _ _ => .done (.ok .default)⟩))
    table
    triggerToNodes := .fromTriggerTable table
    fallbackMap := Dict.ofList [("a", "f")]
    errorHandlerMap := ∅ }

/-- The output of `a` when it fails. -/
def aFailed : TaskOutput Transcript :=
  { taskId := 0, nodeName := "a", command := .default, trigger := .pull
    error := some (.execution "boom") }

theorem runnerFailures_aFailed : RunnerFailures withFallback [aFailed] := by
  intro o ho _
  obtain rfl := List.mem_singleton.1 ho
  exact ⟨rfl, by decide⟩

/-- When `a` fails, the next superstep runs its fallback and, next to it, its successor `b`. -/
theorem withFallback_not_failuresRecover :
    RunnerFailures withFallback [aFailed] ∧
      scheduleNext withFallback 1 [aFailed] {} [] = .ok [.pull 1 "b", .pull 2 "f"] ∧
      ¬ FailuresRecover withFallback [aFailed] {} := by
  refine ⟨runnerFailures_aFailed, rfl, fun h => ?_⟩
  have hro := (h _ (.refl _)).1 [] aFailed [] rfl ⟨rfl, rfl⟩
  have hedge : withFallback.table.edgesOf "a" = [.fixed "b"] := rfl
  exact hro.noRoute "b" ⟨.fixed "b", hedge ▸ List.mem_cons_self, rfl, by decide, by decide⟩

theorem failuresRecover_iff_withFallback :
    RunnerFailures withFallback [aFailed] ∧
      (FailuresRecover withFallback [aFailed] {} ↔
        RecoveryClean withFallback [aFailed] {}) :=
  ⟨runnerFailures_aFailed, failuresRecover_iff runnerFailures_aFailed⟩

end

end Juncture
