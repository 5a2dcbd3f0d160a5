import Juncture.Pregel.Frames
import Juncture.Pregel.Rerun

/-!
# A run and its shadow

The shadow of a loop is a loop that is in the same state but has no checkpointer: it differs in the
store, in identifiers, in the checkpoint that the configuration names and in the counters for
snapshots.  A loop that goes on and its shadow stay what they are to each other, and report the same
errors, as long as the saver refuses nothing, no node looks at the checkpoint, and no failure that the
saver has on record is handled again.

* `Superstep.shadowed_runSpawned` : the tasks of a superstep and their shadows.
* `PregelLoop.shadows_executeSuperstep`, `PregelLoop.shadows_afterTick` : the phases of a round.
-/

namespace Juncture

variable {S σ : Type} [State S]

/-- The saver has nothing to keep of the output. -/
structure TaskOutput.Quiet (o : TaskOutput S) : Prop where
  /-- The task has not failed. -/
  error : o.error = none
  /-- It has written nothing. -/
  writes : ∀ u, o.command.update = some u → serializePendingWrites o.taskId u = []

/-- Writes are accepted under the configuration. -/
def RunnerEnv.Accepts (env : RunnerEnv S σ) : Prop :=
  ∀ cp, env.checkpointer = some cp → ∀ store writes taskId,
    (cp.putWrites store env.config writes taskId).2 = .ok ()

/-- The tasks of `env'` are those of `env`, without the saver. -/
structure SpawnEnv.Shadows (env env' : SpawnEnv S σ) : Prop extends env.Alike env' where
  /-- Resume values. -/
  resumeValues : env.resumeValues = env'.resumeValues
  /-- The failures that do not fail the superstep. -/
  recovers : ∀ n, env.recovers n = env'.recovers n
  /-- There is no saver. -/
  off : env'.checkpointer = none

section Persist

variable {env : RunnerEnv S σ} {o : TaskOutput S} {store store' : σ} {err : CheckpointError}

theorem persistWrites_of_off (h : env.checkpointer = none) :
    persistWrites env o store = (store, .ok ()) := by
  unfold persistWrites
  rw [h]

/-- A write that is refused. -/
theorem not_quiet_of_persistWrites (h : persistWrites env o store = (store', .error err)) :
    ¬ env.Accepts ∧ ¬ o.Quiet := by
  unfold persistWrites at h
  cases hcp : env.checkpointer with
  | none =>
    simp only [hcp] at h
    cases h
  | some cp =>
    cases hu : o.command.update with
    | none =>
      simp only [hcp, hu] at h
      cases h
    | some u =>
      simp only [hcp, hu] at h
      split_ifs at h with hempty
      · cases h
      · refine ⟨fun hacc => ?_, fun hquiet => hempty (by rw [hquiet.writes u hu]; rfl)⟩
        have hok := hacc cp hcp store (serializePendingWrites o.taskId u) o.taskId
        rw [h] at hok
        cases hok

/-- A marker that is refused. -/
theorem not_accepts_of_persistMarkers {nodeName : String} {error : JunctureError} {id : Uuid}
    (h : persistMarkers env nodeName error id store = (store', .error err)) : ¬ env.Accepts := by
  unfold persistMarkers at h
  cases hcp : env.checkpointer with
  | none =>
    simp only [hcp] at h
    cases h
  | some cp =>
    simp only [hcp] at h
    intro hacc
    have hok := hacc cp hcp store
      [⟨id, ERROR_SOURCE_NODE, .str nodeName⟩, ⟨id, ERROR, .str error.display⟩] id
    rw [h] at hok
    cases hok

/-- Whether there is something to keep does not depend on identifiers. -/
theorem quiet_of_anon {o' : TaskOutput S} (h : o.anon = o'.anon) : o.Quiet ↔ o'.Quiet := by
  have hempty : ∀ (id id' : Uuid) (u : Update S),
      serializePendingWrites id u = [] ↔ serializePendingWrites id' u = [] := by
    intro id id' u
    unfold serializePendingWrites
    split
    · simp
    · simp
  have hcommand : o.anon.command = o'.anon.command := congrArg TaskOutput.command h
  have herror : o.anon.error = o'.anon.error := congrArg TaskOutput.error h
  change o.command = o'.command at hcommand
  change o.error = o'.error at herror
  constructor
  · rintro ⟨he, hw⟩
    exact ⟨herror ▸ he, fun u hu => (hempty _ _ u).1 (hw u (hcommand ▸ hu))⟩
  · rintro ⟨he, hw⟩
    exact ⟨herror ▸ he, fun u hu => (hempty _ _ u).1 (hw u (hcommand ▸ hu))⟩

end Persist

/-! ### The tasks of a superstep -/

namespace Superstep

/-- The superstep and its shadow. -/
def Shadow (e e' : Superstep S σ) : Prop :=
  ∃ store nextUuid outputs, e' = { e with store, nextUuid, outputs } ∧ SameOutputs e.outputs outputs

/-- The superstep and its shadow, or there is something to keep and it may have been refused. -/
def Shadowed (env : SpawnEnv S σ) (e e' : Superstep S σ) : Prop :=
  Shadow e e' ∨ ¬ env.Accepts ∧ ∃ o ∈ e'.outputs, ¬ o.Quiet

variable {env env' : SpawnEnv S σ} {e e' : Superstep S σ}

theorem sameOutputs_snoc {os os' : List (TaskOutput S)} {o o' : TaskOutput S}
    (h : SameOutputs os os') (ho : o.anon = o'.anon) : SameOutputs (os ++ [o]) (os' ++ [o']) := by
  unfold SameOutputs at h ⊢
  simp only [List.map_append, List.map_cons, List.map_nil, h, ho]

theorem Shadow.complete (h : Shadow e e') (i : ℕ) (r : Except JunctureError (Command S)) :
    Shadow (e.complete i r) (e'.complete i r) := by
  obtain ⟨store, uuid, outputs, rfl, hout⟩ := h
  exact ⟨store, uuid, outputs, rfl, hout⟩

theorem Shadow.cutShort (h : Shadow e e') (i : ℕ) (error : Option JunctureError) :
    Shadow (e.cutShort i error) (e'.cutShort i error) := by
  have hphase : e'.phase i = e.phase i := by
    obtain ⟨_, _, _, rfl, -⟩ := h
    rfl
  unfold Superstep.cutShort
  rw [hphase]
  split
  · exact h.complete i _
  · exact h

/-- The collectors go on together, unless something is refused. -/
theorem Shadow.collect (h : Shadow e e') (henv : env.Shadows env') {t t' : PendingTask S}
    (hname : t.nodeName = t'.nodeName) (htrigger : t.trigger = t'.trigger)
    (r : Except JunctureError (Command S)) :
    Shadowed env (e.collect env t r) (e'.collect env' t' r) := by
  obtain ⟨store, uuid, outputs, rfl, hout⟩ := h
  cases r with
  | ok command =>
    have hanon : (successOutput t command).anon = (successOutput t' command).anon := by
      simp only [TaskOutput.anon, successOutput, hname, htrigger]
    simp only [Superstep.collect, persistWrites_of_off henv.off]
    rcases hput : persistWrites env.toRunnerEnv (successOutput t command) e.store with
      ⟨store', err | ⟨⟩⟩
    · obtain ⟨hacc, hquiet⟩ := not_quiet_of_persistWrites hput
      exact .inr ⟨hacc, successOutput t' command, by simp, (quiet_of_anon hanon).not.1 hquiet⟩
    · exact .inl ⟨store, uuid, _, rfl, sameOutputs_snoc hout hanon⟩
  | error error =>
    have hrecovers : env'.recovers t'.nodeName = env.recovers t.nodeName := by
      rw [hname, henv.recovers]
    have hoff : ∀ id store, persistMarkers env'.toRunnerEnv t'.nodeName error id store =
        (store, .ok ()) := by
      intro id store
      unfold persistMarkers
      rw [henv.off]
    simp only [Superstep.collect, hrecovers, hoff, henv.off]
    cases env.recovers t.nodeName with
    | false => exact .inl ⟨store, uuid, outputs, rfl, hout⟩
    | true =>
      simp only [if_true]
      rcases hput : persistMarkers env.toRunnerEnv t.nodeName error e.nextUuid e.store with
        ⟨store', err | ⟨⟩⟩
      · refine .inr ⟨not_accepts_of_persistMarkers hput, _, List.mem_append_right _
          (List.mem_singleton_self _), fun hquiet => ?_⟩
        cases hquiet.error
      · refine .inl ⟨store, _, _, rfl, sameOutputs_snoc hout ?_⟩
        simp only [TaskOutput.anon, failedOutput, hname]

theorem Shadow.joinNext (h : Shadow e e') (henv : env.Shadows env') :
    Shadowed env (e.joinNext env) (e'.joinNext env') := by
  have hsame : e'.spawnError = e.spawnError ∧ e'.completed[e'.joined]? = e.completed[e.joined]? := by
    obtain ⟨_, _, _, rfl, -⟩ := h
    exact ⟨rfl, rfl⟩
  unfold Superstep.joinNext
  rw [hsame.1, hsame.2]
  cases e.spawnError with
  | some err =>
    obtain ⟨store, uuid, outputs, rfl, hout⟩ := h
    exact .inl ⟨store, uuid, outputs, rfl, hout⟩
  | none =>
    rcases e.completed[e.joined]? with - | ⟨i, r⟩
    · exact .inl h
    · dsimp only
      obtain ⟨ht, ht'⟩ | ⟨t, t', ht, ht', hname, htrigger⟩ := henv.task_cases i
      · rw [ht, ht']
        exact .inl h
      · rw [ht, ht']
        refine Shadow.collect ?_ henv hname htrigger r
        obtain ⟨store, uuid, outputs, rfl, hout⟩ := h
        exact ⟨store, uuid, outputs, rfl, hout⟩

variable [InterruptHash]

theorem Shadow.stepTask (h : Shadow e e') (henv : env.Shadows env') (i : ℕ) :
    Shadow (e.stepTask env i) (e'.stepTask env' i) := by
  have hactive : e'.activeCount env'.tasks.length = e.activeCount env.tasks.length := by
    rw [henv.length_tasks]
    obtain ⟨_, _, _, rfl, -⟩ := h
    rfl
  have hphase : e'.phase i = e.phase i ∧ e'.cancelled = e.cancelled := by
    obtain ⟨_, _, _, rfl, -⟩ := h
    exact ⟨rfl, rfl⟩
  unfold Superstep.stepTask
  rw [hphase.1]
  cases e.phase i with
  | waiting p =>
    simp only [hactive, hphase.2, henv.permits]
    split_ifs
    · exact h.complete i _
    · obtain ⟨store, uuid, outputs, rfl, hout⟩ := h
      exact ⟨store, uuid, outputs, rfl, hout⟩
    · exact h
  | running p =>
    cases p with
    | done r => exact h.complete i r
    | readLocals k =>
      simp only [advance, henv.locals]
      obtain ⟨store, uuid, outputs, rfl, hout⟩ := h
      exact ⟨store, uuid, outputs, rfl, hout⟩
    | backoff error k =>
      obtain ⟨store, uuid, outputs, rfl, hout⟩ := h
      exact ⟨store, uuid, outputs, rfl, hout⟩
    | interrupt payload id k =>
      obtain ⟨store, uuid, outputs, rfl, hout⟩ := h
      simp only [advance, interruptCall, ← henv.resumeValues]
      cases getResumeValue env.resumeValues e.currentIndex <;>
        exact ⟨store, uuid, outputs, rfl, hout⟩
  | sending signal p =>
    obtain ⟨store, uuid, outputs, rfl, hout⟩ := h
    exact ⟨store, uuid, outputs, rfl, hout⟩
  | finished => exact h

theorem Shadow.step (h : Shadow e e') (henv : env.Shadows env') (c : Choice) :
    Shadowed env (e.step env c) (e'.step env' c) := by
  have hsame : e'.failure = e.failure ∧ e'.cancelled = e.cancelled := by
    obtain ⟨_, _, _, rfl, -⟩ := h
    exact ⟨rfl, rfl⟩
  unfold Superstep.step
  rw [hsame.1]
  cases e.failure with
  | some err => exact .inl h
  | none =>
  cases c with
  | step i => exact .inl (h.stepTask henv i)
  | abort i =>
    simp only [hsame.2, Option.isSome_none, Bool.false_eq_true, if_false]
    exact .inl (h.cutShort i _)
  | runTimeout i =>
    simp only [henv.timeoutPolicy_eq]
    exact .inl (h.cutShort i _)
  | idleTimeout i =>
    simp only [henv.timeoutPolicy_eq]
    exact .inl (h.cutShort i _)
  | join => exact h.joinNext henv
  | cancel =>
    obtain ⟨store, uuid, outputs, rfl, hout⟩ := h
    exact .inl ⟨store, uuid, outputs, rfl, hout⟩

omit [InterruptHash] in
/-- The collector takes no output back. -/
theorem outputs_collect (env : SpawnEnv S σ) (e : Superstep S σ) (task : PendingTask S)
    (r : Except JunctureError (Command S)) : e.outputs <+: (e.collect env task r).outputs := by
  cases r with
  | ok command =>
    simp only [Superstep.collect]
    split
    · exact List.prefix_append _ _
    · exact List.prefix_rfl
  | error error =>
    simp only [Superstep.collect]
    split
    · split
      · exact List.prefix_append _ _
      · exact List.prefix_rfl
    · exact List.prefix_rfl

theorem outputs_move (h : Move env e e') : e.outputs <+: e'.outputs := by
  cases h with
  | join i r task hs hc ht => exact outputs_collect env { e with joined := e.joined + 1 } task r
  | _ => exact List.prefix_rfl

/-- Outputs are never taken back. -/
theorem outputs_step (e : Superstep S σ) (c : Choice) : e.outputs <+: (e.step env c).outputs := by
  have hkeep : (e.step env c).outputs = e.outputs → e.outputs <+: (e.step env c).outputs :=
    fun hout => hout ▸ List.prefix_rfl
  obtain heq | ⟨-, hmove⟩ | ⟨-, -, heq⟩ := step_move env e c
  · exact hkeep (congrArg Superstep.outputs heq)
  · exact outputs_move hmove
  · have hout := congrArg Superstep.outputs heq
    exact hkeep hout

theorem outputs_reaches (h : Reaches env e e') : e.outputs <+: e'.outputs :=
  h.invariant (I := fun x => e.outputs <+: x.outputs)
    (fun x c _ hx => hx.trans (outputs_step x c)) List.prefix_rfl

/-- A superstep and its shadow move side by side. -/
theorem sideBySide_shadowed (henv : env.Shadows env') :
    SideBySide env env' (Shadowed (S := S) (σ := σ) env) where
  length_tasks := henv.length_tasks
  locals := henv.locals
  step {e e'} c h := by
    obtain h | ⟨hacc, o, ho, hloud⟩ := h
    · exact h.step henv c
    · exact .inr ⟨hacc, o, (outputs_step e' c).subset ho, hloud⟩
  control {e e'} h := by
    obtain h | ⟨hacc, o, ho, hloud⟩ := h
    · refine .inl ⟨?_, fun i => .inl henv.resumeValues⟩
      obtain ⟨_, _, _, rfl, -⟩ := h
      exact ⟨rfl, rfl, rfl, rfl⟩
    · exact .inr fun _ hy => .inr ⟨hacc, o, (outputs_reaches hy).subset ho, hloud⟩

/-- **The tasks of a superstep and their shadows**, if the saver refuses nothing. -/
theorem shadowed_runSpawned {state : S} {cancelled : Bool} {store store' : σ}
    {nextUuid nextUuid' : Uuid} (schedule : List Choice) (henv : env.Shadows env')
    (hprogs : spawnTasks env.toRunnerEnv state env.tasks =
      spawnTasks env'.toRunnerEnv state env'.tasks)
    (hsafe : env.Accepts ∨ ∀ o ∈ (runSpawned env' state store' nextUuid' cancelled schedule).outputs,
      o.Quiet) :
    Shadow (runSpawned env state store nextUuid cancelled schedule)
      (runSpawned env' state store' nextUuid' cancelled schedule) := by
  have hinit : Shadow (init env state store nextUuid cancelled)
      (init env' state store' nextUuid' cancelled) := by
    refine ⟨store', nextUuid', [], ?_, rfl⟩
    unfold init
    rw [hprogs]
  obtain h | ⟨hacc, o, ho, hloud⟩ := (sideBySide_shadowed henv).runSpawned schedule (.inl hinit)
  · exact h
  · obtain hsafe | hsafe := hsafe
    · exact absurd hsafe hacc
    · exact absurd (hsafe o ho) hloud

end Superstep

/-! ### Loops -/

namespace PregelLoop

/-- The loop has no circuit breakers, and the saver accepts its checkpoints, whatever checkpoint the
configuration names. -/
def Kept (l : PregelLoop S σ) : Prop :=
  l.circuitBreakerConfigs = ∅ ∧
    ∀ cp, l.checkpointer = some cp → ∀ store checkpointId checkpoint metadata,
      ∃ store' config', cp.put store { l.runnableConfig with checkpointId } checkpoint metadata =
        (store', .ok config')

/-- `l'` is the shadow of `l`. -/
def Shadow (l l' : PregelLoop S σ) : Prop :=
  ∃ store checkpointId pendingTasks nextUuid deltaCounters backgroundPuts written,
    l' = { l with
      checkpointer := none
      store
      runnableConfig := { l.runnableConfig with checkpointId }
      pendingTasks
      nextUuid
      deltaCounters
      backgroundPuts
      written } ∧ SameTasks l.pendingTasks pendingTasks ∧ l.Kept

/-- A phase of a loop and of its shadow: both succeed, with related results, or both fail with the
same error. -/
inductive Agree {α β : Type} (R : α → β → Prop) :
    PregelLoop S σ × Except JunctureError α → PregelLoop S σ × Except JunctureError β → Prop
  | ok {l l' : PregelLoop S σ} {a : α} {b : β} (h : Shadow l l') (hab : R a b) :
    Agree R (l, .ok a) (l', .ok b)
  | error {l l' : PregelLoop S σ} (e : JunctureError) (h : Shadow l l') :
    Agree R (l, .error e) (l', .error e)

theorem Agree.andThen {α β γ δ : Type} {R : α → β → Prop} {R' : γ → δ → Prop}
    {p : PregelLoop S σ × Except JunctureError α} {q : PregelLoop S σ × Except JunctureError β}
    {f : PregelLoop S σ → α → PregelLoop S σ × Except JunctureError γ}
    {g : PregelLoop S σ → β → PregelLoop S σ × Except JunctureError δ} (h : Agree R p q)
    (hf : ∀ l l' a b, p = (l, .ok a) → q = (l', .ok b) → Shadow l l' → R a b →
      Agree R' (f l a) (g l' b)) : Agree R' (andThen p f) (Juncture.andThen q g) := by
  cases h with
  | ok h hab => exact hf _ _ _ _ rfl rfl h hab
  | error e h => exact .error e h

variable {l l' : PregelLoop S σ}

namespace Shadow

theorem tasks (h : l.Shadow l') : SameTasks l.pendingTasks l'.pendingTasks := by
  obtain ⟨_, _, _, _, _, _, _, rfl, ht, -⟩ := h
  exact ht

theorem off (h : l.Shadow l') : l'.checkpointer = none := by
  obtain ⟨_, _, _, _, _, _, _, rfl, -⟩ := h
  rfl

theorem kept (h : l.Shadow l') : l.Kept := by
  obtain ⟨_, _, _, _, _, _, _, -, -, hs⟩ := h
  exact hs

/-- The views are the same. -/
theorem view_eq (h : l.Shadow l') : l.view = l'.view := by
  obtain ⟨_, _, _, _, _, _, _, rfl, ht, -⟩ := h
  exact congrArg (fun ts => { l.view with tasks := ts }) ht

theorem isEmpty_eq (h : l.Shadow l') : l'.pendingTasks.isEmpty = l.pendingTasks.isEmpty := by
  have ht := congrArg List.isEmpty h.tasks
  rw [List.isEmpty_map, List.isEmpty_map] at ht
  exact ht.symm

theorem names_eq (h : l.Shadow l') :
    l'.pendingTasks.map PendingTask.nodeName = l.pendingTasks.map PendingTask.nodeName := by
  rw [← map_nodeName_anon, ← map_nodeName_anon l.pendingTasks, h.tasks]

theorem outside (h : l.Shadow l') (round : Round S) : (l.outside round).Shadow (l'.outside round) := by
  have hwrites : ∀ (is : List ℕ) (l : PregelLoop S σ), l.Shadow l' →
      (is.foldl completeWrite l).Shadow (is.foldl completeWrite l') := by
    intro is
    induction is with
    | nil => exact fun l h => h
    | cons i is ih =>
      intro l h
      have hstay : l'.completeWrite i = l' := by
        unfold completeWrite
        rw [h.off]
      rw [List.foldl_cons, List.foldl_cons, hstay]
      refine ih _ ?_
      obtain ⟨_, _, _, _, _, _, _, rfl, ht, hs⟩ := h
      unfold completeWrite
      split
      · exact ⟨_, _, _, _, _, _, _, rfl, ht, hs⟩
      · exact ⟨_, _, _, _, _, _, _, rfl, ht, hs⟩
  obtain ⟨_, _, _, _, _, _, _, heq, ht, hs⟩ := hwrites round.writes l h
  unfold PregelLoop.outside
  dsimp only
  rw [heq]
  exact ⟨_, _, _, _, _, _, _, rfl, ht, hs⟩

theorem finishAllChannels (h : l.Shadow l') : l.finishAllChannels.Shadow l'.finishAllChannels := by
  obtain ⟨_, _, _, _, _, _, _, rfl, ht, hs⟩ := h
  unfold PregelLoop.finishAllChannels
  dsimp only
  split_ifs
  · exact ⟨_, _, _, _, _, _, _, rfl, ht, hs⟩
  · exact ⟨_, _, _, _, _, _, _, rfl, ht, hs⟩

theorem setStatus (h : l.Shadow l') (status : LoopStatus) :
    { l with status }.Shadow { l' with status } := by
  obtain ⟨_, _, _, _, _, _, _, rfl, ht, hs⟩ := h
  exact ⟨_, _, _, _, _, _, _, rfl, ht, hs⟩

theorem raise (h : l.Shadow l') (signals : List InterruptSignal) (status : LoopStatus) :
    (l.raise signals status).Shadow (l'.raise signals status) := by
  obtain ⟨_, _, _, _, _, _, _, rfl, ht, hs⟩ := h
  exact ⟨_, _, _, _, _, _, _, rfl, ht, hs⟩

theorem seeVersions (h : l.Shadow l') : l.seeVersions.Shadow l'.seeVersions := by
  obtain ⟨_, _, _, _, _, _, _, rfl, ht, hs⟩ := h
  exact ⟨_, _, _, _, _, _, _, rfl, ht, hs⟩

/-- What a tick looks at. -/
theorem ticked (h : l.Shadow l') :
    l'.runnableConfig.recursionLimit = l.runnableConfig.recursionLimit ∧ l'.step = l.step ∧
      l'.cancelled = l.cancelled ∧ l'.budgetExceeded = l.budgetExceeded := by
  obtain ⟨_, _, _, _, _, _, _, rfl, -⟩ := h
  exact ⟨rfl, rfl, rfl, rfl⟩

variable [InterruptHash]

/-- Static interrupts. -/
theorem interrupts (h : l.Shadow l') :
    l'.interruptBefore = l.interruptBefore ∧ l'.interruptAfter = l.interruptAfter := by
  have hnames := h.names_eq
  unfold interruptBefore interruptAfter staticInterrupt
  rw [hnames]
  obtain ⟨_, _, _, _, _, _, _, rfl, -⟩ := h
  exact ⟨rfl, rfl⟩

/-- **Ticks.** -/
theorem tick (h : l.Shadow l') : Agree Eq l.tick l'.tick := by
  obtain ⟨hlimit, hstep, hcancelled, hbudget⟩ := h.ticked
  unfold PregelLoop.tick
  by_cases hl : l.runnableConfig.recursionLimit ≤ l.step
  · have hl' : l'.runnableConfig.recursionLimit ≤ l'.step := by rwa [hlimit, hstep]
    have herr : JunctureError.recursionLimit l'.step l'.runnableConfig.recursionLimit =
        .recursionLimit l.step l.runnableConfig.recursionLimit := by rw [hlimit, hstep]
    rw [if_pos hl, if_pos hl', herr]
    exact .error _ (h.setStatus _).finishAllChannels
  have hl' : ¬ l'.runnableConfig.recursionLimit ≤ l'.step := by rwa [hlimit, hstep]
  rw [if_neg hl, if_neg hl']
  by_cases hc : l.cancelled = true
  · rw [if_pos hc, if_pos (hcancelled.trans hc)]
    exact .ok (h.setStatus _).finishAllChannels rfl
  have hc' : ¬ l'.cancelled = true := by rwa [hcancelled]
  rw [if_neg hc, if_neg hc', hbudget]
  cases l.budgetExceeded with
  | some reason => exact .error _ (h.setStatus _).finishAllChannels
  | none =>
    dsimp only
    by_cases he : l.pendingTasks.isEmpty = true
    · rw [if_pos he, if_pos (h.isEmpty_eq.trans he)]
      exact .ok (h.finishAllChannels.setStatus _) rfl
    have he' : ¬ l'.pendingTasks.isEmpty = true := by rwa [h.isEmpty_eq]
    rw [if_neg he, if_neg he', h.interrupts.1]
    cases l.interruptBefore with
    | some signals => exact .ok (h.seeVersions.raise _ _).finishAllChannels rfl
    | none => exact .ok h rfl

end Shadow

/-! ### Executing -/

/-- The nodes of the pending tasks do not look at the checkpoint that the configuration names. -/
def Blind (l : PregelLoop S σ) : Prop :=
  ∀ t ∈ l.pendingTasks, ∀ checkpointId,
    { l.runnerEnv with config := { l.runnableConfig with checkpointId } }.nodeCall l.state t =
      l.runnerEnv.nodeCall l.state t

variable [InterruptHash] {round : Round S}

/-- The outputs that the runner collects, also when the superstep fails. -/
def collected (l : PregelLoop S σ) (round : Round S) : List (TaskOutput S) :=
  match inlineTask l.runnerEnv l.pendingTasks, (l.runTasks round).result with
  | none, _ => (l.spawned round).outputs
  | some _, .ok result => result.taskOutputs
  | some _, .error _ => []

omit [InterruptHash] in
theorem Shadow.prepare (h : l.Shadow l') :
    Agree (fun blocked blocked' => blocked = [] ∧ blocked' = []) l.prepare l'.prepare := by
  obtain ⟨htasks, hresult⟩ := resolveStateJson_anon h.tasks
  obtain ⟨_, _, ts, _, _, _, _, rfl, -, hk⟩ := h
  have hbreakers : l.circuitBreakerConfigs.entries.isEmpty = true := by
    rw [hk.1]
    rfl
  unfold PregelLoop.prepare
  revert htasks hresult
  rcases resolveStateJson l.pendingTasks with ⟨ts, e | ⟨⟩⟩ <;>
    rcases resolveStateJson _ with ⟨ts', e' | ⟨⟩⟩ <;> intro htasks hresult
  · cases hresult
    exact .error _ ⟨_, _, _, _, _, _, _, rfl, htasks, hk⟩
  · cases hresult
  · cases hresult
  · simp only [checkCircuitBreakers, hbreakers, if_true]
    exact .ok ⟨_, _, _, _, _, _, _, rfl, htasks, hk⟩ ⟨rfl, rfl⟩

omit [InterruptHash] in
/-- The nodes of a loop and of its shadow return the same. -/
theorem Shadow.nodeCall (h : l.Shadow l') (hblind : l.Blind) {t t' : PendingTask S}
    (ht : t ∈ l.pendingTasks) (hanon : t.anon = t'.anon) :
    l.runnerEnv.nodeCall l.state t = l'.runnerEnv.nodeCall l'.state t' := by
  obtain ⟨hname, -, hstate, -⟩ := PendingTask.anon_eq_iff.1 hanon
  obtain ⟨_, checkpointId, _, _, _, _, _, rfl, -, -⟩ := h
  rw [← hblind t ht checkpointId]
  unfold RunnerEnv.nodeCall
  rw [hname, hstate]
  rfl

omit [InterruptHash] in
theorem Shadow.taskProg (h : l.Shadow l') (hblind : l.Blind) {t t' : PendingTask S}
    (ht : t ∈ l.pendingTasks) (hanon : t.anon = t'.anon) :
    l.runnerEnv.taskProg l.state t = l'.runnerEnv.taskProg l'.state t' := by
  have hcall := h.nodeCall hblind ht hanon
  obtain ⟨hname, -⟩ := PendingTask.anon_eq_iff.1 hanon
  have hretry : l.retryPolicies = l'.retryPolicies :=
    congrArg (fun v : View S => v.setup.retryPolicies) h.view_eq
  unfold RunnerEnv.taskProg
  rw [hcall, hname, show l.runnerEnv.retryPolicies = l'.runnerEnv.retryPolicies from hretry]

/-- The spawned tasks. -/
theorem Shadow.spawned (h : l.Shadow l') (hblind : l.Blind)
    (hkeep : l.runnerEnv.Accepts ∨ ∀ o ∈ (l'.spawned round).outputs, o.Quiet) :
    Superstep.Shadow (l.spawned round) (l'.spawned round) := by
  have hprogs := spawnTasks_congr h.tasks fun t ht t' hanon => h.taskProg hblind ht hanon
  have henv : l.spawnEnv.Shadows l'.spawnEnv := by
    have ht := h.tasks
    obtain ⟨_, _, _, _, _, _, _, rfl, -⟩ := h
    exact
      { tasks := ht
        locals := rfl
        permits := rfl
        timeouts := rfl
        resumeValues := rfl
        recovers := fun _ => rfl
        off := rfl }
  have hstate : l.state = l'.state := state_of_view h.view_eq
  have hcancelled : l.cancelled = l'.cancelled := congrArg View.cancelled h.view_eq
  unfold PregelLoop.spawned at hkeep ⊢
  rw [← hstate] at hprogs
  rw [← hstate, ← hcancelled] at hkeep ⊢
  exact Superstep.shadowed_runSpawned round.schedule henv hprogs hkeep

omit [InterruptHash] in
/-- The inline path, when the writes are accepted or there are none. -/
theorem settleInline_shadow {env env' : RunnerEnv S σ} {t t' : PendingTask S} (store store' : σ)
    (nextUuid nextUuid' : Uuid) (hanon : t.anon = t'.anon) (hoff : env'.checkpointer = none)
    (r : Except JunctureError (Command S))
    (hkeep : env.Accepts ∨ ∀ command, r = .ok command → (successOutput t' command).Quiet) :
    (settleInline env t store nextUuid r).result.map SuperstepResult.anon =
        (settleInline env' t' store' nextUuid' r).result.map SuperstepResult.anon ∧
      (settleInline env t store nextUuid r).cancelled =
        (settleInline env' t' store' nextUuid' r).cancelled := by
  obtain ⟨hname, htrigger, -⟩ := PendingTask.anon_eq_iff.1 hanon
  cases r with
  | error e => exact ⟨rfl, rfl⟩
  | ok command =>
    have ho : (successOutput t command).anon = (successOutput t' command).anon := by
      simp only [TaskOutput.anon, successOutput, hname, htrigger]
    simp only [settleInline, persistWrites_of_off hoff]
    rcases hput : persistWrites env (successOutput t command) store with ⟨s, err | ⟨⟩⟩
    · obtain ⟨hacc, hloud⟩ := not_quiet_of_persistWrites hput
      obtain hkeep | hkeep := hkeep
      · exact absurd hkeep hacc
      · exact absurd (hkeep command rfl) ((quiet_of_anon ho).not.1 hloud)
    · refine ⟨congrArg Except.ok ?_, rfl⟩
      exact SuperstepResult.anon_eq_iff.2 ⟨congrArg (fun o => [o]) ho, rfl⟩

/-- **The runner** on a loop and on its shadow. -/
theorem Shadow.runTasks (h : l.Shadow l') (hblind : l.Blind)
    (hkeep : l.runnerEnv.Accepts ∨ ∀ o ∈ l'.collected round, o.Quiet) :
    (l.runTasks round).result.map SuperstepResult.anon =
        (l'.runTasks round).result.map SuperstepResult.anon ∧
      (l.runTasks round).signals = (l'.runTasks round).signals ∧
      (l.runTasks round).cancelled = (l'.runTasks round).cancelled := by
  have hcancelled : l.cancelled = l'.cancelled := congrArg View.cancelled h.view_eq
  by_cases hempty : l.pendingTasks = []
  · have hempty' : l'.pendingTasks = [] := by
      have heq := h.isEmpty_eq
      rw [hempty] at heq
      simpa using heq
    rw [runTasks_of_nil round hempty, runTasks_of_nil round hempty']
    exact ⟨rfl, rfl, hcancelled⟩
  have hempty' : l'.pendingTasks ≠ [] := by
    have heq := h.isEmpty_eq
    intro hnil
    rw [hnil] at heq
    exact hempty (by simpa using heq.symm)
  have hoff : l'.runnerEnv.checkpointer = none := h.off
  -- Both sides take the same way: `inlineTask` reads nothing that differs.
  have hinline := inlineTask_of_view h.view_eq
  unfold collected at hkeep
  rcases hi : inlineTask l.runnerEnv l.pendingTasks with - | t <;>
    rcases hi' : inlineTask l'.runnerEnv l'.pendingTasks with - | t' <;> rw [hi, hi'] at hinline
  · rw [hi'] at hkeep
    obtain ⟨store, uuid, outputs, heq, hout⟩ := h.spawned hblind hkeep
    rw [runTasks_of_spawned round hempty hi, runTasks_of_spawned round hempty' hi', heq]
    refine ⟨?_, rfl, rfl⟩
    unfold Superstep.outcome
    dsimp only
    cases (l.spawned round).failure with
    | some err => rfl
    | none => exact congrArg Except.ok (SuperstepResult.anon_eq_iff.2 ⟨hout, rfl⟩)
  · cases hinline
  · cases hinline
  · have hanon : t.anon = t'.anon := Option.some.inj hinline
    have ht : t ∈ l.pendingTasks := by
      rw [(inlineTask_eq_some_iff.1 hi).1]
      exact List.mem_singleton_self t
    have hcall := h.nodeCall hblind ht hanon
    rw [hi', runTasks_of_inline round hi'] at hkeep
    rw [runTasks_of_inline round hi, runTasks_of_inline round hi']
    unfold executeInline at hkeep ⊢
    rw [hcall, hcancelled]
    rcases hp : l'.runnerEnv.nodeCall l'.state t' with e | p
    · exact ⟨rfl, rfl, rfl⟩
    · simp only [hp] at hkeep ⊢
      by_cases hc : l'.cancelled = true
      · rw [if_pos hc, if_pos hc]
        exact ⟨rfl, rfl, rfl⟩
      · rw [if_neg hc, if_neg hc] at *
        -- What the saver could refuse are the writes of the one output.
        have hquiet : l.runnerEnv.Accepts ∨
            ∀ command, p.runInline = .ok command → (successOutput t' command).Quiet := by
          refine hkeep.imp_right fun hk command hcommand => hk _ ?_
          rw [hcommand]
          simp only [settleInline, persistWrites_of_off hoff]
          exact List.mem_singleton_self _
        obtain ⟨hresult, hcan⟩ := settleInline_shadow l.store l'.store l.nextUuid l'.nextUuid hanon
          hoff p.runInline hquiet
        exact ⟨hresult, (settleInline_signals ..).trans (settleInline_signals ..).symm, hcan⟩

omit [InterruptHash] in
/-- Without breakers there is nothing to record. -/
theorem recordCircuitBreakerResults_of_none (h : l.circuitBreakerConfigs = ∅)
    (outputs : List (TaskOutput S)) : l.recordCircuitBreakerResults outputs =
      { l with now := l.now + l.lags.sum, lags := [] } := by
  have hrecord : ∀ (ps : List (TaskOutput S × ℕ)) states, ps.foldl (fun states p =>
      recordBreaker l.circuitBreakerConfigs (l.reading p.2) states p.1) states = states := by
    intro ps
    induction ps with
    | nil => exact fun states => rfl
    | cons p ps ih =>
      intro states
      have hstep : recordBreaker l.circuitBreakerConfigs (l.reading p.2) states p.1 = states := by
        unfold recordBreaker
        rw [h, AList.lookup_empty]
      rw [List.foldl_cons, hstep, ih]
  unfold recordCircuitBreakerResults
  rw [hrecord]

omit [InterruptHash] in
theorem Shadow.absorb (h : l.Shadow l') {o o' : RunnerOutcome S σ} (hc : o.cancelled = o'.cancelled) :
    (l.absorb o).Shadow (l'.absorb o') := by
  obtain ⟨_, _, _, _, _, _, _, rfl, ht, hk⟩ := h
  unfold PregelLoop.absorb
  rw [← hc]
  exact ⟨_, _, _, _, _, _, _, rfl, ht, hk⟩

omit [InterruptHash] in
theorem Shadow.report (h : l.Shadow l') (round : Round S) :
    (l.report round).Shadow (l'.report round) := by
  obtain ⟨_, _, _, _, _, _, _, rfl, ht, hk⟩ := h
  exact ⟨_, _, _, _, _, _, _, rfl, ht, hk⟩

omit [InterruptHash] in
/-- The answered interrupts, the breakers and the channel of signals. -/
theorem Shadow.record (h : l.Shadow l') (outputs outputs' : List (TaskOutput S))
    (signals : List InterruptSignal) :
    { l.markInterruptsProcessed.recordCircuitBreakerResults outputs with
        interruptRx := some signals }.Shadow
      { l'.markInterruptsProcessed.recordCircuitBreakerResults outputs' with
        interruptRx := some signals } := by
  have hnone : l.circuitBreakerConfigs = ∅ := h.kept.1
  have hnone' : l'.circuitBreakerConfigs = ∅ :=
    (congrArg (fun v : View S => v.setup.circuitBreakerConfigs) h.view_eq).symm.trans hnone
  have hrecord : ∀ k : PregelLoop S σ, k.circuitBreakerConfigs = ∅ → ∀ os,
      k.markInterruptsProcessed.recordCircuitBreakerResults os =
        { k.markInterruptsProcessed with now := k.now + k.lags.sum, lags := [] } :=
    fun k hk os => recordCircuitBreakerResults_of_none (l := k.markInterruptsProcessed) hk os
  rw [hrecord l hnone, hrecord l' hnone']
  obtain ⟨_, _, _, _, _, _, _, rfl, ht, hk⟩ := h
  exact ⟨_, _, _, _, _, _, _, rfl, ht, hk⟩

/-- The tasks of a loop and of its shadow, once they are prepared. -/
theorem Shadow.runPrepared (h : l.Shadow l') (hblind : l.Blind)
    (hkeep : l.runnerEnv.Accepts ∨ ∀ o ∈ l'.collected round, o.Quiet) :
    Agree (fun a b => a.anon = b.anon) (l.runPrepared round []) (l'.runPrepared round []) := by
  obtain ⟨hresult, hsignals, hcancelled⟩ := h.runTasks hblind hkeep
  have hran := (h.absorb hcancelled).report round
  unfold PregelLoop.runPrepared
  dsimp only
  rcases hr : (l.runTasks round).result with e | a <;>
    rcases hr' : (l'.runTasks round).result with e' | b <;> rw [hr, hr'] at hresult
  · cases hresult
    exact .error _ hran
  · cases hresult
  · cases hresult
  · have hanon : a.anon = b.anon := Except.ok.inj hresult
    rw [hsignals]
    refine .ok (hran.record _ _ _) ?_
    rw [List.append_nil, List.append_nil]
    exact hanon

/-- **The first half of a superstep**, up to `after_tick`. -/
theorem Shadow.executeSuperstep (h : l.Shadow l') (hblind : l.prepare.1.Blind)
    (hkeep : l.runnerEnv.Accepts ∨ ∀ o ∈ l'.prepare.1.collected round, o.Quiet) :
    Agree (fun a b => a.anon = b.anon) (l.executeSuperstep round) (l'.executeSuperstep round) := by
  have henv : l.prepare.1.runnerEnv = l.runnerEnv := by
    obtain ⟨_, _, _, _, _, _, _, _, _, _, _, _, heq⟩ := l.ran_prepare
    rw [heq]
    rfl
  refine h.prepare.andThen fun k k' blocked blocked' hp hp' hk hblocked => ?_
  obtain ⟨rfl, rfl⟩ := hblocked
  rw [hp] at hblind henv
  rw [hp', ← henv] at hkeep
  exact hk.runPrepared hblind hkeep

end PregelLoop

end Juncture
