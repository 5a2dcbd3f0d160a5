import Juncture.Pregel.Anonymous
import Juncture.Pregel.Collector

/-!
# Two supersteps in lockstep

Take two supersteps whose tasks run the same programs, under the same schedule, but with different
identifiers, different stores and different resume values.  If no program calls `interrupt!()`, the
tasks cannot tell the difference: the supersteps move in lockstep until the store refuses something
in one of them (`Paired`).  So if both end well, their outputs are the same up to identifiers, and so
are the signals and the cancellation token (`lockstep_runSpawned`).
-/

namespace Juncture

variable {S σ : Type} [State S]

/-- The node makes no `interrupt!()` call, whatever the task-local scopes are. -/
def NodeProg.Mute : NodeProg S → Prop
  | done _ => True
  | interrupt _ _ _ => False
  | readLocals k => ∀ locals, (k locals).Mute
  | backoff _ k => k.Mute

namespace NodeProg

theorem Mute.bind {p : NodeProg S} (hp : p.Mute) {f : Except JunctureError (Command S) → NodeProg S}
    (hf : ∀ r, (f r).Mute) : (p.bind f).Mute := by
  induction p with
  | done r => exact hf r
  | interrupt payload id k => exact hp.elim
  | readLocals k ih => exact fun locals => ih locals (hp locals)
  | backoff error k ih => exact ih hp

theorem Mute.executeWithRetry {p : NodeProg S} (hp : p.Mute) (nodeName : String)
    (policy : RetryPolicy) : (executeWithRetry nodeName policy p).Mute := by
  have hattempts : ∀ left lastError, (retryAttempts nodeName policy p left lastError).Mute := by
    intro left
    induction left with
    | zero => exact fun lastError => trivial
    | succ left ih =>
      refine fun lastError => hp.bind fun r => ?_
      cases r with
      | ok command => trivial
      | error e =>
        simp only
        split_ifs
        · trivial
        · exact ih (some e)
  exact hattempts _ _

end NodeProg

/-- A task that makes no call. -/
def TaskPhase.Mute : TaskPhase S → Prop
  | waiting p | running p => p.Mute
  | sending _ _ => False
  | finished => True

/-! ### Two supersteps side by side -/

namespace Superstep

/-- The supersteps look the same to the one who drives them. -/
structure SameControl (e e' : Superstep S σ) : Prop where
  /-- Where each task is. -/
  phase : e'.phase = e.phase
  /-- The cancellation token. -/
  cancelled : e'.cancelled = e.cancelled
  /-- The next index. -/
  currentIndex : e'.currentIndex = e.currentIndex
  /-- How many completed tasks are yet to be joined. -/
  pending : e'.completed.length - e'.joined = e.completed.length - e.joined

variable [InterruptHash]

/-- A relation between supersteps that the moves keep: they look the same, and each task finds the same
resume values or asks for none; or they have parted for good. -/
structure SideBySide (env env' : SpawnEnv S σ) (R : Superstep S σ → Superstep S σ → Prop) :
    Prop where
  /-- There are as many tasks. -/
  length_tasks : env.tasks.length = env'.tasks.length
  /-- Task-local scopes. -/
  locals : env.locals = env'.locals
  /-- A move of both. -/
  step : ∀ {e e'} (c : Choice), R e e' → R (e.step env c) (e'.step env' c)
  /-- Alike, or parted. -/
  control : ∀ {e e'}, R e e' →
    (SameControl e e' ∧ ∀ i, env.resumeValues = env'.resumeValues ∨ (e.phase i).Mute) ∨
      ∀ {x y}, Reaches env e x → Reaches env' e' y → R x y

namespace SideBySide

variable {env env' : SpawnEnv S σ} {R : Superstep S σ → Superstep S σ → Prop}
  (h : SideBySide env env' R) {e e' : Superstep S σ}

include h

theorem driveTask (i : ℕ) (p : NodeProg S) (hp : env.resumeValues = env'.resumeValues ∨ p.Mute) :
    ∀ {e e'}, R e e' → R (driveTask env i p e) (driveTask env' i p e') := by
  induction p with
  | done r => exact fun he => h.step _ he
  | readLocals k ih =>
    intro e e' he
    simp only [Superstep.driveTask, h.locals]
    exact ih env'.locals (hp.imp id fun hk => hk _) (h.step _ he)
  | backoff error k ih => exact fun he => ih hp (h.step _ he)
  | interrupt payload id k ih =>
    intro e e' he
    obtain ⟨hsame, -⟩ | hparted := h.control he
    · obtain hres | hmute := hp
      · simp only [Superstep.driveTask, hsame.currentIndex, ← hres]
        cases getResumeValue env.resumeValues e.currentIndex with
        | some value => exact ih _ (.inl hres) (h.step _ he)
        | none => exact ih _ (.inl hres) (h.step _ (h.step _ he))
      · exact hmute.elim
    · exact hparted (reaches_driveTask _ _) (reaches_driveTask _ _)

theorem leaveNode (he : R e e') (i : ℕ) : R (e.leaveNode env i) (e'.leaveNode env' i) := by
  obtain ⟨hsame, hanswers⟩ | hparted := h.control he
  · have hp := hanswers i
    unfold Superstep.leaveNode
    rw [hsame.phase, hsame.cancelled]
    cases hphase : e.phase i with
    | running p =>
      rw [hphase] at hp
      dsimp only
      split_ifs
      · exact h.step _ he
      · exact h.driveTask i p hp he
    | _ => exact he
  · exact hparted (reaches_leaveNode _ _) (reaches_leaveNode _ _)

theorem finishTask (he : R e e') (i : ℕ) : R (e.finishTask env i) (e'.finishTask env' i) := by
  obtain ⟨hsame, -⟩ | hparted := h.control he
  · unfold Superstep.finishTask
    rw [hsame.phase]
    cases e.phase i with
    | waiting p => exact h.leaveNode (h.step _ he) i
    | running p => exact h.leaveNode he i
    | sending signal p => exact h.leaveNode (h.step _ he) i
    | finished => exact h.leaveNode he i
  · exact hparted (reaches_finishTask _ _) (reaches_finishTask _ _)

theorem joinAll (he : R e e') : R (e.joinAll env) (e'.joinAll env') := by
  obtain ⟨hsame, -⟩ | hparted := h.control he
  · unfold Superstep.joinAll
    rw [hsame.pending]
    generalize e.completed.length - e.joined = n
    clear hsame
    induction n generalizing e e' with
    | zero => exact he
    | succ n ih => exact ih (h.step .join he)
  · exact hparted (reaches_joinAll _) (reaches_joinAll _)

theorem settleTask (he : R e e') (i : ℕ) : R (e.settleTask env i) (e'.settleTask env' i) :=
  h.joinAll (h.finishTask he i)

theorem settleActive (he : R e e') (i : ℕ) : R (e.settleActive env i) (e'.settleActive env' i) := by
  obtain ⟨hsame, -⟩ | hparted := h.control he
  · unfold Superstep.settleActive
    rw [hsame.phase]
    split_ifs
    · exact h.settleTask he i
    · exact he
  · exact hparted (reaches_settleActive _ _) (reaches_settleActive _ _)

/-- **To the end of the supersteps.** -/
theorem drain (he : R e e') : R (e.drain env) (e'.drain env') := by
  unfold Superstep.drain
  simp only [h.length_tasks]
  refine List.foldl_rel (r := R) (List.foldl_rel (r := R) ?_ ?_) ?_
  · exact h.joinAll (h.step .join he)
  · exact fun i _ e e' he => h.settleActive he i
  · exact fun i _ e e' he => h.settleTask he i

/-- **Whole supersteps side by side.** -/
theorem runSpawned {state state' : S} {store store' : σ} {nextUuid nextUuid' : Uuid}
    {cancelled cancelled' : Bool} (schedule : List Choice)
    (hinit : R (init env state store nextUuid cancelled)
      (init env' state' store' nextUuid' cancelled')) :
    R (runSpawned env state store nextUuid cancelled schedule)
      (runSpawned env' state' store' nextUuid' cancelled' schedule) :=
  h.drain (List.foldl_rel (r := R) hinit fun c _ _ _ he => h.step c he)

end SideBySide

end Superstep

/-- The tasks are the same up to identifiers, and are run with the same scopes, permits and
timeouts. -/
structure SpawnEnv.Alike (env env' : SpawnEnv S σ) : Prop where
  /-- Tasks. -/
  tasks : SameTasks env.tasks env'.tasks
  /-- Task-local scopes. -/
  locals : env.locals = env'.locals
  /-- Permits. -/
  permits : env.config.maxParallelTasks = env'.config.maxParallelTasks
  /-- Timeouts. -/
  timeouts : env.timeoutPolicies = env'.timeoutPolicies

namespace SpawnEnv.Alike

variable {env env' : SpawnEnv S σ} (h : env.Alike env')

include h

theorem length_tasks : env.tasks.length = env'.tasks.length := by
  have h := congrArg List.length h.tasks
  rwa [List.length_map, List.length_map] at h

/-- The tasks at one position. -/
theorem task_cases (i : ℕ) :
    (env.tasks[i]? = none ∧ env'.tasks[i]? = none) ∨
      ∃ t t', env.tasks[i]? = some t ∧ env'.tasks[i]? = some t' ∧ t.nodeName = t'.nodeName ∧
        t.trigger = t'.trigger := by
  have hi := congrArg (fun ts => ts[i]?) h.tasks
  simp only [List.getElem?_map] at hi
  rcases ht : env.tasks[i]? with - | t <;> rcases ht' : env'.tasks[i]? with - | t' <;>
    rw [ht, ht'] at hi
  · exact .inl ⟨rfl, rfl⟩
  · exact nomatch hi
  · exact nomatch hi
  · have hanon : t.anon = t'.anon := Option.some.inj hi
    obtain ⟨hname, htrigger, -⟩ := PendingTask.anon_eq_iff.1 hanon
    exact .inr ⟨t, t', rfl, rfl, hname, htrigger⟩

theorem timeoutPolicy_eq (i : ℕ) :
    Superstep.timeoutPolicy env i = Superstep.timeoutPolicy env' i := by
  unfold Superstep.timeoutPolicy
  rw [h.timeouts]
  obtain ⟨ht, ht'⟩ | ⟨t, t', ht, ht', hname, -⟩ := h.task_cases i
  · rw [ht, ht']
  · simp only [ht, ht', Option.bind_some]
    rw [hname]

/-- The outputs of one completion. -/
theorem output_anon {c : Completion S} {o o' : TaskOutput S} (ho : env.OutputFrom c o)
    (ho' : env'.OutputFrom c o') : o.anon = o'.anon := by
  obtain ⟨t, ht, ho⟩ := ho
  obtain ⟨t', ht', ho'⟩ := ho'
  obtain ⟨hnone, -⟩ | ⟨u, u', hu, hu', hname, htrigger⟩ := h.task_cases c.1
  · exact nomatch hnone.symm.trans ht
  obtain rfl : u = t := Option.some.inj (hu.symm.trans ht)
  obtain rfl : u' = t' := Option.some.inj (hu'.symm.trans ht')
  cases hr : c.2 with
  | ok command =>
    rw [hr] at ho ho'
    subst ho ho'
    simp only [TaskOutput.anon, successOutput, hname, htrigger]
  | error err =>
    rw [hr] at ho ho'
    obtain ⟨id, rfl⟩ := ho
    obtain ⟨id', rfl⟩ := ho'
    simp only [TaskOutput.anon, failedOutput, hname]

end SpawnEnv.Alike

namespace Superstep

/-- The supersteps are at the same point, and have not failed. -/
structure Lockstep (e e' : Superstep S σ) : Prop where
  /-- They differ in the store and in identifiers only. -/
  same : ∃ store nextUuid outputs, e' = { e with store, nextUuid, outputs } ∧
    SameOutputs e.outputs outputs
  /-- They have not failed. -/
  going : e.failure = none
  /-- No task makes a call. -/
  mute : ∀ i, (e.phase i).Mute

/-- The supersteps are in lockstep, or one has failed. -/
def Paired (e e' : Superstep S σ) : Prop :=
  e.failure ≠ none ∨ e'.failure ≠ none ∨ Lockstep e e'

variable {env env' : SpawnEnv S σ} {e e' : Superstep S σ}

namespace Lockstep

theorem going' (h : Lockstep e e') : e'.failure = none := by
  obtain ⟨_, _, _, rfl, -⟩ := h.same
  exact h.going

theorem setPhase (h : Lockstep e e') (i : ℕ) {ph : TaskPhase S} (hph : ph.Mute) :
    Lockstep (e.setPhase i ph) (e'.setPhase i ph) := by
  obtain ⟨store, uuid, outputs, rfl, hout⟩ := h.same
  refine ⟨⟨store, uuid, outputs, rfl, hout⟩, h.going, fun j => ?_⟩
  rw [setPhase_phase]
  split_ifs
  · exact hph
  · exact h.mute j

theorem complete (h : Lockstep e e') (i : ℕ) (r : Except JunctureError (Command S)) :
    Lockstep (e.complete i r) (e'.complete i r) := by
  have hfin := h.setPhase i (show TaskPhase.Mute (S := S) .finished from trivial)
  obtain ⟨store, uuid, outputs, rfl, hout⟩ := h.same
  exact ⟨⟨store, uuid, outputs, rfl, hout⟩, h.going, hfin.mute⟩

theorem cutShort (h : Lockstep e e') (i : ℕ) (error : Option JunctureError) :
    Lockstep (e.cutShort i error) (e'.cutShort i error) := by
  have hphase : e'.phase i = e.phase i := by
    obtain ⟨_, _, _, rfl, -⟩ := h.same
    rfl
  unfold Superstep.cutShort
  rw [hphase]
  split
  · exact h.complete i _
  · exact h

/-- The collectors go on together until one of them fails. -/
theorem joinNext (h : Lockstep e e') (henv : env.Alike env') :
    Paired (e.joinNext env) (e'.joinNext env') := by
  have hsame : e'.spawnError = e.spawnError ∧ e'.completed[e'.joined]? = e.completed[e.joined]? := by
    obtain ⟨_, _, _, rfl, -⟩ := h.same
    exact ⟨rfl, rfl⟩
  obtain ⟨hs', hc'⟩ := hsame
  cases hs : e.spawnError with
  | some err => exact .inl (by rw [joinNext_of_spawnError hs]; simp)
  | none =>
    rw [hs] at hs'
    rcases hc : e.completed[e.joined]? with - | ⟨i, r⟩
    · rw [hc] at hc'
      have hstay : e.joinNext env = e ∧ e'.joinNext env' = e' := by
        simp only [Superstep.joinNext, hs, hs', hc, hc', and_self]
      rw [hstay.1, hstay.2]
      exact .inr (.inr h)
    · rw [hc] at hc'
      obtain ⟨ht, ht'⟩ | ⟨t, t', ht, ht', -⟩ := henv.task_cases i
      · have hstay : e.joinNext env = e ∧ e'.joinNext env' = e' := by
          simp only [Superstep.joinNext, hs, hs', hc, hc', ht, ht', and_self]
        rw [hstay.1, hstay.2]
        exact .inr (.inr h)
      · rw [joinNext_of_completed hs hc ht, joinNext_of_completed hs' hc' ht']
        obtain ⟨-, o, ho, s, u, -, heq⟩ | ⟨-, hf⟩ :=
          collect_cases { e with joined := e.joined + 1 } r ht
        · obtain ⟨-, o', ho', s', u', -, heq'⟩ | ⟨-, hf'⟩ :=
            collect_cases { e' with joined := e'.joined + 1 } r ht'
          · rw [heq, heq']
            obtain ⟨store, uuid, outputs, rfl, hout⟩ := h.same
            refine .inr (.inr ⟨⟨s', u', outputs ++ [o'], rfl, ?_⟩, h.going, h.mute⟩)
            unfold SameOutputs at hout ⊢
            simp only [List.map_append, List.map_cons, List.map_nil, hout, henv.output_anon ho ho']
          · exact .inr (.inl hf')
        · exact .inl hf

variable [InterruptHash]

theorem stepTask (h : Lockstep e e') (henv : env.Alike env') (i : ℕ) :
    Lockstep (e.stepTask env i) (e'.stepTask env' i) := by
  have hphase : e'.phase i = e.phase i ∧ e'.cancelled = e.cancelled ∧
      e'.activeCount env'.tasks.length = e.activeCount env.tasks.length := by
    rw [henv.length_tasks]
    obtain ⟨_, _, _, rfl, -⟩ := h.same
    exact ⟨rfl, rfl, rfl⟩
  obtain ⟨hphase, hcancelled, hactive⟩ := hphase
  have hmute := h.mute i
  unfold Superstep.stepTask
  rw [hphase]
  cases hp : e.phase i with
  | waiting p =>
    rw [hp] at hmute
    simp only [hactive, hcancelled, henv.permits]
    split_ifs
    · exact h.complete i _
    · exact h.setPhase i hmute
    · exact h
  | running p =>
    rw [hp] at hmute
    cases p with
    | done r => exact h.complete i r
    | interrupt payload id k => exact hmute.elim
    | readLocals k =>
      simp only [advance, henv.locals]
      exact h.setPhase i (hmute _)
    | backoff error k =>
      have hrun := h.setPhase i (show TaskPhase.Mute (.running k) from hmute)
      obtain ⟨store, uuid, outputs, rfl, hout⟩ := h.same
      exact ⟨⟨store, uuid, outputs, rfl, hout⟩, h.going, hrun.mute⟩
  | sending signal p =>
    rw [hp] at hmute
    exact hmute.elim
  | finished => exact h

theorem step (h : Lockstep e e') (henv : env.Alike env') (c : Choice) :
    Paired (e.step env c) (e'.step env' c) := by
  have hf := h.going
  have hf' := h.going'
  have hcancelled : e'.cancelled = e.cancelled := by
    obtain ⟨_, _, _, rfl, -⟩ := h.same
    rfl
  cases c <;>
    simp only [Superstep.step, hf, hf', Option.isSome_none, Bool.false_eq_true, if_false]
  case step i => exact .inr (.inr (h.stepTask henv i))
  case abort i =>
    rw [hcancelled]
    exact .inr (.inr (h.cutShort i _))
  case runTimeout i =>
    rw [henv.timeoutPolicy_eq]
    exact .inr (.inr (h.cutShort i _))
  case idleTimeout i =>
    rw [henv.timeoutPolicy_eq]
    exact .inr (.inr (h.cutShort i _))
  case join => exact h.joinNext henv
  case cancel =>
    obtain ⟨store, uuid, outputs, rfl, hout⟩ := h.same
    exact .inr (.inr ⟨⟨store, uuid, outputs, rfl, hout⟩, rfl, h.mute⟩)

end Lockstep

/-- Supersteps that are paired move side by side: one that has failed stays as it is. -/
theorem sideBySide_paired [InterruptHash] (henv : env.Alike env') :
    SideBySide env env' (Paired (S := S) (σ := σ)) where
  length_tasks := henv.length_tasks
  locals := henv.locals
  step {e e'} c h := by
    obtain he | he | he := h
    · obtain ⟨err, he⟩ := Option.ne_none_iff_exists'.1 he
      exact .inl (by rw [step_of_failure he, he]; simp)
    · obtain ⟨err, he⟩ := Option.ne_none_iff_exists'.1 he
      exact .inr (.inl (by rw [step_of_failure he, he]; simp))
    · exact he.step henv c
  control {e e'} h := by
    obtain he | he | he := h
    · obtain ⟨err, he⟩ := Option.ne_none_iff_exists'.1 he
      exact .inr fun hx _ => .inl (by rw [failure_of_reaches he hx, he]; simp)
    · obtain ⟨err, he⟩ := Option.ne_none_iff_exists'.1 he
      exact .inr fun _ hy => .inr (.inl (by rw [failure_of_reaches he hy, he]; simp))
    · refine .inl ⟨?_, fun i => .inr (he.mute i)⟩
      obtain ⟨_, _, _, rfl, -⟩ := he.same
      exact ⟨rfl, rfl, rfl, rfl⟩

/-- The supersteps start in lockstep. -/
theorem lockstep_init {state : S}
    (hprogs : spawnTasks env.toRunnerEnv state env.tasks =
      spawnTasks env'.toRunnerEnv state env'.tasks)
    (hmute : ∀ p ∈ (spawnTasks env.toRunnerEnv state env.tasks).1, p.Mute) (store store' : σ)
    (nextUuid nextUuid' : Uuid) (cancelled : Bool) :
    Lockstep (init env state store nextUuid cancelled)
      (init env' state store' nextUuid' cancelled) where
  same := by
    refine ⟨store', nextUuid', [], ?_, rfl⟩
    unfold init
    rw [hprogs]
  going := rfl
  mute i := by
    unfold init
    dsimp only
    split
    · rename_i p hp
      exact hmute p (List.mem_of_getElem? hp)
    · trivial

/-- **Two supersteps of the same programs** that end well have the same outputs up to identifiers. -/
theorem lockstep_runSpawned [InterruptHash] {state : S} {cancelled : Bool} {store store' : σ}
    {nextUuid nextUuid' : Uuid} {schedule : List Choice} (henv : env.Alike env')
    (hprogs : spawnTasks env.toRunnerEnv state env.tasks =
      spawnTasks env'.toRunnerEnv state env'.tasks)
    (hmute : ∀ p ∈ (spawnTasks env.toRunnerEnv state env.tasks).1, p.Mute)
    (hf : (runSpawned env state store nextUuid cancelled schedule).failure = none)
    (hf' : (runSpawned env' state store' nextUuid' cancelled schedule).failure = none) :
    Lockstep (runSpawned env state store nextUuid cancelled schedule)
      (runSpawned env' state store' nextUuid' cancelled schedule) := by
  have hinit := lockstep_init hprogs hmute store store' nextUuid nextUuid' cancelled
  obtain h | h | h := (sideBySide_paired henv).runSpawned schedule (.inr (.inr hinit))
  · exact absurd hf h
  · exact absurd hf' h
  · exact h

end Superstep

end Juncture
