import Juncture.Pregel.Completions
import Juncture.Pregel.Lockstep

/-!
# Tasks beside each other

A task that makes no `interrupt!()` call sees nothing of the tasks that run beside it.  All that a
schedule decides is the order in which such tasks complete.

* `runSpawned_of_mute` : what a superstep of such tasks leads to, under any schedule.
-/

namespace Juncture

variable {S σ : Type} [State S]

/-- What a task returns that makes no call. -/
def RunnerEnv.returns (env : RunnerEnv S σ) (state : S) (task : PendingTask S) :
    Except JunctureError (Command S) :=
  match env.taskProg state task with
  | .error e => .error e
  | .ok p => (p.solo env.locals [] 0).1

/-- The output of a task that makes no call. -/
def RunnerEnv.output (env : RunnerEnv S σ) (state : S) (task : PendingTask S) :
    Except JunctureError (TaskOutput S) :=
  (env.returns state task).map (successOutput task)

/-- The tasks make no calls, and nothing comes between them and the collector. -/
structure SpawnEnv.Mute (env : SpawnEnv S σ) (state : S) : Prop where
  /-- Nothing is persisted. -/
  checkpointer : env.checkpointer = none
  /-- No task is timed. -/
  timeouts : env.timeoutPolicies = ∅
  /-- No failure is recovered from. -/
  recovers : ∀ node, env.recovers node = false
  /-- No task makes a call. -/
  mute : ∀ task ∈ env.tasks, ∀ p, env.taskProg state task = .ok p → p.Mute

/-- Spawning stops at a task that cannot be run. -/
theorem exists_of_spawnError {env : RunnerEnv S σ} {state : S} {tasks : List (PendingTask S)}
    {e : JunctureError} (h : (spawnTasks env state tasks).2 = some e) :
    ∃ task ∈ tasks, env.returns state task = .error e := by
  induction tasks with
  | nil => cases h
  | cons task tasks ih =>
    cases hp : env.taskProg state task with
    | error e' =>
      simp only [spawnTasks, hp, Option.some.injEq] at h
      subst h
      exact ⟨task, List.mem_cons_self, by rw [RunnerEnv.returns, hp]⟩
    | ok p =>
      simp only [spawnTasks, hp] at h
      obtain ⟨task', hmem, htask'⟩ := ih h
      exact ⟨task', List.mem_cons_of_mem _ hmem, htask'⟩

/-- The items of a list, by position. -/
theorem filterMap_getElem? {α : Type} (l : List α) :
    ((List.range l.length).filterMap fun i => l[i]?) = l := by
  have hmap : (List.range l.length).map (fun i => l[i]?) = l.map some := by
    refine List.ext_getElem (by simp) fun i h₁ h₂ => ?_
    have hi : i < l.length := by simpa using h₂
    simp [List.getElem?_eq_getElem hi]
  calc ((List.range l.length).filterMap fun i => l[i]?)
      = ((List.range l.length).map fun i => l[i]?).filterMap id := by
        rw [List.filterMap_map]
        rfl
    _ = (l.map some).filterMap id := by rw [hmap]
    _ = l := by
        rw [List.filterMap_map]
        exact List.filterMap_some

namespace Superstep

variable {env : SpawnEnv S σ} {state : S} {e e' : Superstep S σ} {i : ℕ}

/-- The program belongs to a task, and leads where the task leads. -/
def LeadsOn (env : SpawnEnv S σ) (state : S) (i : ℕ) (p : NodeProg S) : Prop :=
  p.Mute ∧ ∃ task, env.tasks[i]? = some task ∧
    (p.solo env.locals [] 0).1 = env.returns state task

/-- What holds in a superstep of tasks that make no calls, as long as nobody cancels it. -/
structure Undeterred (env : SpawnEnv S σ) (state : S) (e : Superstep S σ) : Prop where
  /-- Each task is on its way. -/
  phase : ∀ i, match e.phase i with
    | .waiting p | .running p => LeadsOn env state i p
    | .sending _ _ => False
    | .finished => True
  /-- A task that has completed returned what it returns. -/
  completed : ∀ c ∈ e.completed, ∃ task, env.tasks[c.1]? = some task ∧ c.2 = env.returns state task
  /-- No signal has been sent. -/
  signals : e.signals = []
  /-- The token is cancelled by a failure only. -/
  calm : e.failure = none → e.cancelled = false
  /-- The failure is that of a task. -/
  failure : ∀ err, e.failure = some err →
    e.spawnError = some err ∨ ∃ c ∈ e.completed, c.2 = .error err

namespace Undeterred

/-- A task moves on. -/
theorem setPhase (h : Undeterred env state e) {p : NodeProg S} (hp : LeadsOn env state i p) :
    Undeterred env state (e.setPhase i (.running p)) where
  phase j := by
    rw [setPhase_phase]
    split_ifs with hji
    · exact hji ▸ hp
    · exact h.phase j
  completed := h.completed
  signals := h.signals
  calm := h.calm
  failure := h.failure

/-- A task returns. -/
theorem complete (h : Undeterred env state e) {r : Except JunctureError (Command S)}
    (hp : LeadsOn env state i (.done r)) : Undeterred env state (e.complete i r) where
  phase j := by
    rw [complete_phase]
    split_ifs
    · trivial
    · exact h.phase j
  completed c hc := by
    obtain hc | hc := List.mem_append.1 hc
    · exact h.completed c hc
    · obtain rfl := List.mem_singleton.1 hc
      exact hp.2
  signals := h.signals
  calm := h.calm
  failure err herr := (h.failure err herr).imp_right fun ⟨c, hc, hr⟩ =>
    ⟨c, List.mem_append_left _ hc, hr⟩

/-- The collector joins a task. -/
theorem collect (henv : env.Mute state) (h : Undeterred env state e)
    {r : Except JunctureError (Command S)} {task : PendingTask S}
    (hc : e.completed[e.joined]? = some (i, r)) :
    Undeterred env state ({ e with joined := e.joined + 1 }.collect env task r) := by
  cases r with
  | ok command =>
    have hput : persistWrites env.toRunnerEnv (successOutput task command) e.store =
        (e.store, .ok ()) := by
      unfold persistWrites
      rw [henv.checkpointer]
    simp only [Superstep.collect, hput]
    exact ⟨h.phase, h.completed, h.signals, h.calm, h.failure⟩
  | error err =>
    simp only [Superstep.collect, henv.recovers, Bool.false_eq_true, if_false]
    refine ⟨h.phase, h.completed, h.signals, ?_, ?_⟩
    · intro hnone
      cases hnone
    · intro err' herr'
      cases herr'
      exact .inr ⟨_, List.mem_of_getElem? hc, rfl⟩

variable [InterruptHash]

theorem move (henv : env.Mute state) (h : Undeterred env state e) (hf : e.failure = none)
    (hm : Move env e e') : Undeterred env state e' := by
  have hphase := h.phase
  cases hm with
  | start i p hp =>
    have hi := hphase i
    rw [hp] at hi
    exact h.setPhase hi
  | cut i p err hp hcut =>
    obtain ⟨hcancelled, -⟩ | ⟨t, te, -, hkey, -⟩ := hcut
    · rw [h.calm hf] at hcancelled
      cases hcancelled
    · rw [henv.timeouts] at hkey
      cases hkey
  | done i r hp =>
    have hi := hphase i
    rw [hp] at hi
    exact h.complete hi
  | read i k hp =>
    have hi := hphase i
    rw [hp] at hi
    exact h.setPhase ⟨hi.1 _, hi.2⟩
  | retry i error k hp =>
    have hi := hphase i
    rw [hp] at hi
    have hnext := h.setPhase (i := i) (p := k) hi
    exact ⟨hnext.phase, hnext.completed, hnext.signals, hnext.calm, hnext.failure⟩
  | answer i payload id k value hp hv =>
    have hi := hphase i
    rw [hp] at hi
    exact hi.1.elim
  | raise i payload id k hp hv =>
    have hi := hphase i
    rw [hp] at hi
    exact hi.1.elim
  | send i signal p hp =>
    have hi := hphase i
    rw [hp] at hi
    exact hi.elim
  | spawnFail err hs =>
    refine ⟨h.phase, h.completed, h.signals, ?_, ?_⟩
    · intro hnone
      cases hnone
    · intro err' herr'
      cases herr'
      exact .inl hs
  | join i r task hs hc ht => exact h.collect henv hc

theorem step (henv : env.Mute state) (h : Undeterred env state e) (c : Choice) (hc : c ≠ .cancel) :
    Undeterred env state (e.step env c) := by
  obtain he | ⟨hf, hm⟩ | ⟨hcancel, -⟩ := step_move env e c
  · rwa [he]
  · exact h.move henv hf hm
  · exact absurd hcancel hc

end Undeterred

/-- At the beginning. -/
theorem undeterred_init (henv : env.Mute state) (store : σ) (nextUuid : Uuid) :
    Undeterred env state (.init env state store nextUuid false) where
  phase i := by
    cases hp : (spawnTasks env.toRunnerEnv state env.tasks).1[i]? with
    | none =>
      have hphase : (init env state store nextUuid false).phase i = .finished := by
        simp only [init, hp]
      rw [hphase]
      trivial
    | some p =>
      have hphase : (init env state store nextUuid false).phase i = .waiting p := by
        simp only [init, hp]
      rw [hphase]
      obtain ⟨task, ht, hprog⟩ := spawnTasks_getElem? hp
      refine ⟨henv.mute task (List.mem_of_getElem? ht) p hprog, task, ht, ?_⟩
      rw [RunnerEnv.returns, hprog]
  completed c hc := by cases hc
  signals := rfl
  calm _ := rfl
  failure err herr := by cases herr

/-- The outputs of completions of tasks that make no calls. -/
theorem mapM_output (henv : env.Mute state) {cs : List (Completion S)} {os : List (TaskOutput S)}
    (h : List.Forall₂ env.OutputFrom cs os)
    (hcs : ∀ c ∈ cs, env.Recovered c ∧ ∃ task, env.tasks[c.1]? = some task ∧
      c.2 = env.returns state task) :
    (cs.filterMap fun c => env.tasks[c.1]?).mapM (env.output state) = .ok os := by
  induction h with
  | nil => rfl
  | @cons c o cs os hco _ ih =>
    obtain ⟨hrec, task, ht, hr⟩ := hcs c List.mem_cons_self
    obtain ⟨task', ht', hout⟩ := hco
    obtain rfl : task = task' := Option.some.inj (ht.symm.trans ht')
    have hok : env.output state task = .ok o := by
      rw [RunnerEnv.output, ← hr]
      cases hc : c.2 with
      | error err =>
        have hnot := hrec err task hc ht
        rw [henv.recovers] at hnot
        cases hnot
      | ok command =>
        rw [hc] at hout
        rw [hout]
        rfl
    rw [List.filterMap_cons_some (f := fun c : Completion S => env.tasks[c.1]?) ht, List.mapM_cons, hok]
    simp only [bind, Except.bind, pure, Except.pure,
      ih fun c' hc' => hcs c' (List.mem_cons_of_mem _ hc')]

variable [InterruptHash]

/-- **All that a schedule decides** is the order in which the tasks complete. -/
theorem runSpawned_of_mute (henv : env.Mute state) (store : σ) (nextUuid : Uuid)
    {schedule : List Choice} (hcancel : .cancel ∉ schedule) :
    ∃ order : List (PendingTask S), order.Perm env.tasks ∧
      match order.mapM (env.output state) with
      | .error err => (runSpawned env state store nextUuid false schedule).failure = some err
      | .ok outputs =>
        (runSpawned env state store nextUuid false schedule).failure = none ∧
        (runSpawned env state store nextUuid false schedule).outputs = outputs ∧
        (runSpawned env state store nextUuid false schedule).signals = [] ∧
        (runSpawned env state store nextUuid false schedule).cancelled = false := by
  have hinv : Undeterred env state (runSpawned env state store nextUuid false schedule) :=
    invariant_runSpawned (fun _ c hc h => h.step henv c fun heq => hcancel (hc heq))
      (undeterred_init henv store nextUuid)
  cases hf : (runSpawned env state store nextUuid false schedule).failure with
  | some err =>
    -- the task that has failed comes first
    have hfirst : ∃ task ∈ env.tasks, env.returns state task = .error err := by
      obtain hs | ⟨c, hc, hr⟩ := hinv.failure err hf
      · have hsame : (runSpawned env state store nextUuid false schedule).spawnError =
            (spawnTasks env.toRunnerEnv state env.tasks).2 :=
          invariant_runSpawned (I := fun e => e.spawnError =
            (spawnTasks env.toRunnerEnv state env.tasks).2)
            (fun _ c _ h => (step_spawnError c).trans h) rfl
        exact exists_of_spawnError (hsame.symm.trans hs)
      · obtain ⟨task, ht, hret⟩ := hinv.completed c hc
        exact ⟨task, List.mem_of_getElem? ht, hret.symm.trans hr⟩
    obtain ⟨task, hmem, hret⟩ := hfirst
    obtain ⟨before, after, htasks⟩ := List.append_of_mem hmem
    refine ⟨task :: (before ++ after), by rw [htasks]; exact List.perm_middle.symm, ?_⟩
    rw [List.mapM_cons, RunnerEnv.output, hret]
    rfl
  | none =>
    obtain ⟨-, hrec, -⟩ := failure_runSpawned_eq_none_iff.1 hf
    have hmap := mapM_output henv (outputs_runSpawned hf) fun c hc =>
      ⟨hrec c hc, hinv.completed c hc⟩
    refine ⟨_, ?_, by rw [hmap]; exact ⟨rfl, rfl, hinv.signals, hinv.calm hf⟩⟩
    have hperm := (completed_perm hf).filterMap fun i => env.tasks[i]?
    rw [List.filterMap_map] at hperm
    exact hperm.trans (.of_eq (filterMap_getElem? env.tasks))

end Superstep

end Juncture
