import Juncture.Pregel.Collector
import Juncture.Pregel.Loop
import Mathlib.Data.List.Perm.Basic

/-!
# Every task has one output

A superstep that does not fail has run each of its tasks to the end exactly once, in some order; and
the outputs are those of the completions.  So, whatever the interleaving, a node has as many outputs
as it had tasks.

* `OneEach` : no task completes twice, and only a completed task is finished.
* `runTasks_names` : the nodes of the outputs of a superstep.
-/

namespace Juncture

variable {S σ : Type} [State S]

namespace Superstep

/-- A task is finished exactly when it has completed, and it completes once. -/
structure OneEach (env : SpawnEnv S σ) (e : Superstep S σ) : Prop where
  /-- No task completes twice. -/
  nodup : (e.completed.map Prod.fst).Nodup
  /-- A task that has completed is finished. -/
  finished : ∀ i ∈ e.completed.map Prod.fst, e.phase i = .finished
  /-- A task is finished by completing. -/
  completed : e.spawnError = none → ∀ i < env.tasks.length, e.phase i = .finished →
    i ∈ e.completed.map Prod.fst

variable {env : SpawnEnv S σ} {e e' : Superstep S σ} {i : ℕ}

/-- A move that leaves the task unfinished. -/
theorem OneEach.of_phase (h : OneEach env e) {ph : TaskPhase S} (hi : e.phase i ≠ .finished)
    (hph : ph ≠ .finished) (hphase : e'.phase = (e.setPhase i ph).phase)
    (hc : e'.completed = e.completed) (hs : e'.spawnError = e.spawnError) : OneEach env e' where
  nodup := by rw [hc]; exact h.nodup
  finished j hj := by
    rw [hc] at hj
    have hji : j ≠ i := by
      rintro rfl
      exact hi (h.finished j hj)
    rw [hphase, setPhase_phase, if_neg hji]
    exact h.finished j hj
  completed hnone j hj hfin := by
    rw [hphase, setPhase_phase] at hfin
    rw [hc]
    split_ifs at hfin
    · exact absurd hfin hph
    · exact h.completed (hs ▸ hnone) j hj hfin

/-- A task returns. -/
theorem OneEach.complete (h : OneEach env e) (hi : e.phase i ≠ .finished)
    (r : Except JunctureError (Command S)) : OneEach env (e.complete i r) where
  nodup := by
    have hnew : i ∉ e.completed.map Prod.fst := fun hmem => hi (h.finished i hmem)
    simpa [Superstep.complete] using List.nodup_append.2
      ⟨h.nodup, List.nodup_singleton i, fun a ha b hb => by
        obtain rfl := List.mem_singleton.1 hb
        exact fun hab => hnew (hab ▸ ha)⟩
  finished j hj := by
    rw [complete_phase]
    split_ifs with hji
    · rfl
    · have hj : j ∈ e.completed.map Prod.fst ∨ j = i := by simpa [Superstep.complete] using hj
      exact h.finished j (hj.resolve_right hji)
  completed hnone j hj hfin := by
    rw [complete_phase] at hfin
    have hmem : j ∈ e.completed.map Prod.fst ∨ j = i := by
      by_cases hji : j = i
      · exact .inr hji
      · rw [if_neg hji] at hfin
        exact .inl (h.completed hnone j hj hfin)
    simpa [Superstep.complete] using hmem

theorem OneEach.move [InterruptHash] (h : OneEach env e) (hm : Move env e e') : OneEach env e' := by
  cases hm with
  | start i p hp => exact h.of_phase (i := i) (by simp [hp]) (by simp) rfl rfl rfl
  | cut i p err hp =>
    refine h.complete ?_ _
    rcases hp with hp | hp
    · simp [hp]
    · simp [hp]
  | done i r hp => exact h.complete (by simp [hp]) r
  | read i k hp => exact h.of_phase (i := i) (by simp [hp]) (by simp) rfl rfl rfl
  | retry i error k hp => exact h.of_phase (i := i) (by simp [hp]) (by simp) rfl rfl rfl
  | answer i payload id k value hp =>
    exact h.of_phase (i := i) (by simp [hp]) (by simp) rfl rfl rfl
  | raise i payload id k hp => exact h.of_phase (i := i) (by simp [hp]) (by simp) rfl rfl rfl
  | send i signal p hp => exact h.of_phase (i := i) (by simp [hp]) (by simp) rfl rfl rfl
  | spawnFail err hs => exact ⟨h.nodup, h.finished, h.completed⟩
  | join i r task hs hc ht =>
    obtain ⟨_, _, _, _, _, hcol⟩ := collect_eq env { e with joined := e.joined + 1 } task r
    rw [hcol]
    exact ⟨h.nodup, h.finished, h.completed⟩

theorem OneEach.step [InterruptHash] (h : OneEach env e) (c : Choice) :
    OneEach env (e.step env c) := by
  rcases step_move env e c with he | ⟨-, hm⟩ | ⟨-, -, he⟩
  · rw [he]; exact h
  · exact h.move hm
  · rw [he]; exact ⟨h.nodup, h.finished, h.completed⟩

theorem length_spawnTasks {env : RunnerEnv S σ} {state : S} {tasks : List (PendingTask S)}
    (h : (spawnTasks env state tasks).2 = none) :
    (spawnTasks env state tasks).1.length = tasks.length := by
  induction tasks with
  | nil => rfl
  | cons task tasks ih =>
    cases hp : env.taskProg state task with
    | error err => simp [spawnTasks, hp] at h
    | ok p =>
      simp only [spawnTasks, hp] at h ⊢
      simp [ih h]

theorem oneEach_init (env : SpawnEnv S σ) (state : S) (store : σ) (nextUuid : Uuid)
    (cancelled : Bool) : OneEach env (.init env state store nextUuid cancelled) where
  nodup := by simp [init]
  finished i hi := by simp [init] at hi
  completed hnone i hi hfin := by
    -- Every task has been spawned, so none of them is finished.
    have hlt : i < (spawnTasks env.toRunnerEnv state env.tasks).1.length := by
      rw [length_spawnTasks hnone]
      exact hi
    simp [init, List.getElem?_eq_getElem hlt] at hfin

variable [InterruptHash] {state : S} {store : σ} {nextUuid : Uuid} {cancelled : Bool}
  {schedule : List Choice}

/-- **Every task of a superstep that does not fail completes exactly once.** -/
theorem completed_perm (hf : (runSpawned env state store nextUuid cancelled schedule).failure = none) :
    ((runSpawned env state store nextUuid cancelled schedule).completed.map Prod.fst).Perm
      (List.range env.tasks.length) := by
  obtain ⟨hset, hfin⟩ := runSpawned_ends hf
  have hone : OneEach env (runSpawned env state store nextUuid cancelled schedule) :=
    invariant_runSpawned (fun _ c _ h => h.step c) (oneEach_init env state store nextUuid cancelled)
  refine (List.perm_ext_iff_of_nodup hone.nodup List.nodup_range).2 fun i => ?_
  rw [List.mem_range]
  constructor
  · intro hi
    obtain ⟨c, hc, rfl⟩ := List.mem_map.1 hi
    exact hset.completed c hc
  · exact fun hi => hone.completed hset.spawnError i hi (hfin i)

omit [InterruptHash] in
/-- An output bears the name of the node of its task. -/
theorem names_of_outputs {cs : List (Completion S)} {os : List (TaskOutput S)}
    (h : List.Forall₂ env.OutputFrom cs os) :
    os.map (fun o => some o.nodeName) =
      cs.map fun c => env.tasks[c.1]?.map PendingTask.nodeName := by
  induction h with
  | nil => rfl
  | @cons c o cs os hco _ ih =>
    obtain ⟨task, ht, hout⟩ := hco
    have hname : o.nodeName = task.nodeName := by
      cases hr : c.2 with
      | ok command =>
        rw [hr] at hout
        rw [hout]
        rfl
      | error err =>
        rw [hr] at hout
        obtain ⟨id, rfl⟩ := hout
        rfl
    rw [List.map_cons, List.map_cons, ih, ht, hname]
    rfl

/-- The outputs of a superstep that does not fail are for the nodes of its tasks. -/
theorem names_runSpawned (hf : (runSpawned env state store nextUuid cancelled schedule).failure = none) :
    ((runSpawned env state store nextUuid cancelled schedule).outputs.map
      TaskOutput.nodeName).Perm (env.tasks.map PendingTask.nodeName) := by
  have hnames := names_of_outputs (outputs_runSpawned hf)
  have hperm := (completed_perm hf).map fun i => env.tasks[i]?.map PendingTask.nodeName
  have htasks : (List.range env.tasks.length).map
      (fun i => env.tasks[i]?.map PendingTask.nodeName) =
        env.tasks.map fun t => some t.nodeName := by
    refine List.ext_getElem (by simp) fun i h₁ h₂ => ?_
    have hi : i < env.tasks.length := by simpa using h₂
    simp [List.getElem?_eq_getElem hi]
  rw [List.map_map, htasks] at hperm
  refine (List.map_perm_map_iff (Option.some_injective String)).1 ?_
  rw [List.map_map, List.map_map]
  exact hnames ▸ hperm

end Superstep

namespace PregelLoop

/-- **The outputs of a superstep are for the nodes of its tasks.** -/
theorem runTasks_names [InterruptHash] {l : PregelLoop S σ} {round : Round S}
    {result : SuperstepResult S} (h : (l.runTasks round).result = .ok result) :
    (result.taskOutputs.map TaskOutput.nodeName).Perm
      (l.pendingTasks.map PendingTask.nodeName) := by
  unfold runTasks Juncture.executeSuperstep at h
  split_ifs at h with hempty
  · cases h
    rw [List.isEmpty_iff.1 hempty]
    exact .nil
  · split at h
    · rename_i task hinline
      obtain ⟨p, command, -, -, rfl, -⟩ := executeInline_eq_ok h
      rw [(inlineTask_eq_some_iff.1 hinline).1]
      exact .refl _
    · obtain ⟨hf, rfl⟩ := Superstep.outcome_eq_ok_iff.1 h
      exact Superstep.names_runSpawned hf

end PregelLoop

end Juncture
