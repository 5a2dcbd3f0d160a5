import Mathlib.Data.List.Forall2
import Juncture.Pregel.RunnerSpec

/-!
# The collector

The collector of a superstep joins the tasks in completion order, persists what they wrote and turns
what they returned into outputs.  `Collected` ties its progress to the completions: it has got
through them as long as every failure is of a node with a recovery (`Recovered`) and the saver
accepts what it is given (`persistAll`), and its outputs are those of the completions (`OutputFrom`).

* `failure_runSpawned_eq_none_iff` : when a superstep does not fail.
* `outputs_runSpawned` : what it returns then.
-/

namespace Juncture

variable {S σ : Type} [State S]

/-- A task position with what the task returned. -/
abbrev Completion (S : Type) [State S] := ℕ × Except JunctureError (Command S)

namespace SpawnEnv

variable (env : SpawnEnv S σ)

/-- The task succeeded, or its node has a recovery. -/
def Recovered (c : Completion S) : Prop :=
  ∀ err task, c.2 = .error err → env.tasks[c.1]? = some task → env.recovers task.nodeName = true

/-- The saver is given what a task wrote, or the markers of its failure; the store and the next
identifier after it has accepted. -/
def persist (p : σ × Uuid) (c : Completion S) : Option (σ × Uuid) :=
  match env.tasks[c.1]?, c.2 with
  | some task, .ok command =>
    match persistWrites env.toRunnerEnv (successOutput task command) p.1 with
    | (store, .ok ()) => some (store, p.2)
    | (_, .error _) => none
  | some task, .error err =>
    match persistMarkers env.toRunnerEnv task.nodeName err p.2 p.1 with
    | (store, .ok ()) => some (store, (if env.checkpointer.isSome then p.2 + 1 else p.2) + 1)
    | (_, .error _) => none
  | none, _ => some p

/-- The saver is given everything in completion order. -/
def persistAll (p : σ × Uuid) (cs : List (Completion S)) : Option (σ × Uuid) :=
  cs.foldlM env.persist p

/-- The output of a completion. -/
def OutputFrom (c : Completion S) (o : TaskOutput S) : Prop :=
  ∃ task, env.tasks[c.1]? = some task ∧
    match c.2 with
    | .ok command => o = successOutput task command
    | .error err => ∃ id, o = failedOutput id task.nodeName err

end SpawnEnv

namespace Superstep

variable {env : SpawnEnv S σ} {e e' : Superstep S σ} {p : σ × Uuid}

/-- What the collector has done with the first completions, starting from store and identifier `p`:
all is well, or the superstep has failed because it could not be. -/
structure Collected (env : SpawnEnv S σ) (p : σ × Uuid) (e : Superstep S σ) : Prop where
  /-- It got through them. -/
  well : e.failure = none →
    (∀ c ∈ e.completed.take e.joined, env.Recovered c) ∧
      env.persistAll p (e.completed.take e.joined) = some (e.store, e.nextUuid) ∧
      List.Forall₂ env.OutputFrom (e.completed.take e.joined) e.outputs
  /-- It did not. -/
  failed : e.failure ≠ none → e.spawnError ≠ none ∨
    (∃ c ∈ e.completed, ¬ env.Recovered c) ∨ env.persistAll p e.completed = none

theorem persistAll_append (cs ds : List (Completion S)) :
    env.persistAll p (cs ++ ds) = (env.persistAll p cs).bind fun q => env.persistAll q ds := by
  unfold SpawnEnv.persistAll
  rw [List.foldlM_append]
  rfl

/-- The collector on one completion. -/
theorem collect_cases (e : Superstep S σ) {i : ℕ} {task : PendingTask S}
    (r : Except JunctureError (Command S)) (ht : env.tasks[i]? = some task) :
    (env.Recovered (i, r) ∧ ∃ o, env.OutputFrom (i, r) o ∧
      ∃ store uuid, env.persist (e.store, e.nextUuid) (i, r) = some (store, uuid) ∧
        e.collect env task r =
          { e with store := store, nextUuid := uuid, outputs := e.outputs ++ [o] }) ∨
    ((¬ env.Recovered (i, r) ∨ env.persist (e.store, e.nextUuid) (i, r) = none) ∧
      (e.collect env task r).failure ≠ none) := by
  cases r with
  | ok command =>
    have hrec : env.Recovered (i, .ok command) := fun err task h => nomatch h
    rcases hput : persistWrites env.toRunnerEnv (successOutput task command) e.store with
      ⟨store, err | ⟨⟩⟩
    · simp only [collect, SpawnEnv.persist, ht, hput]
      exact .inr ⟨.inr trivial, by simp [fail]⟩
    · simp only [collect, SpawnEnv.persist, ht, hput]
      exact .inl ⟨hrec, successOutput task command, ⟨task, ht, rfl⟩, store, e.nextUuid, rfl, rfl⟩
  | error error =>
    have hrec : env.Recovered (i, .error error) ↔ env.recovers task.nodeName = true :=
      ⟨fun h => h error task rfl ht, fun h err task' _ ht' => by
        rw [ht] at ht'
        cases ht'
        exact h⟩
    rw [hrec]
    cases hr : env.recovers task.nodeName with
    | false =>
      simp only [collect, hr]
      exact .inr ⟨.inl (by simp), by simp [fail]⟩
    | true =>
      rcases hput : persistMarkers env.toRunnerEnv task.nodeName error e.nextUuid e.store with
        ⟨store, err | ⟨⟩⟩
      · simp only [collect, SpawnEnv.persist, ht, hr, hput, if_true]
        exact .inr ⟨.inr trivial, by simp [fail]⟩
      · simp only [collect, SpawnEnv.persist, ht, hr, hput, if_true]
        exact .inl ⟨trivial, _, ⟨task, ht, _, rfl⟩, store, _, rfl, rfl⟩

/-- A move that leaves the collector where it is; a task may return. -/
theorem Collected.of_frame (h : Collected env p e) (hw : WellFormed env e)
    (cs : List (Completion S)) (hc : e'.completed = e.completed ++ cs) (hj : e'.joined = e.joined)
    (hstore : e'.store = e.store) (huuid : e'.nextUuid = e.nextUuid)
    (hout : e'.outputs = e.outputs) (hf : e'.failure = e.failure)
    (hs : e'.spawnError = e.spawnError) : Collected env p e' where
  well hnone := by
    rw [hc, hj, List.take_append_of_le_length hw.joined, hstore, huuid, hout]
    exact h.well (hf ▸ hnone)
  failed hsome := by
    rw [hs, hc, persistAll_append]
    refine (h.failed (hf ▸ hsome)).imp_right (Or.imp ?_ ?_)
    · rintro ⟨c, hmem, hn⟩
      exact ⟨c, List.mem_append_left _ hmem, hn⟩
    · intro hn
      rw [hn]
      rfl

theorem Collected.move [InterruptHash] (h : Collected env p e) (hw : WellFormed env e)
    (hfail : e.failure = none) (hm : Move env e e') : Collected env p e' := by
  cases hm with
  | start i q hp => exact h.of_frame hw [] (by simp [setPhase]) rfl rfl rfl rfl rfl rfl
  | cut i q err hp => exact h.of_frame hw [(i, .error err)] rfl rfl rfl rfl rfl rfl rfl
  | done i r hp => exact h.of_frame hw [(i, r)] rfl rfl rfl rfl rfl rfl rfl
  | read i k hp => exact h.of_frame hw [] (by simp [setPhase]) rfl rfl rfl rfl rfl rfl
  | retry i error k hp =>
    exact h.of_frame hw [] (by simp [nextAttempt, setPhase]) rfl rfl rfl rfl rfl rfl
  | answer i payload id k value hp =>
    exact h.of_frame hw [] (by simp [nextIndex, setPhase]) rfl rfl rfl rfl rfl rfl
  | raise i payload id k hp =>
    exact h.of_frame hw [] (by simp [nextIndex, setPhase]) rfl rfl rfl rfl rfl rfl
  | send i signal q hp =>
    exact h.of_frame hw [] (by simp [sendInterrupt, setPhase]) rfl rfl rfl rfl rfl rfl
  | spawnFail err hs =>
    exact ⟨fun hnone => absurd hnone (by simp), fun _ => .inl (by simp [hs])⟩
  | join i r task hs hc ht =>
    obtain ⟨hrec, hstore, hout⟩ := h.well hfail
    -- Only a join extends the prefix that has been collected.
    have htake : e.completed.take (e.joined + 1) = e.completed.take e.joined ++ [(i, r)] := by
      rw [List.take_add_one, hc]
      rfl
    have hpersist : env.persistAll p (e.completed.take (e.joined + 1)) =
        env.persist (e.store, e.nextUuid) (i, r) := by
      rw [htake, persistAll_append, hstore]
      simp [SpawnEnv.persistAll]
    obtain ⟨hr, o, ho, store, uuid, hp, heq⟩ | ⟨hbad, hf⟩ :=
      collect_cases { e with joined := e.joined + 1 } r ht
    · rw [heq]
      refine ⟨fun _ => ?_, fun hsome => absurd hfail hsome⟩
      dsimp only
      rw [hpersist, htake]
      refine ⟨fun c hmem => ?_, hp, List.rel_append hout (.cons ho .nil)⟩
      rcases List.mem_append.1 hmem with hmem | hmem
      · exact hrec c hmem
      · obtain rfl := List.mem_singleton.1 hmem
        exact hr
    · obtain ⟨_, _, _, _, _, hcol⟩ := collect_eq env { e with joined := e.joined + 1 } task r
      refine ⟨fun hnone => absurd hnone hf, fun _ => .inr ?_⟩
      have hcompleted : ({ e with joined := e.joined + 1 }.collect env task r).completed =
          e.completed := by rw [hcol]
      rw [hcompleted]
      refine hbad.imp (fun hn => ⟨(i, r), List.mem_of_getElem? hc, hn⟩) fun hn => ?_
      rw [← List.take_append_drop (e.joined + 1) e.completed, persistAll_append, hpersist]
      simp only at hn
      rw [hn]
      rfl

theorem Collected.step [InterruptHash] (h : Collected env p e) (hw : WellFormed env e)
    (c : Choice) : Collected env p (e.step env c) := by
  rcases step_move env e c with he | ⟨hf, hm⟩ | ⟨-, -, he⟩
  · rw [he]; exact h
  · exact h.move hw hf hm
  · rw [he]; exact ⟨h.well, h.failed⟩

section Run

variable [InterruptHash] {state : S} {store : σ} {nextUuid : Uuid} {cancelled : Bool}
  {schedule : List Choice}

theorem collected_runSpawned :
    Collected env (store, nextUuid)
      (runSpawned env state store nextUuid cancelled schedule) := by
  have hinit : Collected env (store, nextUuid) (.init env state store nextUuid cancelled) :=
    ⟨fun _ => ⟨by simp [init], rfl, .nil⟩, fun hsome => absurd rfl hsome⟩
  exact (invariant_runSpawned
    (I := fun e => WellFormed env e ∧ Collected env (store, nextUuid) e)
    (fun _ c _ h => ⟨h.1.step c, h.2.step h.1 c⟩)
    ⟨wellFormed_init env state store nextUuid cancelled, hinit⟩).2

/-- **When a superstep does not fail**: its nodes exist, the tasks that return an error have a
recovery, and the saver accepts what it is given. -/
theorem failure_runSpawned_eq_none_iff :
    (runSpawned env state store nextUuid cancelled schedule).failure = none ↔
      (runSpawned env state store nextUuid cancelled schedule).spawnError = none ∧
      (∀ c ∈ (runSpawned env state store nextUuid cancelled schedule).completed,
        env.Recovered c) ∧
      (env.persistAll (store, nextUuid)
        (runSpawned env state store nextUuid cancelled schedule).completed).isSome = true := by
  have hcol : Collected env (store, nextUuid)
    (runSpawned env state store nextUuid cancelled schedule) := collected_runSpawned
  constructor
  · intro hf
    obtain ⟨hset, -⟩ := runSpawned_ends hf
    obtain ⟨hrec, hstore, -⟩ := hcol.well hf
    rw [hset.allJoined, List.take_length] at hrec hstore
    exact ⟨hset.spawnError, hrec, by rw [hstore]; rfl⟩
  · rintro ⟨hs, hrec, hstore⟩
    by_contra hf
    obtain hs' | ⟨c, hmem, hn⟩ | hn := hcol.failed hf
    · exact hs' hs
    · exact hn (hrec c hmem)
    · rw [hn] at hstore
      cases hstore

/-- **The outputs of a superstep** are those of the completions, in completion order. -/
theorem outputs_runSpawned
    (hf : (runSpawned env state store nextUuid cancelled schedule).failure = none) :
    List.Forall₂ env.OutputFrom
      (runSpawned env state store nextUuid cancelled schedule).completed
      (runSpawned env state store nextUuid cancelled schedule).outputs := by
  have hcol : Collected env (store, nextUuid)
    (runSpawned env state store nextUuid cancelled schedule) := collected_runSpawned
  obtain ⟨-, -, hout⟩ := hcol.well hf
  rwa [(runSpawned_ends hf).1.allJoined, List.take_length] at hout

end Run

end Superstep

/-! ### Completions and their outputs -/

variable {env : SpawnEnv S σ} {cs : List (Completion S)} {os : List (TaskOutput S)}

theorem exists_completion (h : List.Forall₂ env.OutputFrom cs os) {o : TaskOutput S}
    (ho : o ∈ os) : ∃ c ∈ cs, env.OutputFrom c o := by
  induction h with
  | nil => cases ho
  | @cons c' o' cs os hco _ ih =>
    rcases List.mem_cons.1 ho with rfl | ho
    · exact ⟨c', by simp, hco⟩
    · obtain ⟨c, hc, hout⟩ := ih ho
      exact ⟨c, by simp [hc], hout⟩

end Juncture
