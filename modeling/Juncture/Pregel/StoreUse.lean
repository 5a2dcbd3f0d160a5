import Juncture.Graph.Drivers
import Juncture.Pregel.Frames
import Juncture.Pregel.RunnerSpec

/-!
# What a run does to the store

A loop reaches the store only through its saver, with configurations that name the thread and the
namespace of the run.  So whatever these calls preserve holds of the store all along the run.

* `RunnableConfig.place` : the thread and the namespace of a run.
* `CheckpointSaver.Keeps` : what all calls with configurations of one place preserve.
* `PregelLoop.Attains` : the loops of a run whose nodes may behave differently in each superstep, as nested
  subgraphs do.
* `PregelLoop.Uses.attains`, `PregelLoop.Uses.ending` : it holds of the store along every run.
-/

namespace Juncture

/-- Where a run keeps its checkpoints: the thread and the namespace. -/
def RunnableConfig.place (config : RunnableConfig) : Option String × Option String :=
  (config.threadId, config.checkpointNs)

/-- The calls of the saver with configurations of the given place preserve `I`. -/
structure CheckpointSaver.Keeps {σ : Type} (cp : CheckpointSaver σ)
    (place : Option String × Option String) (I : σ → Prop) : Prop where
  getTuple : ∀ {store config}, config.place = place → I store → I (cp.getTuple store config).1
  put : ∀ {store config checkpoint metadata}, config.place = place → I store →
    I (cp.put store config checkpoint metadata).1
  putWrites : ∀ {store config writes taskId}, config.place = place → I store →
    I (cp.putWrites store config writes taskId).1

section Runner

variable {S σ : Type} [State S] {place : Option String × Option String} {I : σ → Prop}

/-- The runner has a saver that keeps `I`. -/
structure RunnerEnv.Uses (env : RunnerEnv S σ) (place : Option String × Option String)
    (I : σ → Prop) : Prop where
  saver : ∀ cp, env.checkpointer = some cp → cp.Keeps place I
  config : env.config.place = place

namespace RunnerEnv

variable {env : RunnerEnv S σ} {store : σ}

theorem Uses.persistWrites (h : env.Uses place I) (o : TaskOutput S) (hstore : I store) :
    I (persistWrites env o store).1 := by
  unfold Juncture.persistWrites
  split
  · rename_i cp update hcp _
    dsimp only
    split_ifs
    · exact hstore
    · exact (h.saver cp hcp).putWrites h.config hstore
  · exact hstore

theorem Uses.persistMarkers (h : env.Uses place I) (nodeName : String) (error : JunctureError)
    (markerId : Uuid) (hstore : I store) :
    I (persistMarkers env nodeName error markerId store).1 := by
  unfold Juncture.persistMarkers
  split
  · rename_i cp hcp
    exact (h.saver cp hcp).putWrites h.config hstore
  · exact hstore

theorem Uses.executeInline (h : env.Uses place I) (state : S) (task : PendingTask S) (nextUuid : Uuid)
    (cancelled : Bool) (hstore : I store) :
    I (executeInline env state task store nextUuid cancelled).store := by
  unfold Juncture.executeInline
  split
  · exact hstore
  · split_ifs
    · exact hstore
    · rename_i p _ _
      unfold settleInline
      split
      · exact hstore
      · rename_i command _
        have hwrites := h.persistWrites (successOutput task command) hstore
        dsimp only
        split <;> rename_i heq <;> rw [heq] at hwrites <;> exact hwrites

end RunnerEnv

namespace Superstep

variable {env : SpawnEnv S σ} {e : Superstep S σ}

theorem store_collect (h : env.toRunnerEnv.Uses place I) (task : PendingTask S)
    (r : Except JunctureError (Command S)) (he : I e.store) : I (e.collect env task r).store := by
  cases r with
  | ok command =>
    have hwrites := h.persistWrites (successOutput task command) he
    simp only [collect]
    split <;> rename_i heq <;> rw [heq] at hwrites <;> exact hwrites
  | error error =>
    have hmarkers := h.persistMarkers task.nodeName error e.nextUuid he
    simp only [collect]
    split
    · split <;> rename_i heq <;> rw [heq] at hmarkers <;> exact hmarkers
    · exact he

variable [InterruptHash]

/-- Only the collector touches the store. -/
theorem store_step (h : env.toRunnerEnv.Uses place I) (c : Choice) (he : I e.store) :
    I (e.step env c).store := by
  obtain heq | ⟨-, hm⟩ | ⟨-, -, heq⟩ := step_move env e c
  · rw [heq]
    exact he
  · generalize e.step env c = e' at hm
    cases hm with
    | join i r task hs hcompleted ht =>
      exact store_collect (e := { e with joined := e.joined + 1 }) h task r he
    | _ => exact he
  · rw [heq]
    exact he

end Superstep

/-- The store after the tasks of a superstep. -/
theorem RunnerEnv.Uses.executeSuperstep [InterruptHash] {env : RunnerEnv S σ} {store : σ}
    (h : env.Uses place I) (tasks : List (PendingTask S)) (state : S)
    (pendingInterrupts : List InterruptSignal) (scratchpad : Scratchpad) (nextUuid : Uuid)
    (cancelled : Bool) (schedule : List Choice) (hstore : I store) :
    I (executeSuperstep env tasks state pendingInterrupts scratchpad store nextUuid cancelled
      schedule).store := by
  unfold Juncture.executeSuperstep
  split_ifs
  · exact hstore
  · split
    · exact h.executeInline state _ nextUuid cancelled hstore
    · exact Superstep.invariant_runSpawned (I := fun e => I e.store)
        (fun e c _ he => Superstep.store_step h c he) hstore

end Runner

namespace PregelLoop

variable {S σ : Type} [State S] {l l' : PregelLoop S σ} {place : Option String × Option String}
  {I : σ → Prop}

/-- How the loop reaches the store. -/
structure Footprint (σ : Type) where
  /-- The saver. -/
  checkpointer : Option (CheckpointSaver σ)
  /-- The thread and the namespace of the run. -/
  place : Option String × Option String
  /-- Writes handed to background tasks. -/
  backgroundPuts : List (RunnableConfig × Checkpoint × CheckpointMetadata)
  /-- The store. -/
  store : σ

/-- How the loop reaches the store. -/
def footprint (l : PregelLoop S σ) : Footprint σ :=
  ⟨l.checkpointer, l.runnableConfig.place, l.backgroundPuts, l.store⟩

/-- The store is as `I` says, and everything the loop will do to it preserves that. -/
structure Uses (l : PregelLoop S σ) (place : Option String × Option String) (I : σ → Prop) : Prop where
  saver : ∀ cp, l.checkpointer = some cp → cp.Keeps place I
  config : l.runnableConfig.place = place
  background : ∀ b ∈ l.backgroundPuts, b.1.place = place
  store : I l.store

/-- With another store. -/
theorem Uses.setStore (h : l.Uses place I) {store : σ} (hstore : I store)
    (heq : l'.footprint = { l.footprint with store }) : l'.Uses place I := by
  have hcp : l'.checkpointer = l.checkpointer := congrArg Footprint.checkpointer heq
  have hputs : l'.backgroundPuts = l.backgroundPuts := congrArg Footprint.backgroundPuts heq
  have hsame : l'.store = store := congrArg Footprint.store heq
  exact {
    saver := by rw [hcp]; exact h.saver
    config := (congrArg Footprint.place heq).trans h.config
    background := by rw [hputs]; exact h.background
    store := by rw [hsame]; exact hstore }

theorem Uses.congr (h : l.Uses place I) (heq : l'.footprint = l.footprint) : l'.Uses place I :=
  h.setStore h.store heq

theorem Uses.andThen {α β : Type} {r : PregelLoop S σ × Except JunctureError α}
    {f : PregelLoop S σ → α → PregelLoop S σ × Except JunctureError β} (h : r.1.Uses place I)
    (hf : ∀ l a, l.Uses place I → (f l a).1.Uses place I) : (andThen r f).1.Uses place I := by
  obtain ⟨l, e | a⟩ := r
  · exact h
  · exact hf l a h

/-! ### Before `after_tick` -/

theorem Uses.outside (h : l.Uses place I) (round : Round S) : (l.outside round).Uses place I := by
  have hwrites : ∀ (is : List ℕ) (k : PregelLoop S σ), k.Uses place I →
      (is.foldl completeWrite k).Uses place I := by
    intro is
    induction is with
    | nil => exact fun k hk => hk
    | cons i is ih =>
      intro k hk
      refine ih _ ?_
      unfold completeWrite
      split
      · rename_i cp config checkpoint metadata hcp hput
        have hplace := hk.background _ (List.mem_of_getElem? hput)
        exact {
          saver := hk.saver
          config := hk.config
          background := fun b hb => hk.background b (List.mem_of_mem_eraseIdx hb)
          store := (hk.saver cp hcp).put hplace hk.store }
      · exact hk
  exact (hwrites round.writes l h).congr rfl

theorem footprint_finishAllChannels (l : PregelLoop S σ) : l.finishAllChannels.footprint = l.footprint := by
  unfold finishAllChannels
  split_ifs <;> rfl

variable [InterruptHash]

theorem footprint_tick (l : PregelLoop S σ) : l.tick.1.footprint = l.footprint := by
  unfold tick
  split
  · exact footprint_finishAllChannels _
  · split
    · exact footprint_finishAllChannels _
    · split
      · exact footprint_finishAllChannels _
      · split
        · exact footprint_finishAllChannels l
        · split
          · exact footprint_finishAllChannels _
          · rfl

omit [InterruptHash] in
theorem footprint_prepare (l : PregelLoop S σ) : l.prepare.1.footprint = l.footprint := by
  unfold prepare
  split
  · rfl
  · dsimp only [checkCircuitBreakers]
    split_ifs <;> rfl

theorem Uses.runPrepared (h : l.Uses place I) (round : Round S) (blocked : List (TaskOutput S)) :
    (l.runPrepared round blocked).1.Uses place I := by
  have henv : l.runnerEnv.Uses place I := ⟨h.saver, h.config⟩
  have hstore : I (l.runTasks round).store := henv.executeSuperstep _ _ _ _ _ _ _ h.store
  unfold PregelLoop.runPrepared
  dsimp only
  split <;> exact h.setStore hstore rfl

theorem Uses.executeSuperstep (h : l.Uses place I) (round : Round S) :
    (l.executeSuperstep round).1.Uses place I :=
  Uses.andThen (h.congr l.footprint_prepare) fun _ blocked hk => hk.runPrepared round blocked

/-! ### In `after_tick` -/

omit [InterruptHash] in
theorem footprint_mergeWrites (l : PregelLoop S σ) (outputs : List (TaskOutput S)) :
    (l.mergeWrites outputs).1.footprint = l.footprint := by
  unfold mergeWrites
  dsimp only
  split
  · rfl
  · split <;> rfl

omit [InterruptHash] in
theorem Uses.scheduleTasks (h : l.Uses place I) (outputs : List (TaskOutput S)) :
    (l.scheduleTasks outputs).1.Uses place I := by
  have hstore : I l.persistedWrites.1 := by
    unfold persistedWrites
    split
    · exact h.store
    · rename_i cp hcp
      have hget := (h.saver cp hcp).getTuple h.config h.store
      split_ifs
      · exact h.store
      · split <;> rename_i heq <;> rw [heq] at hget <;> exact hget
  unfold PregelLoop.scheduleTasks
  split
  · exact h
  · exact h.setStore hstore rfl

omit [InterruptHash] in
theorem Uses.putCheckpoint (h : l.Uses place I) {cp : CheckpointSaver σ}
    (hcp : l.checkpointer = some cp) (c : Checkpoint) (m : CheckpointMetadata) :
    (l.putCheckpoint cp c m).1.Uses place I := by
  have hput : I (cp.put l.store l.runnableConfig c m).1 := (h.saver cp hcp).put h.config h.store
  unfold PregelLoop.putCheckpoint
  split <;> rename_i heq <;> rw [heq] at hput <;> exact h.setStore hput rfl

omit [InterruptHash] in
theorem Uses.writeCheckpoint (h : l.Uses place I) {cp : CheckpointSaver σ}
    (hcp : l.checkpointer = some cp) (c : Checkpoint) (m : CheckpointMetadata) :
    (l.writeCheckpoint cp c m).1.Uses place I := by
  unfold PregelLoop.writeCheckpoint
  split
  · refine ⟨h.saver, h.config, fun b hb => ?_, h.store⟩
    rcases List.mem_append.1 hb with hb | hb
    · exact h.background b hb
    · cases List.mem_singleton.1 hb
      exact h.config
  all_goals exact Uses.andThen (h.putCheckpoint hcp c m) fun k _ hk => hk.congr rfl

omit [InterruptHash] in
theorem Uses.saveInterruptCheckpoint (h : l.Uses place I) :
    l.saveInterruptCheckpoint.1.Uses place I := by
  unfold PregelLoop.saveInterruptCheckpoint
  split
  · rename_i cp values hcp _
    exact h.writeCheckpoint hcp _ _
  · exact h

omit [InterruptHash] in
theorem Uses.saveSuperstepCheckpoint (h : l.Uses place I) :
    l.saveSuperstepCheckpoint.1.Uses place I := by
  unfold PregelLoop.saveSuperstepCheckpoint
  split_ifs
  · exact h
  · split
    · rename_i cp values hcp _
      exact h.writeCheckpoint hcp _ _
    · exact h

omit [InterruptHash] in
theorem Uses.saveExitCheckpoint (h : l.Uses place I) : l.saveExitCheckpoint.Uses place I := by
  unfold PregelLoop.saveExitCheckpoint
  split
  · rename_i cp values hcp _
    exact h.putCheckpoint hcp _ _
  · exact h

omit [InterruptHash] in
theorem Uses.stop (h : l.Uses place I) : l.stop.1.Uses place I := by
  unfold PregelLoop.stop
  split_ifs
  · exact Uses.andThen h.saveInterruptCheckpoint fun k _ hk => hk.congr k.footprint_finishAllChannels
  · exact h.congr l.footprint_finishAllChannels

omit [InterruptHash] in
theorem Uses.countStep (h : l.Uses place I) : l.countStep.Uses place I := by
  have hfinish := h.congr l.footprint_finishAllChannels
  unfold PregelLoop.countStep
  dsimp only
  split_ifs
  · exact hfinish.saveExitCheckpoint.congr rfl
  · exact hfinish.congr rfl
  · exact h.congr rfl

theorem Uses.finishTick (h : l.Uses place I) (bubbleUps : List (BubbleUp S)) :
    (l.finishTick bubbleUps).1.Uses place I := by
  have hreported : (l.reported bubbleUps).1.Uses place I := by
    obtain ⟨_, _, _, _, heq⟩ := l.reported_eq bubbleUps
    rw [heq]
    exact h.congr rfl
  unfold PregelLoop.finishTick
  dsimp only
  split_ifs
  · exact hreported.stop
  · split
    · exact Uses.stop (hreported.congr rfl)
    · exact hreported.countStep
  · exact Uses.stop (h.congr rfl)

theorem Uses.afterTick (h : l.Uses place I) (result : SuperstepResult S) :
    (l.afterTick result).1.Uses place I := by
  refine Uses.andThen (h.congr (l.footprint_mergeWrites _)) fun k changed hk => ?_
  have hcommit : (k.commitWrites l.fieldVersions.versions changed result.taskOutputs).Uses place I :=
    hk.congr rfl
  refine Uses.andThen (hcommit.scheduleTasks _) fun k _ hk => ?_
  have hchanged : { k with previousSuperstepChangedFields := changed }.Uses place I := hk.congr rfl
  exact Uses.andThen hchanged.saveSuperstepCheckpoint fun k _ hk => hk.finishTick _

/-! ### Along a run -/

/-- The loop with other nodes. -/
def withNodes (l : PregelLoop S σ) (nodes : Dict (Node S)) : PregelLoop S σ := { l with nodes }

omit [InterruptHash] in
theorem Uses.withNodes (h : l.Uses place I) (nodes : Dict (Node S)) : (l.withNodes nodes).Uses place I :=
  h.congr rfl

/-- The loops of a run from `l₀`, with the status after each superstep.  The nodes may behave
differently in each superstep, as nested subgraphs do. -/
inductive Attains (l₀ : PregelLoop S σ) : List LoopStatus → PregelLoop S σ → Prop
  | start : Attains l₀ [] l₀
  | turn {statuses : List LoopStatus} {l l' : PregelLoop S σ} (h : Attains l₀ statuses l)
    (nodes : Dict (Node S)) (round : Round S) (hturn : (l.withNodes nodes).turn round = some l') :
    Attains l₀ (statuses ++ [l'.status]) l'

/-- The run from `l₀` ends at `l`. -/
def Ends (l₀ : PregelLoop S σ) (statuses : List LoopStatus) (l : PregelLoop S σ) (e : Ending) : Prop :=
  ∃ k nodes round, l₀.Attains statuses k ∧ (k.withNodes nodes).ending round = some (l, e)

variable {l₀ : PregelLoop S σ} {statuses : List LoopStatus}

theorem Uses.turn (h : l.Uses place I) {round : Round S} (hturn : l.turn round = some l') :
    l'.Uses place I := by
  obtain ⟨l₁, result, hs, ha⟩ := turn_eq_some_iff.1 hturn
  obtain ⟨-, r, hexec, -⟩ := superstep_eq_some_iff.1 hs
  have hran := (h.outside round).executeSuperstep round
  rw [hexec] at hran
  have hafter := hran.afterTick result
  rw [ha] at hafter
  exact hafter

/-- **What all calls of the saver preserve holds of the store all along a run.** -/
theorem Uses.attains (h : l₀.Uses place I) (hl : l₀.Attains statuses l) : l.Uses place I := by
  induction hl with
  | start => exact h
  | turn _ nodes round hturn ih => exact (ih.withNodes nodes).turn hturn

/-- The same at its end. -/
theorem Uses.ends (h : l₀.Uses place I) {e : Ending} (hl : l₀.Ends statuses l e) : l.Uses place I := by
  obtain ⟨k, nodes, round, hk, hend⟩ := hl
  have htick := (((h.attains hk).withNodes nodes).outside round).congr (footprint_tick _)
  unfold ending at hend
  split at hend
  · rename_i heq
    rw [heq] at htick
    cases hend
    exact htick
  · rename_i heq
    rw [heq] at htick
    cases hend
    exact htick
  · rename_i t heq
    rw [heq] at htick
    have hran := htick.executeSuperstep round
    split at hend
    · rename_i heq
      rw [heq] at hran
      cases hend
      exact hran
    · rename_i t' result heq
      rw [heq] at hran
      have hafter := hran.afterTick { result with bubbleUps := result.bubbleUps ++ round.bubbleUps }
      split at hend
      · rename_i heq
        rw [heq] at hafter
        cases hend
        exact hafter
      · cases hend

end PregelLoop

end Juncture
