import Juncture.Pregel.Collector
import Juncture.Pregel.FailedOutputs
import Juncture.Pregel.Filing
import Juncture.Pregel.Frames

/-!
# Error handlers, once for each failure

A failure of a node with an error handler is seen twice: as the error of a task output, and as a
marker in the pending writes of the checkpoint.  `after_tick` schedules the handler for the output,
and leaves out the markers of nodes that have just failed; what keeps the marker from scheduling the
handler again one superstep later is that a new checkpoint has taken the place of the old one.

* `Tidy`, `Keeps` : what the loop does to the markers that it will find.
* `handledOnce_of_superseded` : when every failure is handled once.
-/

namespace Juncture

/-- No update serializes to an object with the reserved key of a marker. -/
def Unreserved (S : Type) [State S] : Prop :=
  ∀ (u : Update S) members, State.updateToValue u = .ok (.obj members) →
    ∀ m ∈ members, m.1 ≠ ERROR_SOURCE_NODE

variable {S σ : Type} [State S] {cp : CheckpointSaver σ} {good : σ → Prop}
  {filed : σ → Uuid → Set String}

theorem markedNodes_serializePendingWrites (h : Unreserved S) (taskId : Uuid) (u : Update S) :
    markedNodes (serializePendingWrites taskId u) = [] := by
  unfold serializePendingWrites markedNodes
  split
  · rename_i members hu
    have hno : (((members.filter fun m => m.2 != .null).map fun m =>
        (⟨taskId, m.1, m.2⟩ : PendingWrite)).filter fun w => w.channel == ERROR_SOURCE_NODE) = [] := by
      simp only [List.filter_eq_nil_iff, List.mem_map, List.mem_filter, beq_iff_eq]
      rintro w ⟨m, ⟨hm, -⟩, rfl⟩
      exact h u members hu m hm
    rw [hno]
    rfl
  · rfl

/-! ### The runner -/

/-- What the runner does to the store: it files under the checkpoint of the configuration, and only
the failures of the nodes `A`. -/
structure Adds (cp : CheckpointSaver σ) (good : σ → Prop) (filed : σ → Uuid → Set String)
    (c : RunnableConfig) (A : Set String) (p q : σ × Uuid) : Prop where
  sound : good p.1 → good q.1
  le : p.2 ≤ q.2
  elsewhere : ∀ i, c.checkpointId ≠ some i → filed q.1 i ⊆ filed p.1 i
  seen : good p.1 → ∀ c', marksSeen cp q.1 c' ⊆ marksSeen cp p.1 c' ∪ A

namespace Adds

variable {c : RunnableConfig} {A B : Set String} {p q r : σ × Uuid}

theorem refl (p : σ × Uuid) : Adds cp good filed c A p p where
  sound h := h
  le := le_rfl
  elsewhere _ _ _ h := h
  seen _ _ _ h := .inl h

theorem mono (h : Adds cp good filed c A p q) (hAB : A ⊆ B) : Adds cp good filed c B p q where
  sound := h.sound
  le := h.le
  elsewhere := h.elsewhere
  seen hg c' _ ha := (h.seen hg c' ha).imp_right fun ha => hAB ha

theorem trans (h : Adds cp good filed c A p q) (h' : Adds cp good filed c A q r) :
    Adds cp good filed c A p r where
  sound hg := h'.sound (h.sound hg)
  le := h.le.trans h'.le
  elsewhere i hi := (h'.elsewhere i hi).trans (h.elsewhere i hi)
  seen hg c' a ha := by
    obtain ha | ha := h'.seen (h.sound hg) c' ha
    · exact h.seen hg c' ha
    · exact .inr ha

theorem putWrites (hF : Filing cp good filed) {ws : List PendingWrite} {taskId : Uuid} {s s' : σ}
    {r : Except CheckpointError Unit} {u v : Uuid} (h : cp.putWrites s c ws taskId = (s', r))
    (huv : u ≤ v) (hws : ∀ a ∈ markedNodes ws, a ∈ A) : Adds cp good filed c A (s, u) (s', v) := by
  obtain rfl : (cp.putWrites s c ws taskId).1 = s' := congrArg Prod.fst h
  refine ⟨hF.good_putWrites s c ws taskId, huv, fun i hi a ha => ?_, fun hg c' a ha => ?_⟩
  · obtain ha | ⟨hc, -⟩ := hF.filed_putWrites s c ws taskId i ha
    · exact ha
    · exact absurd hc hi
  · exact (hF.seen_putWrites s c ws taskId c' hg ha).imp_right fun ha => hws a ha

end Adds

theorem adds_persistWrites (hF : Filing cp good filed) (hS : Unreserved S) {env : RunnerEnv S σ}
    (hcp : env.checkpointer = some cp) {o : TaskOutput S} {s s' : σ} {u : Uuid}
    {r : Except CheckpointError Unit} (h : persistWrites env o s = (s', r)) (A : Set String) :
    Adds cp good filed env.config A (s, u) (s', u) := by
  unfold persistWrites at h
  rw [hcp] at h
  split at h
  · rename_i cp' update hcp' hu
    cases hcp'
    dsimp only at h
    split_ifs at h with hempty
    · cases h
      exact .refl _
    · refine .putWrites hF h le_rfl fun a ha => ?_
      rw [markedNodes_serializePendingWrites hS] at ha
      cases ha
  · cases h
    exact .refl _

theorem adds_persistMarkers (hF : Filing cp good filed) {env : RunnerEnv S σ}
    (hcp : env.checkpointer = some cp) {nodeName : String} {error : JunctureError} {s s' : σ}
    {u v : Uuid} {r : Except CheckpointError Unit}
    (h : persistMarkers env nodeName error u s = (s', r)) (huv : u ≤ v) :
    Adds cp good filed env.config {nodeName} (s, u) (s', v) := by
  unfold persistMarkers at h
  rw [hcp] at h
  refine .putWrites hF h huv fun a ha => ?_
  simpa [markedNodes, ERROR_SOURCE_NODE, ERROR, Json.asStr] using ha

/-- The nodes of the outputs that failed. -/
def failedNodes (outputs : List (TaskOutput S)) : Set String :=
  {a | ∃ o ∈ outputs, Failed o ∧ o.nodeName = a}

/-- The saver is given one completion. -/
theorem adds_persist (hF : Filing cp good filed) (hS : Unreserved S) {env : SpawnEnv S σ}
    (hcp : env.checkpointer = some cp) {p q : σ × Uuid} {c : Completion S} {o : TaskOutput S}
    (h : env.persist p c = some q) (ho : env.OutputFrom c o) :
    Adds cp good filed env.config (failedNodes [o]) p q := by
  obtain ⟨i, r⟩ := c
  obtain ⟨task, htask, ho⟩ := ho
  unfold SpawnEnv.persist at h
  cases r with
  | ok command =>
    simp only [htask] at h
    split at h
    · rename_i store hput
      cases h
      exact adds_persistWrites hF hS hcp hput _
    · cases h
  | error error =>
    obtain ⟨id, rfl⟩ := ho
    simp only [htask] at h
    split at h
    · rename_i store hput
      cases h
      refine (adds_persistMarkers hF hcp hput ?_).mono ?_
      · split_ifs
        · exact Nat.le_succ_of_le (Nat.le_succ _)
        · exact Nat.le_succ _
      · rintro a rfl
        exact ⟨_, List.mem_singleton_self _, ⟨rfl, rfl⟩, rfl⟩
    · cases h

theorem adds_persistAll (hF : Filing cp good filed) (hS : Unreserved S) {env : SpawnEnv S σ}
    (hcp : env.checkpointer = some cp) {cs : List (Completion S)} {os : List (TaskOutput S)}
    (ho : List.Forall₂ env.OutputFrom cs os) : ∀ {p q : σ × Uuid}, env.persistAll p cs = some q →
      Adds cp good filed env.config (failedNodes os) p q := by
  induction ho with
  | nil =>
    intro p q h
    cases h
    exact .refl p
  | @cons c o cs os hco _ ih =>
    intro p q h
    unfold SpawnEnv.persistAll at h
    rw [List.foldlM_cons] at h
    obtain ⟨p', hp', hq⟩ := Option.bind_eq_some_iff.1 h
    refine ((adds_persist hF hS hcp hp' hco).mono ?_).trans ((ih hq).mono ?_)
    · rintro a ⟨o', ho', he⟩
      exact ⟨o', by rw [List.mem_singleton.1 ho']; exact List.mem_cons_self, he⟩
    · rintro a ⟨o', ho', he⟩
      exact ⟨o', List.mem_cons_of_mem _ ho', he⟩

namespace PregelLoop

variable [InterruptHash] {l l' : PregelLoop S σ} {round : Round S}

/-- **What a superstep that does not fail files.** -/
theorem adds_runTasks (hF : Filing cp good filed) (hS : Unreserved S)
    (hcp : l.checkpointer = some cp) {r : SuperstepResult S}
    (h : (l.runTasks round).result = .ok r) :
    Adds cp good filed l.runnableConfig (failedNodes r.taskOutputs) (l.store, l.nextUuid)
      ((l.runTasks round).store, (l.runTasks round).nextUuid) := by
  by_cases hne : l.pendingTasks = []
  · simp only [runTasks, Juncture.executeSuperstep, hne, List.isEmpty_nil, if_true]
    exact .refl _
  cases hin : inlineTask l.runnerEnv l.pendingTasks with
  | some task =>
    have hempty : l.pendingTasks.isEmpty = false := by simpa using hne
    have hrun : l.runTasks round =
        executeInline l.runnerEnv l.state task l.store l.nextUuid l.cancelled := by
      simp only [runTasks, Juncture.executeSuperstep, hempty, Bool.false_eq_true, if_false, hin]
    rw [hrun] at h ⊢
    unfold executeInline at h ⊢
    rcases hp : l.runnerEnv.nodeCall l.state task with e | p
    · simp only [hp] at h
      cases h
    simp only [hp] at h ⊢
    split_ifs at h ⊢ with hcancel
    rcases hr : p.runInline with e | command
    · simp only [hr, settleInline] at h
      cases h
    simp only [hr, settleInline] at h ⊢
    rcases hput : persistWrites l.runnerEnv (successOutput task command) l.store with ⟨s, e | ⟨⟩⟩
    · simp only [hput] at h
      cases h
    · exact adds_persistWrites hF hS hcp hput _
  | none =>
    have hrun := runTasks_of_spawned round hne hin
    rw [hrun] at h ⊢
    obtain ⟨hf, rfl⟩ := Superstep.outcome_eq_ok_iff.1 h
    have hcol : Superstep.Collected l.spawnEnv (l.store, l.nextUuid) (l.spawned round) :=
      Superstep.collected_runSpawned
    obtain ⟨-, hstore, hout⟩ := hcol.well hf
    exact adds_persistAll hF hS hcp hout hstore

/-! ### The loop -/

/-- The markers that the loop will find. -/
def marks (cp : CheckpointSaver σ) (l : PregelLoop S σ) : Set String :=
  marksSeen cp l.store l.runnableConfig

/-- Nothing is filed under an identifier that has not been handed out, nor under a checkpoint that
waits to be written. -/
structure Tidy (good : σ → Prop) (filed : σ → Uuid → Set String) (l : PregelLoop S σ) : Prop where
  sound : good l.store
  fresh : ∀ i, l.nextUuid ≤ i → filed l.store i = ∅
  named : ∀ i, l.runnableConfig.checkpointId = some i → i < l.nextUuid
  background : ∀ w ∈ l.backgroundPuts, filed l.store w.2.1.id = ∅ ∧
    l.runnableConfig.checkpointId ≠ some w.2.1.id ∧ w.2.1.id < l.nextUuid

/-- From a tidy loop one gets to a tidy loop that finds no more markers. -/
def Keeps (cp : CheckpointSaver σ) (good : σ → Prop) (filed : σ → Uuid → Set String)
    (l l' : PregelLoop S σ) : Prop :=
  Tidy good filed l → Tidy good filed l' ∧ marks cp l' ⊆ marks cp l

/-- The part of the loop that is about the store. -/
def files (l : PregelLoop S σ) :
    σ × RunnableConfig × Uuid × List (RunnableConfig × Checkpoint × CheckpointMetadata) :=
  (l.store, l.runnableConfig, l.nextUuid, l.backgroundPuts)

section Keeps

omit [InterruptHash]

theorem keeps_of_files (h : l'.files = l.files) : Keeps cp good filed l l' := by
  have hs : l'.store = l.store := congrArg (fun f => f.1) h
  have hc : l'.runnableConfig = l.runnableConfig := congrArg (fun f => f.2.1) h
  have hu : l'.nextUuid = l.nextUuid := congrArg (fun f => f.2.2.1) h
  have hb : l'.backgroundPuts = l.backgroundPuts := congrArg (fun f => f.2.2.2) h
  intro ht
  refine ⟨⟨?_, ?_, ?_, ?_⟩, ?_⟩
  · rw [hs]; exact ht.sound
  · rw [hs, hu]; exact ht.fresh
  · rw [hc, hu]; exact ht.named
  · rw [hs, hc, hu, hb]; exact ht.background
  · unfold marks
    rw [hs, hc]

theorem Keeps.trans {k : PregelLoop S σ} (h : Keeps cp good filed l k)
    (h' : Keeps cp good filed k l') : Keeps cp good filed l l' := by
  intro ht
  obtain ⟨htk, hk⟩ := h ht
  obtain ⟨htl, hl⟩ := h' htk
  exact ⟨htl, hl.trans hk⟩

theorem Keeps.of_files {k : PregelLoop S σ} (h : Keeps cp good filed k l')
    (hf : k.files = l.files) : Keeps cp good filed l l' :=
  Keeps.trans (keeps_of_files hf) h

theorem keeps_completeWrite (hF : Filing cp good filed) (hcp : l.checkpointer = some cp) (i : ℕ) :
    Keeps cp good filed l (l.completeWrite i) := by
  unfold completeWrite
  rw [hcp]
  split
  · rename_i cp' c k m hcp' hi
    cases hcp'
    intro ht
    have hmem : (c, k, m) ∈ l.backgroundPuts := List.mem_of_getElem? hi
    have hempty := (ht.background _ hmem).1
    refine ⟨⟨?_, ?_, ht.named, ?_⟩, ?_⟩
    · exact hF.good_put _ _ _ _ ht.sound
    · intro j hj
      exact Set.subset_empty_iff.1 ((hF.filed_put _ _ _ _ j).trans (ht.fresh j hj).subset)
    · intro w hw
      obtain ⟨hw, hne, hlt⟩ := ht.background w (List.mem_of_mem_eraseIdx hw)
      exact ⟨Set.subset_empty_iff.1 ((hF.filed_put _ _ _ _ _).trans hw.subset), hne, hlt⟩
    · intro a ha
      obtain ha | ha := hF.seen_put _ _ _ _ _ ht.sound ha
      · exact ha
      · rw [show k.id = (c, k, m).2.1.id from rfl, hempty] at ha
        cases ha
  · exact keeps_of_files rfl

theorem keeps_outside (hF : Filing cp good filed) (hcp : l.checkpointer = some cp)
    (round : Round S) : Keeps cp good filed l (l.outside round) := by
  have hwrites : ∀ (is : List ℕ) (k : PregelLoop S σ), k.checkpointer = some cp →
      Keeps cp good filed k (is.foldl completeWrite k) := by
    intro is
    induction is with
    | nil => exact fun k _ => keeps_of_files rfl
    | cons i is ih =>
      intro k hk
      refine (keeps_completeWrite hF hk i).trans (ih _ ?_)
      unfold completeWrite
      split <;> exact hk
  exact (hwrites round.writes l hcp).trans (keeps_of_files rfl)

/-- A checkpoint written at once: nothing is found in it. -/
theorem keeps_putCheckpoint (hF : Filing cp good filed) {k : Checkpoint} {m : CheckpointMetadata}
    (hk : k.id = l.nextUuid) :
    Keeps cp good filed l (l.putCheckpoint cp k m).1 ∧
      (Tidy good filed l → (l.putCheckpoint cp k m).2 = .ok () →
        marks cp (l.putCheckpoint cp k m).1 = ∅) := by
  rcases hput : cp.put l.store l.runnableConfig k m with ⟨s, e | c'⟩
  -- A `put` files nothing, whether it succeeds or not.
  all_goals
    have hs : (cp.put l.store l.runnableConfig k m).1 = s := congrArg Prod.fst hput
    have hgood : good l.store → good s := hs ▸ hF.good_put l.store l.runnableConfig k m
    have hfiled : ∀ i, filed s i ⊆ filed l.store i :=
      fun i => hs ▸ hF.filed_put l.store l.runnableConfig k m i
    have hfresh : Tidy good filed l → ∀ i, l.nextUuid + 1 ≤ i → filed s i = ∅ := fun ht i hi =>
      Set.subset_empty_iff.1 ((hfiled i).trans (ht.fresh i (Nat.le_of_succ_le hi)).subset)
    have hempty : Tidy good filed l → filed l.store k.id = ∅ := fun ht => ht.fresh _ hk.ge
    have hback : Tidy good filed l → ∀ w ∈ l.backgroundPuts, filed s w.2.1.id = ∅ := fun ht w hw =>
      Set.subset_empty_iff.1 ((hfiled _).trans (ht.background w hw).1.subset)
    simp only [putCheckpoint, hput]
  · refine ⟨fun ht => ⟨⟨hgood ht.sound, hfresh ht, ?_, ?_⟩, ?_⟩, fun _ h => nomatch h⟩
    · exact fun i hi => Nat.lt_succ_of_lt (ht.named i hi)
    · intro w hw
      obtain ⟨-, hne, hlt⟩ := ht.background w hw
      exact ⟨hback ht w hw, hne, Nat.lt_succ_of_lt hlt⟩
    · intro a ha
      have ha : a ∈ marksSeen cp (cp.put l.store l.runnableConfig k m).1 l.runnableConfig := hs ▸ ha
      obtain ha | ha := hF.seen_put _ _ _ _ _ ht.sound ha
      · exact ha
      · rw [hempty ht] at ha
        cases ha
  -- The configuration now names the new checkpoint, under which nothing is filed yet.
  · have hnone : Tidy good filed l →
        marksSeen cp s { l.runnableConfig with checkpointId := c'.checkpointId } = ∅ := by
      intro ht
      obtain ⟨hid, hseen⟩ := hF.seen_new _ _ _ _ _ _ ht.sound hput
      rw [hid]
      exact Set.subset_empty_iff.1 (hseen.trans (hempty ht).subset)
    have hid : Tidy good filed l → c'.checkpointId = some l.nextUuid := fun ht =>
      hk ▸ (hF.seen_new _ _ _ _ _ _ ht.sound hput).1
    refine ⟨fun ht => ⟨⟨hgood ht.sound, hfresh ht, ?_, ?_⟩, ?_⟩, fun ht _ => hnone ht⟩
    · intro i hi
      obtain rfl := Option.some.inj ((hid ht).symm.trans hi)
      exact Nat.lt_succ_self _
    · intro w hw
      obtain ⟨-, -, hlt⟩ := ht.background w hw
      refine ⟨hback ht w hw, fun heq => ?_, Nat.lt_succ_of_lt hlt⟩
      exact absurd (Option.some.inj ((hid ht).symm.trans heq)).symm (Nat.ne_of_lt hlt)
    · exact (hnone ht).subset.trans (Set.empty_subset _)

/-- A checkpoint in the durability mode of the run. -/
theorem keeps_writeCheckpoint (hF : Filing cp good filed) {k : Checkpoint} {m : CheckpointMetadata}
    (hk : k.id = l.nextUuid) :
    Keeps cp good filed l (l.writeCheckpoint cp k m).1 ∧
      (Tidy good filed l → l.effectiveDurability = .sync → (l.writeCheckpoint cp k m).2 = .ok () →
        marks cp (l.writeCheckpoint cp k m).1 = ∅) := by
  have hkeep := keeps_putCheckpoint hF (m := m) hk
  unfold writeCheckpoint
  generalize l.putCheckpoint cp k m = r at hkeep ⊢
  have hput : Keeps cp good filed l (andThen r fun l _ =>
        ({ l with deltaCounters := ∅ }, (.ok () : Except JunctureError Unit))).1 ∧
      (Tidy good filed l → (andThen r fun l _ =>
        ({ l with deltaCounters := ∅ }, (.ok () : Except JunctureError Unit))).2 = .ok () →
        marks cp (andThen r fun l _ =>
          ({ l with deltaCounters := ∅ }, (.ok () : Except JunctureError Unit))).1 = ∅) := by
    obtain ⟨l₁, e | ⟨⟩⟩ := r
    · exact ⟨hkeep.1, fun _ h => nomatch h⟩
    · exact ⟨hkeep.1.trans (keeps_of_files rfl), fun ht _ => hkeep.2 ht rfl⟩
  cases hd : l.effectiveDurability with
  | async =>
    refine ⟨fun ht => ⟨⟨ht.sound, ?_, ?_, ?_⟩, subset_rfl⟩, fun _ h => nomatch h⟩
    · exact fun i hi => ht.fresh i (Nat.le_of_succ_le hi)
    · exact fun i hi => Nat.lt_succ_of_lt (ht.named i hi)
    · intro w hw
      obtain hw | hw := List.mem_append.1 hw
      · obtain ⟨hempty, hne, hlt⟩ := ht.background w hw
        exact ⟨hempty, hne, Nat.lt_succ_of_lt hlt⟩
      · rw [List.mem_singleton.1 hw]
        refine ⟨ht.fresh _ hk.ge, fun heq => ?_, hk ▸ Nat.lt_succ_self _⟩
        exact absurd hk (Nat.ne_of_lt (ht.named _ heq))
  | sync => exact ⟨hput.1, fun ht _ => hput.2 ht⟩
  | exit => exact ⟨hput.1, fun ht _ => hput.2 ht⟩

theorem keeps_saveInterruptCheckpoint (hF : Filing cp good filed) (hcp : l.checkpointer = some cp) :
    Keeps cp good filed l l.saveInterruptCheckpoint.1 := by
  unfold saveInterruptCheckpoint
  rw [hcp]
  split
  · rename_i cp' values hcp' _
    cases hcp'
    exact (keeps_writeCheckpoint hF rfl).1
  · exact keeps_of_files rfl

theorem keeps_saveExitCheckpoint (hF : Filing cp good filed) (hcp : l.checkpointer = some cp) :
    Keeps cp good filed l l.saveExitCheckpoint := by
  unfold saveExitCheckpoint
  rw [hcp]
  split
  · rename_i cp' values hcp' _
    cases hcp'
    exact (keeps_putCheckpoint hF rfl).1
  · exact keeps_of_files rfl

/-- The superstep ends with a checkpoint that is written at once: the mode is `Sync`, a full
snapshot is due and the state serializes. -/
structure SavesAtOnce (l : PregelLoop S σ) : Prop where
  sync : l.effectiveDurability = .sync
  due : l.shouldTakeFullSnapshot = true
  serializes : ∃ values, State.toValue l.state = .ok values

/-- The checkpoint of a superstep. -/
theorem keeps_saveSuperstepCheckpoint (hF : Filing cp good filed) (hcp : l.checkpointer = some cp) :
    Keeps cp good filed l l.saveSuperstepCheckpoint.1 ∧
      (Tidy good filed l → l.SavesAtOnce → l.saveSuperstepCheckpoint.2 = .ok () →
        marks cp l.saveSuperstepCheckpoint.1 = ∅) := by
  unfold saveSuperstepCheckpoint
  split_ifs with hskip
  · refine ⟨keeps_of_files rfl, fun _ hnow => ?_⟩
    obtain hexit | hnot := hskip
    · exact absurd (hnow.sync.symm.trans hexit) (by decide)
    · exact absurd (hnow.due.symm.trans hnot) (by decide)
  · rw [hcp]
    split
    · rename_i cp' values hcp' _
      cases hcp'
      have hwrite := keeps_writeCheckpoint hF (l := l)
        (k := l.checkpoint values l.checkpointTasks [] l.deltaCounters)
        (m := l.checkpointMetadata .loop) rfl
      exact ⟨hwrite.1, fun ht hnow => hwrite.2 ht hnow.sync⟩
    · rename_i hno
      refine ⟨keeps_of_files rfl, fun _ hnow => ?_⟩
      obtain ⟨values, hv⟩ := hnow.serializes
      exact absurd hv (hno cp values rfl)

theorem files_finishAllChannels (l : PregelLoop S σ) : l.finishAllChannels.files = l.files := by
  unfold finishAllChannels
  split_ifs <;> rfl

theorem keeps_stop (hF : Filing cp good filed) (h : l.stop = (l', .ok ()))
    (hcp : l.checkpointer = some cp) : Keeps cp good filed l l' := by
  unfold stop at h
  split_ifs at h
  · obtain ⟨k, ⟨⟩, hk, hl⟩ := andThen_eq_ok_iff.1 h
    have hkeep := keeps_saveInterruptCheckpoint hF hcp
    rw [hk] at hkeep
    cases hl
    exact hkeep.trans (keeps_of_files k.files_finishAllChannels)
  · cases h
    exact keeps_of_files l.files_finishAllChannels

theorem keeps_countStep (hF : Filing cp good filed) (hcp : l.checkpointer = some cp) :
    Keeps cp good filed l l.countStep := by
  have hfinish : Keeps cp good filed l l.finishAllChannels :=
    keeps_of_files l.files_finishAllChannels
  have hcp' : l.finishAllChannels.checkpointer = some cp := by
    unfold finishAllChannels
    split_ifs <;> exact hcp
  unfold countStep
  split_ifs
  · exact (hfinish.trans (keeps_saveExitCheckpoint hF hcp')).trans (keeps_of_files rfl)
  · exact hfinish.trans (keeps_of_files rfl)
  · exact keeps_of_files rfl

theorem files_reported (l : PregelLoop S σ) (bubbleUps : List (BubbleUp S)) :
    (l.reported bubbleUps).1.files = l.files := by
  obtain ⟨_, _, _, _, heq⟩ := l.reported_eq bubbleUps
  rw [heq]
  rfl

end Keeps

/-- The last phase of `after_tick` finds no more markers than there are. -/
theorem keeps_finishTick (hF : Filing cp good filed) (hcp : l.checkpointer = some cp)
    {bubbleUps : List (BubbleUp S)} (h : l.finishTick bubbleUps = (l', .ok ())) :
    Keeps cp good filed l l' := by
  have hrep : Keeps cp good filed l (l.reported bubbleUps).1 :=
    keeps_of_files (l.files_reported bubbleUps)
  have hcp' : (l.reported bubbleUps).1.checkpointer = some cp :=
    (l.fixed_reported bubbleUps).checkpointer.trans hcp
  obtain ⟨signals, -, -, hstop⟩ | ⟨-, ⟨-, hstop⟩ | ⟨-, ⟨signals, -, hstop⟩ | ⟨-, rfl⟩⟩⟩ :=
    finishTick_cases h
  · exact (keeps_stop hF hstop hcp).of_files rfl
  · exact hrep.trans (keeps_stop hF hstop hcp')
  · exact hrep.trans ((keeps_stop hF hstop hcp').of_files rfl)
  · exact hrep.trans (keeps_countStep hF hcp')

/-! ### A turn -/

omit [InterruptHash] in
theorem files_prepare (l : PregelLoop S σ) : l.prepare.1.files = l.files := by
  unfold prepare
  split
  · rfl
  · dsimp only [checkCircuitBreakers]
    split_ifs <;> rfl

omit [InterruptHash] in
/-- What the runner files leaves the loop tidy. -/
theorem Tidy.adds {A : Set String} (ht : Tidy good filed l) (hc : l'.runnableConfig = l.runnableConfig)
    (hb : l'.backgroundPuts = l.backgroundPuts)
    (h : Adds cp good filed l.runnableConfig A (l.store, l.nextUuid) (l'.store, l'.nextUuid)) :
    Tidy good filed l' ∧ marks cp l' ⊆ marks cp l ∪ A := by
  refine ⟨⟨h.sound ht.sound, ?_, ?_, ?_⟩, ?_⟩
  · intro i hi
    have hi : l.nextUuid ≤ i := h.le.trans hi
    refine Set.subset_empty_iff.1 ((h.elsewhere i fun heq => ?_).trans (ht.fresh i hi).subset)
    exact absurd (ht.named i heq) (Nat.not_lt.2 hi)
  · intro i hi
    rw [hc] at hi
    exact (ht.named i hi).trans_le h.le
  · intro w hw
    rw [hb] at hw
    obtain ⟨hempty, hne, hlt⟩ := ht.background w hw
    rw [hc]
    exact ⟨Set.subset_empty_iff.1 ((h.elsewhere _ hne).trans hempty.subset), hne, hlt.trans_le h.le⟩
  · unfold marks
    rw [hc]
    exact h.seen ht.sound _

omit [InterruptHash] in
theorem failedNodes_append_blocked (outputs blocked : List (TaskOutput S)) :
    failedNodes outputs ⊆ failedNodes (executedOutputs (outputs ++ blocked)) := by
  rintro a ⟨o, ho, hfail, rfl⟩
  refine ⟨o.clone, List.mem_map_of_mem (List.mem_filter.2 ⟨List.mem_append_left _ ho, ?_⟩),
    ⟨hfail.1, ?_⟩, rfl⟩
  · rw [hfail.1]
    rfl
  · rw [TaskOutput.clone, Option.isSome_map]
    exact hfail.2

/-- **What is found at the end of a superstep**: what was found before, and the failures of the
superstep. -/
theorem marks_superstep (hF : Filing cp good filed) (hS : Unreserved S)
    (hcp : l.checkpointer = some cp) {l₁ : PregelLoop S σ} {result : SuperstepResult S}
    (h : l.superstep round = some (l₁, result)) (ht : Tidy good filed l) :
    Tidy good filed l₁ ∧
      marks cp l₁ ⊆ marks cp l ∪ failedNodes (executedOutputs result.taskOutputs) := by
  obtain ⟨-, r, hexec, rfl⟩ := superstep_eq_some_iff.1 h
  obtain ⟨k, blocked, hprep, hrun⟩ := andThen_eq_ok_iff.1 hexec
  have hran := (l.outside round).ran_prepare
  have hfiles := (l.outside round).files_prepare
  rw [hprep] at hran hfiles
  have hkcp : k.checkpointer = some cp :=
    ((l.ran_outside round).trans hran).fixed.checkpointer.trans hcp
  obtain ⟨htk, hmk⟩ := ((keeps_outside hF hcp round).trans (keeps_of_files hfiles)) ht
  unfold runPrepared at hrun
  dsimp only at hrun
  split at hrun
  · cases hrun
  · rename_i result hresult
    cases hrun
    obtain ⟨ht₁, hm₁⟩ : Tidy good filed (k.absorb (k.runTasks round)) ∧
        marks cp (k.absorb (k.runTasks round)) ⊆ marks cp k ∪ failedNodes result.taskOutputs :=
      Tidy.adds htk rfl rfl (adds_runTasks hF hS hkcp hresult)
    refine ⟨⟨ht₁.sound, ht₁.fresh, ht₁.named, ht₁.background⟩, ?_⟩
    exact hm₁.trans (Set.union_subset_union hmk (failedNodes_append_blocked _ _))

variable {result : SuperstepResult S}

omit [InterruptHash] in
theorem files_committed (l : PregelLoop S σ) (result : SuperstepResult S) :
    (l.committed result).files = l.files := by
  have hmerge : (l.mergeWrites result.taskOutputs).1.files = l.files := by
    unfold mergeWrites
    rcases applyWrites l.state (executedOutputs result.taskOutputs) l.fieldVersions
      l.nodeRegistration with ⟨state, versions, e | changed⟩
    · rfl
    · dsimp only
      split <;> rfl
  unfold committed
  split
  · rename_i k changed hk
    rw [hk] at hmerge
    exact hmerge
  · rename_i k e hk
    rw [hk] at hmerge
    exact hmerge

omit [InterruptHash] in
theorem store_persistedWrites (hF : Filing cp good filed) (hcp : l.checkpointer = some cp) :
    l.persistedWrites.1 = l.store := by
  have hstore := hF.getTuple_store l.store l.runnableConfig
  unfold persistedWrites
  rw [hcp]
  dsimp only
  split_ifs
  · rfl
  · split
    · rename_i store t heq
      rw [heq] at hstore
      exact hstore
    · rename_i store r _ heq
      rw [heq] at hstore
      exact hstore

omit [InterruptHash] in
/-- The markers that `after_tick` acts on. -/
theorem mem_persistedWrites_iff (hcp : l.checkpointer = some cp) {a : String}
    (ha : a ∈ l.errorHandlerMap) : a ∈ markedNodes l.persistedWrites.2 ↔ a ∈ marks cp l := by
  have hempty : l.errorHandlerMap.entries.isEmpty = false := by
    have ha := AList.mem_keys.1 ha
    cases he : l.errorHandlerMap.entries with
    | nil => simp [AList.keys, List.keys, he] at ha
    | cons e es => rfl
  unfold persistedWrites marks marksSeen
  rw [hcp]
  simp only [hempty, Bool.false_eq_true, if_false, Set.mem_ofPred_eq]
  rcases cp.getTuple l.store l.runnableConfig with ⟨s, e | _ | t⟩
  · simp [markedNodes]
  · simp [markedNodes]
  · simp

omit [State S] [InterruptHash] in
theorem le_freshUuid (tasks : List (PendingTask S)) (base : Uuid) : base ≤ freshUuid base tasks := by
  unfold freshUuid
  induction tasks generalizing base with
  | nil => exact le_rfl
  | cons t tasks ih => exact (le_max_left base (t.id + 1)).trans (ih _)

/-- **What `after_tick` leaves to be found**: no more than before, and nothing when it has saved a
checkpoint at once. -/
theorem marks_afterTick (hF : Filing cp good filed) (hcp : l.checkpointer = some cp)
    (h : l.afterTick result = (l', .ok ())) (ht : Tidy good filed l) :
    Tidy good filed l' ∧ marks cp l' ⊆ marks cp l ∧
      ((l.committed result).SavesAtOnce → marks cp l' = ∅) := by
  obtain ⟨s, changed, tasks, k, -, -, hk, hf⟩ := afterTick_phases h
  have hccp : (l.committed result).checkpointer = some cp :=
    (l.committed_frame result).2.2.2.1.trans hcp
  have hcommitted : Keeps cp good filed l (l.committed result) :=
    keeps_of_files (l.files_committed result)
  obtain ⟨htc, hmc⟩ := hcommitted ht
  -- the loop that the checkpoint is made of
  generalize hm : { l.committed result with
    pendingTasks := tasks
    nextUuid := freshUuid (l.committed result).nextUuid tasks
    store := (l.committed result).persistedWrites.1
    previousSuperstepChangedFields := changed } = m at hk
  obtain ⟨htm, hmm⟩ : Tidy good filed m ∧ marks cp m ⊆ marks cp (l.committed result) ∪ ∅ := by
    refine Tidy.adds htc (by rw [← hm]) (by rw [← hm]) ?_
    rw [← hm, store_persistedWrites hF hccp]
    exact ⟨id, le_freshUuid _ _, fun _ _ => subset_rfl, fun _ _ _ ha => .inl ha⟩
  rw [Set.union_empty] at hmm
  have hmcp : m.checkpointer = some cp := by rw [← hm]; exact hccp
  obtain ⟨hkeep, hnow⟩ := keeps_saveSuperstepCheckpoint hF hmcp
  rw [hk] at hkeep hnow
  have hkcp : k.checkpointer = some cp := by
    have hsaved := m.saved_saveSuperstepCheckpoint
    rw [hk] at hsaved
    obtain ⟨_, _, _, _, _, _, rfl⟩ := hsaved
    exact hmcp
  obtain ⟨htk, hmk⟩ := hkeep htm
  obtain ⟨htl, hml⟩ := keeps_finishTick hF hkcp hf htk
  refine ⟨htl, hml.trans (hmk.trans (hmm.trans hmc)), fun hsave => ?_⟩
  have hsave : m.SavesAtOnce := by
    rw [← hm]
    exact ⟨hsave.sync, hsave.due, hsave.serializes⟩
  exact Set.subset_empty_iff.1 (hml.trans (hnow htm hsave rfl).subset)

/-! ### Along a run -/

section Run

variable {l₀ : PregelLoop S σ} {rounds : ℕ → Round S} {n : ℕ}

/-- The node has an error handler in the graph. -/
def HasHandler (l : PregelLoop S σ) (a h : String) : Prop :=
  l.errorHandlerMap.lookup a = some h ∧ h ∈ l.nodes

/-- At the end of superstep `n` the failure of a task of node `a` schedules the handler. -/
def FailureSchedules (l₀ : PregelLoop S σ) (rounds : ℕ → Round S) (n : ℕ) (a : String) : Prop :=
  ∃ l₁ result l, l₀.TurnAt rounds n l₁ result l ∧
    ∃ pre o post, executedOutputs result.taskOutputs = pre ++ o :: post ∧ o.nodeName = a ∧
      (recoveryFor (l₁.committed result).scheduleEnv pre o post).2.isSome = true

/-- At the end of superstep `n` a marker of node `a` schedules the handler. -/
def MarkerSchedules (l₀ : PregelLoop S σ) (rounds : ℕ → Round S) (n : ℕ) (a : String) : Prop :=
  ∃ l₁ result l, l₀.TurnAt rounds n l₁ result l ∧
    a ∈ markedNodes (l₁.committed result).persistedWrites.2 ∧
    (∀ o ∈ executedOutputs result.taskOutputs, o.error.isSome = true → o.nodeName ≠ a) ∧
    ∃ h, l₀.HasHandler a h

/-- Along the run, every failure of a node with an error handler schedules the handler once, at the
end of its superstep, and no marker schedules a handler again. -/
structure HandledOnce (l₀ : PregelLoop S σ) (rounds : ℕ → Round S) : Prop where
  /-- The failures of a superstep. -/
  scheduled : ∀ n l₁ result l, l₀.TurnAt rounds n l₁ result l →
    ∀ pre o post, executedOutputs result.taskOutputs = pre ++ o :: post → Failed o →
      ∀ h, l₀.HasHandler o.nodeName h →
        (recoveryFor (l₁.committed result).scheduleEnv pre o post).2 = some h
  /-- The markers of earlier ones. -/
  once : ∀ m n a, m < n → l₀.FailureSchedules rounds m a ∨ l₀.MarkerSchedules rounds m a →
    ¬ l₀.MarkerSchedules rounds n a

/-- A node with an error handler has no fallback that could run. -/
def HandlersAlone (l : PregelLoop S σ) : Prop :=
  ∀ a h f, l.HasHandler a h → l.fallbackMap.lookup a = some f → f ∉ l.nodes ∨ f = a

/-- A superstep that leaves a marker of a node with an error handler to be found, and is not the
last one, saves a checkpoint at once. -/
def MarkersSuperseded (l₀ : PregelLoop S σ) (rounds : ℕ → Round S) : Prop :=
  ∀ n l₁ result l, l₀.TurnAt rounds n l₁ result l →
    (∃ a h, a ∈ markedNodes (l₁.committed result).persistedWrites.2 ∧ l₀.HasHandler a h) →
    (l₀.head rounds (n + 2)).isSome = true → (l₁.committed result).SavesAtOnce

/-- The markers that the superstep in round `n` acts on. -/
theorem mem_persistedWrites_turn (hcp : l₀.checkpointer = some cp) {l₁ : PregelLoop S σ}
    (hturn : l₀.TurnAt rounds n l₁ result l) {a h : String} (ha : l₀.HasHandler a h) :
    a ∈ markedNodes (l₁.committed result).persistedWrites.2 ↔ a ∈ marks cp l₁ := by
  have hfixed := hturn.fixed
  obtain ⟨t, -, -, hafter⟩ := hturn
  have hmem : a ∈ (l₁.committed result).errorHandlerMap := by
    rw [(l₁.fixed_committed result).errorHandlerMap, hfixed.errorHandlerMap]
    exact AList.lookup_isSome.1 (by rw [ha.1]; rfl)
  rw [mem_persistedWrites_iff ((l₁.committed_frame result).2.2.2.1.trans
    (hfixed.checkpointer.trans hcp)) hmem]
  have hfiles := l₁.files_committed result
  unfold marks
  rw [show (l₁.committed result).store = l₁.store from congrArg (fun f => f.1) hfiles,
    show (l₁.committed result).runnableConfig = l₁.runnableConfig from
      congrArg (fun f => f.2.1) hfiles]

/-- **Superseded markers are not found again.** -/
theorem tidy_head (hF : Filing cp good filed) (hcp : l₀.checkpointer = some cp)
    (hS : Unreserved S) (ht : Tidy good filed l₀) (hsup : l₀.MarkersSuperseded rounds)
    (h : l₀.head rounds n = some l) :
    Tidy good filed l ∧ (0 < n → (l₀.head rounds (n + 1)).isSome = true →
      ∀ a ∈ marks cp l, ∀ h, ¬ l₀.HasHandler a h) := by
  refine Machine.trace_invariant (I := fun n l => Tidy good filed l ∧
    (0 < n → (l₀.head rounds (n + 1)).isSome = true →
      ∀ a ∈ marks cp l, ∀ h, ¬ l₀.HasHandler a h)) ⟨ht, fun h => absurd h (lt_irrefl 0)⟩ ?_ h
  intro n t u htn ih hturn
  obtain ⟨l₁, result, hs, ha⟩ := turn_eq_some_iff.1 hturn
  have hat : l₀.TurnAt rounds n l₁ result u := ⟨t, htn, hs, ha⟩
  have hfixed := fixed_head htn
  obtain ⟨ht₁, -⟩ := marks_superstep hF hS (hfixed.checkpointer.trans hcp) hs ih.1
  obtain ⟨htu, hmu, hsave⟩ := marks_afterTick hF (hat.fixed.checkpointer.trans hcp) ha ht₁
  refine ⟨htu, fun _ hnext a hmem h hhas => ?_⟩
  -- what is left to be found was found before, and then a checkpoint has been saved
  have hfound := (mem_persistedWrites_turn hcp hat hhas).2 (hmu hmem)
  rw [hsave (hsup n l₁ result u hat ⟨a, h, hfound, hhas⟩ hnext)] at hmem
  cases hmem

/-- **Every failure is handled once** when the markers of failures are superseded and no fallback
takes the place of a handler. -/
theorem handledOnce_of_superseded (hF : Filing cp good filed) (hcp : l₀.checkpointer = some cp)
    (hS : Unreserved S) (ht : Tidy good filed l₀) (halone : l₀.HandlersAlone)
    (hsup : l₀.MarkersSuperseded rounds) : l₀.HandledOnce rounds where
  scheduled n l₁ result l hturn pre o post _ hfail h hhas := by
    have hfixed := hturn.fixed
    obtain ⟨t, -, -, ha⟩ := hturn
    rw [(fixed_committed _ _).scheduleEnv, hfixed.scheduleEnv]
    refine handlerFor_eq_some_iff.2 ⟨hfail, fun hmem => ?_, hhas.1, hhas.2⟩
    obtain ⟨-, -, -, -, f, hf, hfn, hne⟩ := failed_of_mem_fallbackHandled hmem
    exact (halone o.nodeName h f hhas hf).elim (fun hno => hno hfn) hne
  once m n a hmn _ hmark := by
    obtain ⟨l₁, result, l, hturn, hfound, hnot, h, hhas⟩ := hmark
    have hfound := (mem_persistedWrites_turn hcp hturn hhas).1 hfound
    have hl := head_succ_eq_some_iff.2 ⟨l₁, result, hturn⟩
    obtain ⟨t, htn, hs, ha⟩ := hturn
    obtain ⟨htt, hclean⟩ := tidy_head hF hcp hS ht hsup htn
    obtain ⟨-, hmarks⟩ := marks_superstep hF hS ((fixed_head htn).checkpointer.trans hcp) hs htt
    obtain hold | ⟨o, ho, hfail, rfl⟩ := hmarks hfound
    · exact hclean (by omega) (by rw [hl]; rfl) a hold h hhas
    · exact hnot o ho hfail.2 rfl

end Run

end PregelLoop

/-! ### Small runs -/

/-- `a` fails and `h` handles its failures. -/
def unsaved (durability : Durability) : PregelLoop Transcript MemoryStore :=
  { PregelLoop.withErrorHandlers {}
      (Dict.ofList [("h", ⟨fun _ _ => .done (.ok .default)⟩),
        ("a", ⟨fun _ _ => .done (.error (.execution "down"))⟩)])
      (buildTriggerTable [.fixed START "a"])
      { threadId := some "t", durability := some durability } 64 (Dict.ofList [("a", "h")]) {} 0 with
    checkpointer := some memorySaver }

/-- The loop with its input saved. -/
def handling (durability : Durability) : PregelLoop Transcript MemoryStore :=
  let l := unsaved durability
  (l.putCheckpoint memorySaver (l.checkpoint (Transcript.toJson {}) l.checkpointTasks [] ∅)
    (l.checkpointMetadata .input)).1

/-- With `Durability::Exit` no checkpoint takes the place of the one with the marker, and the
handler of the failure in the first superstep is scheduled again after the second one. -/
theorem handling_exit_not_handledOnce : ¬ (handling .exit).HandledOnce undisturbed := by
  have hfailure : (handling .exit).FailureSchedules undisturbed 0 "a" :=
    ⟨_, _, _, ⟨_, rfl, rfl, rfl⟩, [], _, [], rfl, rfl, rfl⟩
  have hmarker : (handling .exit).MarkerSchedules undisturbed 1 "a" := by
    refine ⟨_, _, _, ⟨_, rfl, rfl, rfl⟩, ?_, ?_, "h", rfl, ?_⟩
    · decide
    · decide
    · decide
  exact fun h => h.once 0 1 "a" (by omega) (.inl hfailure) hmarker

theorem unsaved_tidy (durability : Durability) :
    (unsaved durability).Tidy MemorySaver.Ordered MemorySaver.filed where
  sound key ts h := nomatch h
  fresh i _ := by
    refine Set.eq_empty_of_forall_notMem fun a ha => ?_
    obtain ⟨thread, ns, ws, hws, -⟩ := ha
    cases hws
  named i h := nomatch h
  background w h := nomatch h

theorem handledOnce_of_superseded_sync : (handling .sync).HandledOnce undisturbed := by
  refine PregelLoop.handledOnce_of_superseded filing_memorySaver rfl ?_ ?_ ?_ ?_
  · intro u members hu m hm
    cases hu
    rcases List.mem_cons.1 hm with rfl | hm
    · show "log" ≠ ERROR_SOURCE_NODE
      decide
    · rw [List.mem_singleton.1 hm]
      show "status" ≠ ERROR_SOURCE_NODE
      decide
  · exact ((PregelLoop.keeps_putCheckpoint filing_memorySaver rfl).1 (unsaved_tidy .sync)).1
  · intro a h f _ hf
    cases hf
  · intro n l₁ result l hturn _ _
    have hconfig := hturn.fixed.config
    have hfiles := l₁.files_committed result
    refine ⟨?_, rfl, _, rfl⟩
    unfold PregelLoop.effectiveDurability
    rw [show (l₁.committed result).runnableConfig = l₁.runnableConfig from
      congrArg (fun f => f.2.1) hfiles, show l₁.runnableConfig.durability = some .sync from
      congrArg RunnableConfig.durability hconfig]
    rfl

end Juncture
