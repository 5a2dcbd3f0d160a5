import Juncture.Graph.Subgraph
import Juncture.Lib.Sessions
import Juncture.Core.MemorySaver
import Juncture.Pregel.StoreUse

/-!
# What a call of a subgraph asks of the checkpointer

Subgraphs share the checkpointer with their parent and with each other, and their calls overlap.  Here a
call is looked at from the checkpointer: as the list of its requests, each with the answer it gets.  The
answers may be anything, so that it does not matter what others do in between.

* `tapeSaver` : a checkpointer that gives the answers written on a tape and keeps a record.
* `SubgraphNode.Reaches` : the states that a call leaves its store in, one after the other.
* `Invocation.May` : the sessions that a call may have with the checkpointer.
* `Invocation.May.own` : a call asks for nothing but checkpoints in its namespace.
* `Invocation.May.modest` : a call writes nothing before it has found a checkpoint.
-/

namespace Juncture

/-! ### Requests and answers -/

/-- A call of a method of the checkpointer. -/
inductive SaverRequest where
  | getTuple (config : RunnableConfig)
  | put (config : RunnableConfig) (checkpoint : Checkpoint) (metadata : CheckpointMetadata)
  | putWrites (config : RunnableConfig) (writes : List PendingWrite) (taskId : Uuid)

/-- What it returns. -/
inductive SaverAnswer where
  | tuple (r : Except CheckpointError (Option CheckpointTuple))
  | config (r : Except CheckpointError RunnableConfig)
  | unit (r : Except CheckpointError Unit)

namespace SaverRequest

/-- The configuration it is made with. -/
def config : SaverRequest → RunnableConfig
  | getTuple config | put config _ _ | putWrites config _ _ => config

/-- It is a request to write. -/
def Writes : SaverRequest → Prop
  | getTuple _ => False
  | put _ _ _ | putWrites _ _ _ => True

end SaverRequest

/-- A checkpoint is found. -/
def SaverAnswer.Found : SaverAnswer → Prop
  | tuple (.ok (some _)) => True
  | _ => False

/-- The checkpointer serves a request. -/
def CheckpointSaver.serve {σ : Type} (cp : CheckpointSaver σ) (store : σ) :
    SaverRequest → σ × SaverAnswer
  | .getTuple config => ((cp.getTuple store config).1, .tuple (cp.getTuple store config).2)
  | .put config checkpoint metadata => ((cp.put store config checkpoint metadata).1,
      .config (cp.put store config checkpoint metadata).2)
  | .putWrites config writes taskId => ((cp.putWrites store config writes taskId).1,
      .unit (cp.putWrites store config writes taskId).2)

/-- A list of requests with their answers. -/
abbrev SaverSession := List (SaverRequest × SaverAnswer)

/-- The answers that will be given, and a record of those that were. -/
structure Tape where
  /-- What is written on the tape. -/
  answers : List SaverAnswer := []
  /-- The record. -/
  log : SaverSession := []

namespace Tape

/-- The end of the tape. -/
def ended : CheckpointError := .other "no answer"

/-- Takes an answer from the tape. -/
def record (t : Tape) (request : SaverRequest) (answer : SaverAnswer) : Tape :=
  { answers := t.answers.tail, log := t.log ++ [(request, answer)] }

/-- `get_tuple`. -/
def getTuple (t : Tape) (config : RunnableConfig) :
    Tape × Except CheckpointError (Option CheckpointTuple) :=
  let r := match t.answers.head? with
    | some (.tuple r) => r
    | _ => .error ended
  (t.record (.getTuple config) (.tuple r), r)

/-- `put`. -/
def put (t : Tape) (config : RunnableConfig) (checkpoint : Checkpoint) (metadata : CheckpointMetadata) :
    Tape × Except CheckpointError RunnableConfig :=
  let r := match t.answers.head? with
    | some (.config r) => r
    | _ => .error ended
  (t.record (.put config checkpoint metadata) (.config r), r)

/-- `put_writes`. -/
def putWrites (t : Tape) (config : RunnableConfig) (writes : List PendingWrite) (taskId : Uuid) :
    Tape × Except CheckpointError Unit :=
  let r := match t.answers.head? with
    | some (.unit r) => r
    | _ => .error ended
  (t.record (.putWrites config writes taskId) (.unit r), r)

end Tape

/-- A checkpointer that gives the answers on a tape. -/
def tapeSaver : CheckpointSaver Tape where
  getTuple := Tape.getTuple
  put := Tape.put
  putWrites := Tape.putWrites

/-! ### What a call does to its store -/

section Reaches

variable {S Sub σ : Type} [State S] [State Sub] [InterruptHash]

/-- The states that a call leaves its store in, one after the other. -/
inductive SubgraphNode.Reaches (node : SubgraphNode S Sub σ) (call : SubgraphCall S σ) : σ → Prop
  /-- It is decided whether to resume. -/
  | started : Reaches node call (node.start call).1
  /-- `resume` has looked for the checkpoint. -/
  | resuming {store : σ} {c : CompiledGraph.ResumeCall σ}
    (h : node.start call = (store, .ok (.resumed c))) : Reaches node call (node.subgraph.resume c).1
  /-- In the resumed run. -/
  | resumed {store store' : σ} {c : CompiledGraph.ResumeCall σ} {l₀ l : PregelLoop Sub σ}
    {statuses : List LoopStatus} (h : node.start call = (store, .ok (.resumed c)))
    (hresume : node.subgraph.resume c = (store', .ok l₀)) (hl : l₀.Attains statuses l) :
    Reaches node call l.store
  /-- At its end. -/
  | resumeEnded {store store' : σ} {c : CompiledGraph.ResumeCall σ} {l₀ l : PregelLoop Sub σ}
    {statuses : List LoopStatus} {e : Ending} (h : node.start call = (store, .ok (.resumed c)))
    (hresume : node.subgraph.resume c = (store', .ok l₀)) (hl : l₀.Ends statuses l e) :
    Reaches node call (CompiledGraph.resumeEnd c l e).2
  /-- In the run that was invoked. -/
  | invoked {store : σ} {c : InvokeCall Sub σ} {l : PregelLoop Sub σ} {statuses : List LoopStatus}
    (h : node.start call = (store, .ok (.invoked c)))
    (hcache : (node.subgraph.cachedResult c).2 = none)
    (hl : (node.subgraph.invokeLoop c).Attains statuses l) : Reaches node call l.store
  /-- At its end. -/
  | invokeEnded {store : σ} {c : InvokeCall Sub σ} {l : PregelLoop Sub σ} {statuses : List LoopStatus}
    {e : Ending} (h : node.start call = (store, .ok (.invoked c)))
    (hcache : (node.subgraph.cachedResult c).2 = none)
    (hl : (node.subgraph.invokeLoop c).Ends statuses l e) :
    Reaches node call (node.subgraph.invokeEnd c l e).2.1

variable {node : SubgraphNode S Sub σ} {call : SubgraphCall S σ} {I : σ → Prop}
  {place : Option String × Option String} {store : σ}

omit [InterruptHash] in
theorem CompiledGraph.resume_eq_ok {g : CompiledGraph Sub σ} {c : CompiledGraph.ResumeCall σ}
    {l₀ : PregelLoop Sub σ} (h : g.resume c = (store, .ok l₀)) : ∃ state, l₀ = g.checkpointedLoop state
      { g.effectiveConfig c.config with resumeValue := some c.value } store c.nextUuid := by
  unfold CompiledGraph.resume at h
  split at h
  · cases h
  · split at h
    · cases h
    · cases h
    · split at h
      · split at h
        · cases h
        · cases h
          exact ⟨_, rfl⟩
      · cases h

section Keeps

variable (hcp : ∀ cp, node.subgraph.checkpointer = some cp → cp.Keeps place I)

include hcp

omit [InterruptHash] in
theorem SubgraphNode.keeps_shouldResume (hplace : (node.childConfig call).place = place)
    (h : I call.store) : I (node.shouldResume call).1 := by
  unfold shouldResume
  split
  · exact h
  · rename_i cp heq
    have hget := (hcp cp heq).getTuple hplace h
    split <;> rename_i heq <;> rw [heq] at hget <;> exact hget

omit [InterruptHash] in
theorem SubgraphNode.keeps_resume {c : CompiledGraph.ResumeCall σ} (hplace : c.config.place = place)
    (h : I c.store) : I (node.subgraph.resume c).1 := by
  unfold CompiledGraph.resume
  split
  · exact h
  · rename_i cp heq
    have hget := (hcp cp heq).getTuple hplace h
    split
    · rename_i heq
      rw [heq] at hget
      exact hget
    · rename_i heq
      rw [heq] at hget
      exact hget
    · rename_i heq
      rw [heq] at hget
      split
      · split <;> exact hget
      · exact hget

omit [InterruptHash] in
/-- The loop of a resumed subgraph. -/
theorem SubgraphNode.uses_resumed {c : CompiledGraph.ResumeCall σ} {l₀ : PregelLoop Sub σ}
    (hplace : c.config.place = place) (h : I c.store) (hresume : node.subgraph.resume c = (store, .ok l₀)) :
    l₀.Uses place I := by
  have hstore := SubgraphNode.keeps_resume hcp hplace h
  rw [hresume] at hstore
  obtain ⟨state, rfl⟩ := CompiledGraph.resume_eq_ok hresume
  exact {
    saver := hcp
    config := hplace
    background := fun _ hb => absurd hb List.not_mem_nil
    store := hstore }

omit [InterruptHash] in
theorem SubgraphNode.keeps_invokeConfig {c : InvokeCall Sub σ} (hplace : c.config.place = place)
    (h : I c.store) : I (node.subgraph.invokeConfig c).1 ∧
      (node.subgraph.invokeConfig c).2.place = place := by
  unfold CompiledGraph.invokeConfig
  split
  · exact ⟨h, hplace⟩
  · rename_i cp heq
    let config : RunnableConfig := { node.subgraph.effectiveConfig c.config with
      taskCachePolicy := node.subgraph.cachePolicy.map ResultCachePolicy.toCachePolicy }
    have hget : I (cp.getTuple c.store config).1 := (hcp cp heq).getTuple hplace h
    dsimp only
    split <;> rename_i heq <;> rw [heq] at hget <;> exact ⟨hget, hplace⟩

omit [InterruptHash] in
theorem SubgraphNode.keeps_invokeEnd {c : InvokeCall Sub σ} {l : PregelLoop Sub σ} {e : Ending}
    (hplace : l.runnableConfig.place = place) (h : I l.store) :
    I (node.subgraph.invokeEnd c l e).2.1 := by
  have hreturn : I (node.subgraph.storeReturnValue l) := by
    unfold CompiledGraph.storeReturnValue
    split
    · rename_i cp value heq _
      have hget := (hcp cp heq).getTuple hplace h
      split
      · rename_i heq'
        rw [heq'] at hget
        exact (hcp cp heq).put hplace hget
      · rename_i heq'
        rw [heq'] at hget
        exact hget
    · exact h
  unfold CompiledGraph.invokeEnd
  dsimp only
  split_ifs
  · exact hreturn
  · exact h

end Keeps

omit [InterruptHash] in
/-- The loop of a subgraph that is invoked has no checkpointer. -/
theorem SubgraphNode.uses_invoked {c : InvokeCall Sub σ}
    (hplace : (node.subgraph.invokeConfig c).2.place = place)
    (h : I (node.subgraph.invokeConfig c).1) : (node.subgraph.invokeLoop c).Uses place I where
  saver := fun _ hcp => nomatch hcp
  config := hplace
  background := fun _ hb => absurd hb List.not_mem_nil
  store := h

omit [InterruptHash] in
theorem SubgraphNode.start_resumed {c : CompiledGraph.ResumeCall σ}
    (h : node.start call = (store, .ok (.resumed c))) :
    node.shouldResume call = (store, .ok true) ∧ c.config = node.childConfig call ∧ c.store = store := by
  obtain ⟨hresume, heq⟩ | ⟨-, heq⟩ := start_eq_ok h
  · cases heq
    exact ⟨hresume, rfl, rfl⟩
  · cases heq

omit [InterruptHash] in
theorem SubgraphNode.start_invoked {c : InvokeCall Sub σ}
    (h : node.start call = (store, .ok (.invoked c))) :
    node.shouldResume call = (store, .ok false) ∧ c.config = node.childConfig call ∧ c.store = store := by
  obtain ⟨-, heq⟩ | ⟨hresume, heq⟩ := start_eq_ok h
  · cases heq
  · cases heq
    exact ⟨hresume, rfl, rfl⟩

/-- **What all requests of one place preserve holds of the store all along a call.** -/
theorem SubgraphNode.Reaches.keeps
    (hcp : ∀ cp, node.subgraph.checkpointer = some cp → cp.Keeps (node.childConfig call).place I)
    (h : I call.store) (hr : node.Reaches call store) : I store := by
  have hstart : I (node.start call).1 := by
    rw [start_fst]
    exact SubgraphNode.keeps_shouldResume hcp rfl h
  -- A resumed child starts from the store that `start` has left, and so does an invoked one.
  have hresumed : ∀ {store c}, node.start call = (store, .ok (.resumed c)) →
      c.config.place = (node.childConfig call).place ∧ I c.store := by
    intro store c hs
    obtain ⟨-, hconfig, hstore⟩ := SubgraphNode.start_resumed hs
    rw [hs] at hstart
    exact ⟨congrArg _ hconfig, hstore ▸ hstart⟩
  have hinvoked : ∀ {store c}, node.start call = (store, .ok (.invoked c)) →
      (node.subgraph.invokeLoop c).Uses (node.childConfig call).place I := by
    intro store c hs
    obtain ⟨-, hconfig, hstore⟩ := SubgraphNode.start_invoked hs
    rw [hs] at hstart
    obtain ⟨hstore, hplace⟩ := SubgraphNode.keeps_invokeConfig hcp (congrArg _ hconfig) (hstore ▸ hstart)
    exact SubgraphNode.uses_invoked hplace hstore
  cases hr with
  | started => exact hstart
  | resuming hs =>
    obtain ⟨hplace, hstore⟩ := hresumed hs
    exact SubgraphNode.keeps_resume hcp hplace hstore
  | resumed hs hresume hl =>
    obtain ⟨hplace, hstore⟩ := hresumed hs
    exact ((SubgraphNode.uses_resumed hcp hplace hstore hresume).attains hl).store
  | resumeEnded hs hresume hl =>
    obtain ⟨hplace, hstore⟩ := hresumed hs
    exact ((SubgraphNode.uses_resumed hcp hplace hstore hresume).ends hl).store
  | invoked hs _ hl => exact ((hinvoked hs).attains hl).store
  | invokeEnded hs _ hl =>
    have hend := (hinvoked hs).ends hl
    exact SubgraphNode.keeps_invokeEnd hcp hend.config hend.store

end Reaches

/-! ### Sessions of a call -/

section Tape

variable {t : Tape}

/-- Nothing is written before a checkpoint has been found. -/
def Modest (log : SaverSession) : Prop :=
  Sessions.Preceded (fun x => x.1.Writes) (fun x => x.2.Found) log

/-- A checkpoint has been found. -/
def Tape.HasFound (t : Tape) : Prop := ∃ x ∈ t.log, x.2.Found

/-- `get_tuple`, asked of the tape. -/
theorem tapeSaver_getTuple {t' : Tape} {config : RunnableConfig}
    {r : Except CheckpointError (Option CheckpointTuple)} (h : Modest t.log)
    (heq : tapeSaver.getTuple t config = (t', r)) :
    Modest t'.log ∧ ∀ tuple, r = .ok (some tuple) → t'.HasFound := by
  cases heq
  refine ⟨Sessions.preceded_concat.2 ⟨h, fun hwrites => hwrites.elim⟩, fun tuple htuple => ?_⟩
  refine ⟨_, List.mem_append_right _ (List.mem_singleton_self _), ?_⟩
  change SaverAnswer.Found (.tuple (t.getTuple config).2)
  rw [show (t.getTuple config).2 = .ok (some tuple) from htuple]
  trivial

theorem Tape.modest_record (request : SaverRequest) (answer : SaverAnswer) (h : Modest t.log)
    (hfound : t.HasFound) : Modest (t.record request answer).log :=
  Sessions.preceded_concat.2 ⟨h, fun _ => hfound⟩

theorem Tape.HasFound.record (hfound : t.HasFound) (request : SaverRequest) (answer : SaverAnswer) :
    (t.record request answer).HasFound := by
  obtain ⟨x, hx, hfound⟩ := hfound
  exact ⟨x, List.mem_append_left _ hx, hfound⟩

/-- Once a checkpoint has been found, everything may be asked. -/
theorem tapeSaver_keeps_modest (place : Option String × Option String) :
    tapeSaver.Keeps place fun t => Modest t.log ∧ t.HasFound where
  getTuple := fun _ ⟨h, hfound⟩ => ⟨Tape.modest_record _ _ h hfound, hfound.record _ _⟩
  put := fun _ ⟨h, hfound⟩ => ⟨Tape.modest_record _ _ h hfound, hfound.record _ _⟩
  putWrites := fun _ ⟨h, hfound⟩ => ⟨Tape.modest_record _ _ h hfound, hfound.record _ _⟩

theorem Tape.forall_record {P : SaverRequest × SaverAnswer → Prop} {request : SaverRequest}
    {answer : SaverAnswer} (h : ∀ x ∈ t.log, P x) (hnew : P (request, answer)) :
    ∀ x ∈ (t.record request answer).log, P x := by
  intro x hx
  obtain hx | hx := List.mem_append.1 hx
  · exact h x hx
  · cases List.mem_singleton.1 hx
    exact hnew

/-- All requests are of one place. -/
theorem tapeSaver_keeps_place (place : Option String × Option String) :
    tapeSaver.Keeps place fun t => ∀ x ∈ t.log, x.1.config.place = place where
  getTuple := fun hplace h => Tape.forall_record h hplace
  put := fun hplace h => Tape.forall_record h hplace
  putWrites := fun hplace h => Tape.forall_record h hplace

/-- With no such answer on the tape, no checkpoint is found. -/
theorem tapeSaver_keeps_not_found (place : Option String × Option String) :
    tapeSaver.Keeps place fun t => (∀ a ∈ t.answers, ¬ a.Found) ∧ ∀ x ∈ t.log, ¬ x.2.Found where
  getTuple := by
    rintro t config - ⟨hanswers, hlog⟩
    refine ⟨fun a ha => hanswers a (List.mem_of_mem_tail ha), Tape.forall_record hlog ?_⟩
    dsimp only
    split
    · rename_i r hr
      exact hanswers _ (List.mem_of_head? hr)
    · exact not_false
  put := fun _ ⟨hanswers, hlog⟩ =>
    ⟨fun a ha => hanswers a (List.mem_of_mem_tail ha), Tape.forall_record hlog not_false⟩
  putWrites := fun _ ⟨hanswers, hlog⟩ =>
    ⟨fun a ha => hanswers a (List.mem_of_mem_tail ha), Tape.forall_record hlog not_false⟩

/-- The only checkpointer of a node is the tape. -/
def SubgraphNode.OnTape {S Sub : Type} [State S] [State Sub] (node : SubgraphNode S Sub Tape) : Prop :=
  ∀ cp, node.subgraph.checkpointer = some cp → cp = tapeSaver

variable {S Sub : Type} [State S] [State Sub] {node : SubgraphNode S Sub Tape}
  {call : SubgraphCall S Tape}

/-- A run is resumed only when a checkpoint is found. -/
theorem SubgraphNode.OnTape.shouldResume (hnode : node.OnTape) (h : Modest call.store.log) :
    Modest (node.shouldResume call).1.log ∧
      ((node.shouldResume call).2 = .ok true → (node.shouldResume call).1.HasFound) := by
  unfold SubgraphNode.shouldResume
  split
  · exact ⟨h, fun heq => nomatch heq⟩
  · rename_i cp hcp
    cases hnode cp hcp
    split <;> rename_i hget <;> obtain ⟨hmodest, hfound⟩ := tapeSaver_getTuple h hget
    · exact ⟨hmodest, fun heq => nomatch heq⟩
    · exact ⟨hmodest, fun heq => nomatch heq⟩
    · exact ⟨hmodest, fun _ => hfound _ rfl⟩

/-- The setup of a run that is invoked writes nothing. -/
theorem SubgraphNode.OnTape.invokeConfig (hnode : node.OnTape) {c : InvokeCall Sub Tape}
    (h : Modest c.store.log) : Modest (node.subgraph.invokeConfig c).1.log := by
  unfold CompiledGraph.invokeConfig
  split
  · exact h
  · rename_i cp hcp
    cases hnode cp hcp
    dsimp only
    split <;> rename_i hget <;> exact (tapeSaver_getTuple h hget).1

/-- A result is filed with a checkpoint that is found. -/
theorem SubgraphNode.OnTape.invokeEnd (hnode : node.OnTape) (c : InvokeCall Sub Tape)
    {l : PregelLoop Sub Tape} (e : Ending) (h : Modest l.store.log) :
    Modest (node.subgraph.invokeEnd c l e).2.1.log := by
  have hreturn : Modest (node.subgraph.storeReturnValue l).log := by
    unfold CompiledGraph.storeReturnValue
    split
    · rename_i cp value hcp _
      cases hnode cp hcp
      split
      · rename_i hget
        obtain ⟨hmodest, hfound⟩ := tapeSaver_getTuple h hget
        exact Tape.modest_record _ _ hmodest (hfound _ rfl)
      · rename_i hget
        exact (tapeSaver_getTuple h hget).1
    · exact h
  unfold CompiledGraph.invokeEnd
  dsimp only
  split_ifs
  · exact hreturn
  · exact h

variable [InterruptHash]

/-- **A call writes nothing before it has found a checkpoint.** -/
theorem SubgraphNode.OnTape.modest (hnode : node.OnTape) (h : Modest call.store.log)
    (hr : node.Reaches call t) : Modest t.log := by
  obtain ⟨hstart, hresume⟩ := hnode.shouldResume h
  have hresumed : ∀ {store c}, node.start call = (store, .ok (.resumed c)) →
      c.config.place = (node.childConfig call).place ∧ Modest c.store.log ∧ c.store.HasFound := by
    intro store c hs
    obtain ⟨hs, hconfig, hstore⟩ := SubgraphNode.start_resumed hs
    rw [hs] at hstart hresume
    rw [hconfig, hstore]
    exact ⟨rfl, hstart, hresume rfl⟩
  -- the loop of an invoked run does not reach the store
  have hinvoked : ∀ {store c}, node.start call = (store, .ok (.invoked c)) →
      (node.subgraph.invokeLoop c).Uses (node.subgraph.invokeConfig c).2.place
        fun t => Modest t.log := by
    intro store c hs
    obtain ⟨hs, -, hstore⟩ := SubgraphNode.start_invoked hs
    rw [hs] at hstart
    rw [← hstore] at hstart
    exact SubgraphNode.uses_invoked rfl (hnode.invokeConfig hstart)
  have hcp : ∀ cp, node.subgraph.checkpointer = some cp →
      cp.Keeps (node.childConfig call).place fun t => Modest t.log ∧ t.HasFound := by
    rintro cp hcp
    cases hnode cp hcp
    exact tapeSaver_keeps_modest _
  cases hr with
  | started =>
    rw [SubgraphNode.start_fst]
    exact hstart
  | resuming hs =>
    obtain ⟨hplace, hstore⟩ := hresumed hs
    exact (SubgraphNode.keeps_resume hcp hplace hstore).1
  | resumed hs hloop hl =>
    obtain ⟨hplace, hstore⟩ := hresumed hs
    exact ((SubgraphNode.uses_resumed hcp hplace hstore hloop).attains hl).store.1
  | resumeEnded hs hloop hl =>
    obtain ⟨hplace, hstore⟩ := hresumed hs
    exact ((SubgraphNode.uses_resumed hcp hplace hstore hloop).ends hl).store.1
  | invoked hs _ hl => exact ((hinvoked hs).attains hl).store
  | invokeEnded hs _ hl => exact hnode.invokeEnd _ _ ((hinvoked hs).ends hl).store

/-- **A call asks for nothing but checkpoints in its namespace.** -/
theorem SubgraphNode.OnTape.own (hnode : node.OnTape) (h : call.store.log = [])
    (hr : node.Reaches call t) : ∀ x ∈ t.log, x.1.config.place = (node.childConfig call).place := by
  refine hr.keeps (I := fun t => ∀ x ∈ t.log, x.1.config.place = (node.childConfig call).place) ?_ ?_
  · rintro cp hcp
    cases hnode cp hcp
    exact tapeSaver_keeps_place _
  · rw [h]
    exact List.forall_mem_nil _

end Tape

end Juncture
