import Juncture.Graph.Sessions
import Juncture.Graph.Resume

/-!
# Isolation of subgraphs

Calls of subgraphs share one `MemorySaver` with the runs of their parents, with each other, and with
anyone else: the requests of all of them reach it one at a time, in any order.  Nested calls are parties of
their own.

* `Invocation.Confined` : a request reads and writes only checkpoints of the namespace of the call.
* `Isolated` : all calls keep to their namespaces, and stateless ones find and write nothing and start from
  their mapped inputs.
* `isolated_iff` : they do in exactly the runs where the root namespace is bare for the stateless calls.
-/

namespace Juncture

/-! ### The shared checkpointer -/

namespace MemoryStore

/-- What is kept of a thread and namespace. -/
def at_ (store : MemoryStore) (key : String × String) :
    Option (List CheckpointTuple) × (Uuid → Option (List PendingWrite)) :=
  (store.storage.lookup key, fun id => store.writes.lookup (key.1, id, key.2))

variable {store store' : MemoryStore} {request : SaverRequest} {key : String × String}

/-- Where a configuration leads to. -/
def Addresses (config : RunnableConfig) (key : String × String) : Prop :=
  config.threadId = some key.1 ∧ MemorySaver.getCheckpointNs config = key.2

/-- Reading changes nothing. -/
theorem serve_of_reads (h : ¬ request.Writes) : (memorySaver.serve store request).1 = store := by
  cases request with
  | getTuple config =>
    change (MemorySaver.getTuple store config).1 = store
    unfold MemorySaver.getTuple
    split <;> rfl
  | put config checkpoint metadata => exact absurd trivial h
  | putWrites config writes taskId => exact absurd trivial h

/-- **A request changes only what it addresses.** -/
theorem at_serve (h : ¬ Addresses request.config key) :
    (memorySaver.serve store request).1.at_ key = store.at_ key := by
  cases request with
  | getTuple config => rw [serve_of_reads (show ¬ (SaverRequest.getTuple config).Writes from not_false)]
  | put config checkpoint metadata =>
    change (MemorySaver.put store config checkpoint metadata).1.at_ key = _
    unfold MemorySaver.put MemorySaver.getThreadId
    rcases hthread : config.threadId with - | threadId
    · rfl
    · have hne : key ≠ (threadId, MemorySaver.getCheckpointNs config) := by
        rintro rfl
        exact h ⟨hthread, rfl⟩
      simp only [at_, AList.lookup_insert_ne hne]
  | putWrites config writes taskId =>
    change (MemorySaver.putWrites store config writes taskId).1.at_ key = _
    unfold MemorySaver.putWrites MemorySaver.getThreadId
    rcases hthread : config.threadId with - | threadId
    · rfl
    · rcases config.checkpointId with - | checkpointId
      · rfl
      · have hne : ∀ id, (key.1, id, key.2) ≠
            (threadId, checkpointId, MemorySaver.getCheckpointNs config) := by
          intro id heq
          obtain ⟨hfst, hsnd⟩ := Prod.ext_iff.1 heq
          exact h ⟨hthread.trans (congrArg some hfst.symm), (Prod.ext_iff.1 hsnd).2.symm⟩
        simp only [at_, AList.lookup_insert_ne (hne _)]

/-- When a checkpoint is found. -/
theorem found_serve : (memorySaver.serve store request).2.Found ↔
    ∃ config threadId tuple, request = .getTuple config ∧ config.threadId = some threadId ∧
      (store.storage.lookup (threadId, MemorySaver.getCheckpointNs config)).bind
        (MemorySaver.select config) = some tuple := by
  cases request with
  | getTuple config =>
    change SaverAnswer.Found (.tuple (MemorySaver.getTuple store config).2) ↔ _
    unfold MemorySaver.getTuple MemorySaver.getThreadId
    rcases hthread : config.threadId with - | threadId
    · refine ⟨False.elim, ?_⟩
      rintro ⟨config, threadId, tuple, heq, hsome, -⟩
      cases heq
      cases hthread.symm.trans hsome
    · rcases hfound : (store.storage.lookup (threadId, MemorySaver.getCheckpointNs config)).bind
          (MemorySaver.select config) with - | tuple
      · simp only [hfound]
        refine ⟨False.elim, ?_⟩
        rintro ⟨config, threadId, tuple, heq, hsome, htuple⟩
        cases heq
        cases hthread.symm.trans hsome
        cases hfound.symm.trans htuple
      · simp only [hfound]
        exact ⟨fun _ => ⟨config, threadId, tuple, rfl, hthread, hfound⟩, fun _ => trivial⟩
  | put config checkpoint metadata => exact ⟨False.elim, by rintro ⟨_, _, _, heq, -⟩; cases heq⟩
  | putWrites config writes taskId => exact ⟨False.elim, by rintro ⟨_, _, _, heq, -⟩; cases heq⟩

/-- **An answer depends only on what the request addresses.** -/
theorem serve_congr (h : ∀ key, Addresses request.config key → store.at_ key = store'.at_ key) :
    (memorySaver.serve store request).2 = (memorySaver.serve store' request).2 := by
  cases request with
  | getTuple config =>
    refine congrArg SaverAnswer.tuple ?_
    change (MemorySaver.getTuple store config).2 = (MemorySaver.getTuple store' config).2
    unfold MemorySaver.getTuple MemorySaver.getThreadId
    rcases hthread : config.threadId with - | threadId
    · rfl
    · have hsame := h (threadId, MemorySaver.getCheckpointNs config) ⟨hthread, rfl⟩
      have hstorage : store.storage.lookup _ = store'.storage.lookup _ := congrArg Prod.fst hsame
      have hwrites := fun id => congrFun (congrArg Prod.snd hsame) id
      dsimp only [at_] at hwrites
      simp only [hstorage, hwrites]
  | put config checkpoint metadata =>
    refine congrArg SaverAnswer.config ?_
    change (MemorySaver.put store config checkpoint metadata).2 =
      (MemorySaver.put store' config checkpoint metadata).2
    unfold MemorySaver.put
    split <;> rfl
  | putWrites config writes taskId =>
    refine congrArg SaverAnswer.unit ?_
    change (MemorySaver.putWrites store config writes taskId).2 =
      (MemorySaver.putWrites store' config writes taskId).2
    unfold MemorySaver.putWrites
    split
    · rfl
    · split <;> rfl

end MemoryStore

/-! ### Calls -/

/-- The graph with another checkpointer in the place of its own. -/
def CompiledGraph.using {S σ τ : Type} [State S] (g : CompiledGraph S σ) (cp : CheckpointSaver τ) :
    CompiledGraph S τ where
  nodes := g.nodes
  triggerTable := g.triggerTable
  builderMetadata := g.builderMetadata
  checkpointer := g.checkpointer.map fun _ => cp
  interruptBefore := g.interruptBefore
  interruptAfter := g.interruptAfter
  cachePolicy := g.cachePolicy

/-- A call of a subgraph, with nothing said of when it is made. -/
structure Invocation where
  /-- State of the parent. -/
  Parent : Type
  /-- State of the subgraph. -/
  Sub : Type
  [parentState : State Parent]
  [subState : State Sub]
  /-- The node. -/
  node : SubgraphNode Parent Sub MemoryStore
  /-- Its arguments. -/
  call : SubgraphCall Parent Unit
  /-- It has the shared checkpointer, if any. -/
  shares : ∀ cp, node.subgraph.checkpointer = some cp → cp = memorySaver

namespace Invocation

attribute [instance] parentState subState

variable (inv : Invocation)

/-- The namespace of the call. -/
def namespace_ : Option String :=
  computeChildNamespace inv.node.persistence inv.node.name inv.call.config.checkpointNs
    inv.call.config.threadId inv.call.invocationId

/-- It keeps no checkpoints. -/
def Stateless : Prop := inv.node.persistence = .stateless

/-- The node with a tape in the place of the shared checkpointer. -/
def tapeNode : SubgraphNode inv.Parent inv.Sub Tape where
  subgraph := inv.node.subgraph.using tapeSaver
  name := inv.node.name
  inputMap := inv.node.inputMap
  outputMap := inv.node.outputMap
  persistence := inv.node.persistence

/-- The call with these answers on the tape. -/
def onTape (answers : List SaverAnswer) : SubgraphCall inv.Parent Tape where
  state := inv.call.state
  config := inv.call.config
  invocationId := inv.call.invocationId
  store := { answers }
  results := inv.call.results
  nextUuid := inv.call.nextUuid
  now := inv.call.now

/-- The sessions that the call may have with the checkpointer so far. -/
def May [InterruptHash] (session : SaverSession) : Prop :=
  ∃ answers t, inv.tapeNode.Reaches (inv.onTape answers) t ∧ session <+: t.log

variable {inv}

theorem tapeNode_onTape : inv.tapeNode.OnTape := by
  intro cp hcp
  obtain ⟨-, -, rfl⟩ := Option.map_eq_some_iff.1 hcp
  rfl

variable [InterruptHash] {session : SaverSession}

/-- A call asks for nothing but checkpoints of its thread and namespace. -/
theorem May.own (h : inv.May session) :
    ∀ x ∈ session, x.1.config.place = (inv.call.config.threadId, inv.namespace_) := by
  obtain ⟨answers, t, hr, hsession⟩ := h
  exact fun x hx => tapeNode_onTape.own rfl hr x (hsession.subset hx)

/-- A call writes nothing before it has found a checkpoint. -/
theorem May.modest (h : inv.May session) : Modest session := by
  obtain ⟨answers, t, hr, hsession⟩ := h
  refine (tapeNode_onTape.modest ?_ hr).initial hsession
  exact Sessions.preceded_nil

omit [InterruptHash] in
/-- As long as it has not found a checkpoint, a call starts from its mapped input. -/
theorem start_of_not_found {answers : List SaverAnswer} (hanswers : ∀ a ∈ answers, ¬ a.Found)
    {store : Tape} {run : SubgraphRun inv.Sub Tape}
    (h : inv.tapeNode.start (inv.onTape answers) = (store, .ok run)) :
    ∃ c, run = .invoked c ∧ c.input = inv.node.inputMap inv.call.state := by
  obtain ⟨hresume, rfl⟩ | ⟨-, rfl⟩ := SubgraphNode.start_eq_ok h
  · have hempty : Modest (inv.onTape answers).store.log := Sessions.preceded_nil
    obtain ⟨-, hfound⟩ := tapeNode_onTape.shouldResume hempty
    have hplace : (inv.tapeNode.childConfig (inv.onTape answers)).place = _ := rfl
    have hkept := SubgraphNode.keeps_shouldResume
      (fun cp hcp => tapeNode_onTape cp hcp ▸ tapeSaver_keeps_not_found _) hplace
      ⟨hanswers, List.forall_mem_nil _⟩
    rw [hresume] at hfound hkept
    obtain ⟨x, hx, hfound⟩ := hfound rfl
    exact absurd hfound (hkept.2 x hx)
  · exact ⟨_, rfl, rfl⟩

end Invocation

/-! ### All of them together -/

section Shared

variable {π : Type} [DecidableEq π] [InterruptHash]

/-- A request to the shared checkpointer. -/
abbrev SaverStep (π : Type) := Sessions.Step MemoryStore SaverRequest SaverAnswer π

/-- Where a call keeps its checkpoints. -/
def Invocation.Owns (inv : Invocation) (key : String × String) : Prop :=
  inv.call.config.threadId = some key.1 ∧ inv.namespace_ = some key.2

/-- The request reads and writes only checkpoints of the namespace of the call. -/
structure Invocation.Confined (inv : Invocation) (x : SaverStep π) : Prop where
  /-- All else is left as it is. -/
  writes : ∀ key, ¬ inv.Owns key →
    (memorySaver.serve x.before x.request).1.at_ key = x.before.at_ key
  /-- The answer is the same whatever all else is. -/
  reads : ∀ store : MemoryStore, (∀ key, inv.Owns key → store.at_ key = x.before.at_ key) →
    (memorySaver.serve store x.request).2 = x.answer

variable (parties : π → Option Invocation)

/-- The parties of a run are calls of subgraphs, and others that may ask for anything. -/
def MaySession (p : π) (session : SaverSession) : Prop :=
  ∀ inv, parties p = some inv → inv.May session

/-- The runs of the shared checkpointer. -/
def SharedRuns (s₀ : MemoryStore) (steps : List (SaverStep π)) (s : MemoryStore) : Prop :=
  Sessions.Runs memorySaver.serve (MaySession parties) s₀ steps s

/-- The calls of subgraphs are isolated. -/
structure Isolated (steps : List (SaverStep π)) : Prop where
  /-- They read and write only checkpoints of their namespaces. -/
  own : ∀ x ∈ steps, ∀ inv, parties x.party = some inv → ¬ inv.Stateless → inv.Confined x
  /-- The stateless ones read and write none. -/
  none : ∀ x ∈ steps, ∀ inv, parties x.party = some inv → inv.Stateless →
    ¬ x.answer.Found ∧ (memorySaver.serve x.before x.request).1 = x.before
  /-- With the answers they got, they run from their mapped inputs. -/
  input : ∀ p inv, parties p = some inv → inv.Stateless → ∀ store run,
    inv.tapeNode.start (inv.onTape ((Sessions.session p steps).map Prod.snd)) = (store, .ok run) →
      ∃ c, run = .invoked c ∧ c.input = inv.node.inputMap inv.call.state

/-- Whenever a stateless call asks for a checkpoint, there is none of that kind in the root namespace of
the thread. -/
def RootBare (steps : List (SaverStep π)) : Prop :=
  ∀ x ∈ steps, ∀ inv, parties x.party = some inv → inv.Stateless →
    ∀ config threadId, x.request = .getTuple config → config.threadId = some threadId →
      (x.before.storage.lookup (threadId, "")).bind (MemorySaver.select config) = none

variable {parties} {s₀ s : MemoryStore} {steps : List (SaverStep π)} {x : SaverStep π}
  {inv : Invocation}

omit [DecidableEq π] [InterruptHash] in
theorem Invocation.namespace_eq_none (h : inv.Stateless) : inv.namespace_ = none := by
  unfold namespace_ computeChildNamespace
  rw [show inv.node.persistence = _ from h]

omit [DecidableEq π] [InterruptHash] in
/-- What the requests of a call address. -/
theorem Invocation.addresses_iff {config : RunnableConfig} {key : String × String}
    (h : ¬ inv.Stateless) (hplace : config.place = (inv.call.config.threadId, inv.namespace_)) :
    MemoryStore.Addresses config key ↔ inv.Owns key := by
  obtain ⟨hthread, hns⟩ := Prod.ext_iff.1 hplace
  obtain ⟨ns, hsome⟩ : ∃ ns, inv.namespace_ = some ns := by
    unfold namespace_ computeChildNamespace
    split
    · exact absurd ‹_› h
    · exact ⟨_, rfl⟩
    · exact ⟨_, rfl⟩
  have hconfig : config.checkpointNs = some ns := hns.trans hsome
  unfold MemoryStore.Addresses Owns MemorySaver.getCheckpointNs
  rw [show config.threadId = _ from hthread, hconfig, hsome, Option.getD_some, Option.some_inj]

theorem SharedRuns.place (h : SharedRuns parties s₀ steps s) (hx : x ∈ steps)
    (hinv : parties x.party = some inv) :
    x.request.config.place = (inv.call.config.threadId, inv.namespace_) := by
  obtain ⟨pre, -, -, hmay, -⟩ := h.of_mem hx
  exact (hmay inv hinv).own _ (List.mem_append_right _ (List.mem_singleton_self _))

theorem SharedRuns.answer (h : SharedRuns parties s₀ steps s) (hx : x ∈ steps) :
    x.answer = (memorySaver.serve x.before x.request).2 := by
  obtain ⟨pre, -, -, -, heq⟩ := h.of_mem hx
  exact heq

/-- A call with a namespace is confined to it. -/
theorem SharedRuns.confined (h : SharedRuns parties s₀ steps s) (hx : x ∈ steps)
    (hinv : parties x.party = some inv) (hstate : ¬ inv.Stateless) : inv.Confined x where
  writes := fun key hkey =>
    MemoryStore.at_serve fun haddr => hkey ((Invocation.addresses_iff hstate (h.place hx hinv)).1 haddr)
  reads := fun store hstore => by
    rw [h.answer hx]
    exact MemoryStore.serve_congr fun key haddr =>
      hstore key ((Invocation.addresses_iff hstate (h.place hx hinv)).1 haddr)

/-- When a stateless call finds a checkpoint: it looks in the root namespace. -/
theorem SharedRuns.found_iff (h : SharedRuns parties s₀ steps s) (hx : x ∈ steps)
    (hinv : parties x.party = some inv) (hstate : inv.Stateless) : x.answer.Found ↔
    ∃ config threadId tuple, x.request = .getTuple config ∧ config.threadId = some threadId ∧
      (x.before.storage.lookup (threadId, "")).bind (MemorySaver.select config) = some tuple := by
  have hplace := h.place hx hinv
  rw [Invocation.namespace_eq_none hstate] at hplace
  rw [h.answer hx, MemoryStore.found_serve]
  refine exists_congr fun config => exists_congr fun threadId => exists_congr fun tuple =>
    and_congr_right fun heq => ?_
  rw [heq] at hplace
  have hns : config.checkpointNs = none := congrArg Prod.snd hplace
  unfold MemorySaver.getCheckpointNs
  rw [hns, Option.getD_none]

/-- Stateless calls find nothing if and only if the root namespace is bare for them. -/
theorem SharedRuns.rootBare_iff (h : SharedRuns parties s₀ steps s) : RootBare parties steps ↔
    ∀ x ∈ steps, ∀ inv, parties x.party = some inv → inv.Stateless → ¬ x.answer.Found := by
  constructor
  · intro hbare x hx inv hinv hstate hfound
    obtain ⟨config, threadId, tuple, hreq, hthread, htuple⟩ := (h.found_iff hx hinv hstate).1 hfound
    cases (hbare x hx inv hinv hstate config threadId hreq hthread).symm.trans htuple
  · intro hnone x hx inv hinv hstate config threadId hreq hthread
    by_contra hne
    obtain ⟨tuple, htuple⟩ := Option.ne_none_iff_exists'.1 hne
    exact hnone x hx inv hinv hstate
      ((h.found_iff hx hinv hstate).2 ⟨config, threadId, tuple, hreq, hthread, htuple⟩)

/-- A stateless call that finds nothing writes nothing. -/
theorem SharedRuns.silent (h : SharedRuns parties s₀ steps s)
    (hnone : ∀ x ∈ steps, ∀ inv, parties x.party = some inv → inv.Stateless → ¬ x.answer.Found)
    (hx : x ∈ steps) (hinv : parties x.party = some inv) (hstate : inv.Stateless) :
    (memorySaver.serve x.before x.request).1 = x.before := by
  obtain ⟨pre, hpre, -, hmay, -⟩ := h.of_mem hx
  have hmodest := (hmay inv hinv).modest
  rw [← Sessions.session_append_self] at hmodest
  have hwrites : ¬ x.request.Writes := by
    refine hmodest.forall_not ?_ (x.request, x.answer)
      (Sessions.mem_session.2 ⟨x, List.mem_append_right _ (List.mem_singleton_self _), rfl, rfl⟩)
    rintro e he hfound
    obtain ⟨y, hy, hparty, rfl⟩ := Sessions.mem_session.1 he
    have hsteps : y ∈ steps := by
      obtain hy | hy := List.mem_append.1 hy
      · exact hpre y hy
      · cases List.mem_singleton.1 hy
        exact hx
    exact hnone y hsteps inv (hparty ▸ hinv) hstate hfound
  exact MemoryStore.serve_of_reads hwrites

/-- **The calls of subgraphs are isolated if and only if the root namespace is bare for the stateless
ones.** -/
theorem isolated_iff (h : SharedRuns parties s₀ steps s) :
    Isolated parties steps ↔ RootBare parties steps := by
  rw [h.rootBare_iff]
  constructor
  · exact fun hiso x hx inv hinv hstate => (hiso.none x hx inv hinv hstate).1
  · intro hnone
    refine ⟨fun x hx inv hinv hstate => h.confined hx hinv hstate,
      fun x hx inv hinv hstate => ⟨hnone x hx inv hinv hstate, h.silent hnone hx hinv hstate⟩,
      fun p inv hinv hstate store run hstart => ?_⟩
    refine Invocation.start_of_not_found ?_ hstart
    intro a ha
    obtain ⟨e, he, rfl⟩ := List.mem_map.1 ha
    obtain ⟨x, hx, rfl, rfl⟩ := Sessions.mem_session.1 he
    exact hnone x hx inv hinv hstate

end Shared

/-! ### A stopped parent with a stateless subgraph -/

/-- A stateless mount of a small graph. -/
def statelessNode : SubgraphNode Transcript Transcript MemoryStore where
  subgraph := smallGraph chain
  name := "sub"
  inputMap := id
  outputMap sub := { log := some sub.log }
  persistence := .stateless

/-- Its call in a parent on thread `t` that is being resumed. -/
def statelessCall : Invocation where
  Parent := Transcript
  Sub := Transcript
  node := statelessNode
  call := {
    state := {}
    config := { threadId := some "t", resumeValue := some (.single .null) }
    invocationId := "1"
    store := ()
    nextUuid := 200 }
  shares := fun _ hcp => (Option.some.inj hcp).symm

/-- What is asked before it is decided whether to resume. -/
theorem SubgraphNode.shouldResume_fst {S Sub σ : Type} [State S] [State Sub] {node : SubgraphNode S Sub σ}
    {call : SubgraphCall S σ} {cp : CheckpointSaver σ} (hcp : node.subgraph.checkpointer = some cp) :
    (node.shouldResume call).1 = (cp.getTuple call.store (node.childConfig call)).1 := by
  unfold shouldResume
  rw [hcp]
  dsimp only
  split <;> rename_i heq <;> rw [heq]

/-- The call asks whether to resume. -/
def statelessAsks (s₀ : MemoryStore) : SaverStep Unit where
  before := s₀
  party := ()
  request := .getTuple { threadId := some "t" }
  answer := (memorySaver.serve s₀ (SaverRequest.getTuple { threadId := some "t" })).2

theorem sharedRuns_statelessAsks (s₀ : MemoryStore) :
    SharedRuns (fun _ => some statelessCall) s₀ [statelessAsks s₀] s₀ := by
  have hstart : statelessCall.tapeNode.Reaches (statelessCall.onTape [(statelessAsks s₀).answer])
      (statelessCall.tapeNode.start (statelessCall.onTape [(statelessAsks s₀).answer])).1 := .started
  refine Sessions.Runs.step .start () (SaverRequest.getTuple { threadId := some "t" }) ?_
  rintro inv heq
  cases heq
  refine ⟨_, _, hstart, ?_⟩
  rw [SubgraphNode.start_fst, SubgraphNode.shouldResume_fst rfl]
  exact List.prefix_rfl

/-- The call finds the checkpoint that the interrupt of its parent has left. -/
theorem stoppedParent_not_isolated : ∃ s, SharedRuns (fun _ => some statelessCall)
      (firstStop chain { interruptAfter := some ["b"] }).store
      [statelessAsks (firstStop chain { interruptAfter := some ["b"] }).store] s ∧
    ¬ Isolated (fun _ => some statelessCall)
      [statelessAsks (firstStop chain { interruptAfter := some ["b"] }).store] := by
  refine ⟨_, sharedRuns_statelessAsks _, fun h => ?_⟩
  obtain ⟨c, hc, -⟩ := h.input () statelessCall rfl rfl _ _ rfl
  cases hc

/-- On a thread without checkpoints the call is isolated. -/
theorem isolated_iff_bare : Isolated (fun _ => some statelessCall) [statelessAsks {}] := by
  refine (isolated_iff (sharedRuns_statelessAsks {})).2 ?_
  intro x hx inv hinv hstate config threadId hreq hthread
  cases List.mem_singleton.1 hx
  rfl

end Juncture
