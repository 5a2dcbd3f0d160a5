import Juncture.Graph.Isolation

/-!
# Interrupts in nested runs

A subgraph that stops at an interrupt should stop its parent, and go on from its own checkpoint when the
parent is resumed.  A call does look for such a checkpoint.  But the run of `invoke` has no checkpointer: it
saves none, in whatever form it is interrupted.  So there is never anything to be found in the namespaces of
calls, however deep they are nested.

* `NestedRuns` : calls of subgraphs and top-level runs share one `MemorySaver`.
* `NestedRuns.bare` : no checkpoint is ever found outside the root namespace.
* `Invocation.told_iff` : which interrupts the parent is told of.
* `interruptLaw_iff` : the law of nested interrupts holds in exactly the runs where no subgraph stops.
-/

namespace Juncture

/-! ### What is saved -/

/-- Nothing is saved outside the root namespaces. -/
def MemoryStore.Bare (store : MemoryStore) : Prop :=
  ∀ key : String × String, key.2 ≠ "" → store.storage.lookup key = none

theorem MemoryStore.Bare.serve {store : MemoryStore} {request : SaverRequest} (h : store.Bare)
    (hns : request.config.checkpointNs = none) : (memorySaver.serve store request).1.Bare := by
  intro key hkey
  have hne : ¬ MemoryStore.Addresses request.config key := by
    rintro ⟨-, haddr⟩
    unfold MemorySaver.getCheckpointNs at haddr
    rw [hns, Option.getD_none] at haddr
    exact hkey haddr.symm
  exact (congrArg Prod.fst (MemoryStore.at_serve hne)).trans (h key hkey)

theorem MemoryStore.Bare.not_found {store : MemoryStore} {request : SaverRequest} (h : store.Bare)
    (hns : MemorySaver.getCheckpointNs request.config ≠ "") :
    ¬ (memorySaver.serve store request).2.Found := by
  rw [MemoryStore.found_serve]
  rintro ⟨config, threadId, tuple, rfl, -, htuple⟩
  rw [h (threadId, MemorySaver.getCheckpointNs config) hns] at htuple
  cases htuple

theorem childNamespace_ne_empty (base nodeName invocationId : String) :
    childNamespace base nodeName invocationId ≠ "" := by
  intro h
  have hlength := congrArg String.length h
  simp [childNamespace] at hlength

/-- The namespace of a call that keeps checkpoints is not the root. -/
theorem exists_computeChildNamespace {persistence : SubgraphPersistence} (h : persistence ≠ .stateless)
    (name : String) (parentNs threadId : Option String) (invocationId : String) :
    ∃ ns, ns ≠ "" ∧ computeChildNamespace persistence name parentNs threadId invocationId = some ns := by
  cases persistence with
  | inherit => exact ⟨_, childNamespace_ne_empty _ _ _, rfl⟩
  | perThread => exact ⟨_, childNamespace_ne_empty _ _ _, rfl⟩
  | stateless => exact absurd rfl h

/-! ### Runs -/

section Nested

variable {π : Type} [DecidableEq π] [InterruptHash] (parties : π → Option Invocation)

/-- The parties of a run are calls of subgraphs, and top-level runs, which have no namespace. -/
def MayNested (p : π) (session : SaverSession) : Prop :=
  (∀ inv, parties p = some inv → inv.May session) ∧
    (parties p = none → ∀ x ∈ session, x.1.config.checkpointNs = none)

/-- The runs of the shared checkpointer. -/
def NestedRuns (s₀ : MemoryStore) (steps : List (SaverStep π)) (s : MemoryStore) : Prop :=
  Sessions.Runs memorySaver.serve (MayNested parties) s₀ steps s

variable {parties} {s₀ s : MemoryStore} {steps : List (SaverStep π)}

omit [DecidableEq π] in
/-- The requests of a call that keeps checkpoints do not lead to the root. -/
theorem MayNested.ne_root {p : π} {session : SaverSession} {inv : Invocation}
    (h : MayNested parties p session) (hinv : parties p = some inv) (hstate : ¬ inv.Stateless) :
    ∀ x ∈ session, MemorySaver.getCheckpointNs x.1.config ≠ "" := by
  intro x hx
  obtain ⟨ns, hne, hns⟩ := exists_computeChildNamespace hstate inv.node.name
    inv.call.config.checkpointNs inv.call.config.threadId inv.call.invocationId
  have hplace := congrArg Prod.snd ((h.1 inv hinv).own x hx)
  have hconfig : x.1.config.checkpointNs = some ns := hplace.trans hns
  unfold MemorySaver.getCheckpointNs
  rw [hconfig]
  exact hne

omit [DecidableEq π] in
/-- All other requests do. -/
theorem MayNested.root {p : π} {session : SaverSession} (h : MayNested parties p session)
    (hp : ∀ inv, parties p = some inv → inv.Stateless) :
    ∀ x ∈ session, x.1.config.checkpointNs = none := by
  cases hinv : parties p with
  | none => exact h.2 hinv
  | some inv =>
    intro x hx
    have hplace := congrArg Prod.snd ((h.1 inv hinv).own x hx)
    exact hplace.trans (Invocation.namespace_eq_none (hp inv hinv))

/-- **No call with a namespace ever finds a checkpoint.** -/
theorem NestedRuns.bare (h : NestedRuns parties s₀ steps s) (hbare : s₀.Bare) : s.Bare ∧
    ∀ x ∈ steps, ∀ inv, parties x.party = some inv → ¬ inv.Stateless → ¬ x.answer.Found := by
  induction h with
  | start => exact ⟨hbare, List.forall_mem_nil _⟩
  | @step steps s h p request hmay ih =>
    obtain ⟨hs, hsteps⟩ := ih
    have hlast : (request, (memorySaver.serve s request).2) ∈
        Sessions.session p steps ++ [(request, (memorySaver.serve s request).2)] :=
      List.mem_append_right _ (List.mem_singleton_self _)
    have hnew : ∀ inv, parties p = some inv → ¬ inv.Stateless →
        ¬ (memorySaver.serve s request).2.Found :=
      fun inv hinv hstate => hs.not_found (hmay.ne_root hinv hstate _ hlast)
    refine ⟨?_, fun x hx inv hinv hstate => ?_⟩
    · by_cases hroot : ∀ inv, parties p = some inv → inv.Stateless
      · exact hs.serve (hmay.root hroot _ hlast)
      · -- a call that has found nothing so far, and so writes nothing
        push Not at hroot
        obtain ⟨inv, hinv, hstate⟩ := hroot
        have hwrites : ¬ request.Writes := by
          refine (hmay.1 inv hinv).modest.forall_not (fun y hy => ?_) _ hlast
          obtain hy | hy := List.mem_append.1 hy
          · obtain ⟨x, hx, hp, rfl⟩ := Sessions.mem_session.1 hy
            exact hsteps x hx inv (hp ▸ hinv) hstate
          · cases List.mem_singleton.1 hy
            exact hnew inv hinv hstate
        rw [MemoryStore.serve_of_reads hwrites]
        exact hs
    · obtain hx | hx := List.mem_append.1 hx
      · exact hsteps x hx inv hinv hstate
      · cases List.mem_singleton.1 hx
        exact hnew inv hinv hstate

/-- All calls with a namespace run from their mapped inputs. -/
theorem NestedRuns.input (h : NestedRuns parties s₀ steps s) (hbare : s₀.Bare) {p : π} {inv : Invocation}
    (hinv : parties p = some inv) (hstate : ¬ inv.Stateless) {store : Tape}
    {run : SubgraphRun inv.Sub Tape} (hstart : inv.tapeNode.start
      (inv.onTape ((Sessions.session p steps).map Prod.snd)) = (store, .ok run)) :
    ∃ c, run = .invoked c ∧ c.input = inv.node.inputMap inv.call.state := by
  refine Invocation.start_of_not_found (fun a ha => ?_) hstart
  obtain ⟨e, he, rfl⟩ := List.mem_map.1 ha
  obtain ⟨x, hx, rfl, rfl⟩ := Sessions.mem_session.1 he
  exact (h.bare hbare).2 x hx inv hinv hstate

/-! ### The law -/

/-- A run is interrupted: in a superstep, by the tick it ends with, or by the error it fails with. -/
def RaisesInterrupt {S σ : Type} [State S] (statuses : List LoopStatus) (l : PregelLoop S σ)
    (e : Ending) : Prop :=
  (∃ status ∈ statuses, status.isInterrupted = true) ∨ l.status.isInterrupted = true ∨
    ∃ error, e = .superstepFailed error ∧ error.isInterrupt = true

namespace Invocation

variable (inv : Invocation)

/-- The run of the subgraph has been interrupted: how it ended, and what it returns. -/
inductive Stops (session : SaverSession) : Ending → Except JunctureError (GraphOutput inv.Sub) → Prop
  /-- A run that was resumed. -/
  | resumed {answers : List SaverAnswer} {store store' : Tape} {c : CompiledGraph.ResumeCall Tape}
    {l₀ l : PregelLoop inv.Sub Tape} {statuses : List LoopStatus} {e : Ending}
    (h : inv.tapeNode.start (inv.onTape answers) = (store, .ok (.resumed c)))
    (hresume : inv.tapeNode.subgraph.resume c = (store', .ok l₀)) (hl : l₀.Ends statuses l e)
    (hint : RaisesInterrupt statuses l e) (hsession : (CompiledGraph.resumeEnd c l e).2.log = session) :
    Stops session e (CompiledGraph.resumeEnd c l e).1
  /-- A run that was invoked. -/
  | invoked {answers : List SaverAnswer} {store : Tape} {c : InvokeCall inv.Sub Tape}
    {l : PregelLoop inv.Sub Tape} {statuses : List LoopStatus} {e : Ending}
    (h : inv.tapeNode.start (inv.onTape answers) = (store, .ok (.invoked c)))
    (hcache : (inv.tapeNode.subgraph.cachedResult c).2 = none)
    (hl : (inv.tapeNode.subgraph.invokeLoop c).Ends statuses l e)
    (hint : RaisesInterrupt statuses l e)
    (hsession : (inv.tapeNode.subgraph.invokeEnd c l e).2.1.log = session) :
    Stops session e (inv.tapeNode.subgraph.invokeEnd c l e).1

/-- The call returns an interrupt, and no update. -/
def Told (r : Except JunctureError (GraphOutput inv.Sub)) : Prop :=
  ∃ error, inv.node.finish r = .error error ∧ error.isInterrupt = true

/-- The node is called again when its parent is resumed with `v`. -/
structure CalledAgain (call : SubgraphCall inv.Parent MemoryStore) (v : ResumeValue) : Prop where
  threadId : call.config.threadId = inv.call.config.threadId
  checkpointNs : call.config.checkpointNs = inv.call.config.checkpointNs
  resumeValue : call.config.resumeValue = some v

/-- The subgraph goes on from a checkpoint of its own when the parent is resumed. -/
def Continues (s : MemoryStore) : Prop :=
  ∀ call v, inv.CalledAgain call v → call.store = s →
    ∃ store c, inv.node.start call = (store, .ok (.resumed c)) ∧ c.value = v

variable {inv}

omit [InterruptHash] [DecidableEq π] in
/-- An interrupt is passed on as the error that it is. -/
theorem told_iff_error {r : Except JunctureError (GraphOutput inv.Sub)} :
    inv.Told r ↔ ∃ error, r = .error error ∧ error.isInterrupt = true := by
  constructor
  · rintro ⟨error, hfinish, hint⟩
    unfold SubgraphNode.finish at hfinish
    split at hfinish
    · cases hfinish
    · cases hfinish
    · split_ifs at hfinish with h
      · cases hfinish
        exact ⟨_, rfl, hint⟩
      · cases hfinish
        cases hint
  · rintro ⟨error, rfl, hint⟩
    refine ⟨error, ?_, hint⟩
    cases error <;> first | rfl | cases hint

/-- **The parent is told of an interrupt exactly if the run of the subgraph fails with it.**  After any other
the output is merged. -/
theorem told_iff {session : SaverSession} {e : Ending} {r : Except JunctureError (GraphOutput inv.Sub)}
    (h : inv.Stops session e r) : inv.Told r ↔
      ∃ error, (e = .tickFailed error ∨ e = .superstepFailed error) ∧ error.isInterrupt = true := by
  obtain ⟨config, l, rfl⟩ : ∃ config, ∃ l : PregelLoop inv.Sub Tape,
      r = CompiledGraph.output config l e := by
    cases h with
    | resumed => exact ⟨_, _, rfl⟩
    | invoked => exact ⟨_, _, rfl⟩
  rw [told_iff_error]
  refine exists_congr fun error => and_congr_left fun _ => ?_
  cases e <;> simp [CompiledGraph.output]

omit [InterruptHash] [DecidableEq π] in
/-- Without a checkpoint in its namespace a call of the node is not resumed. -/
theorem not_resumed {s : MemoryStore} (hs : s.Bare) (hstate : ¬ inv.Stateless)
    {call : SubgraphCall inv.Parent MemoryStore} (hstore : call.store = s) {store : MemoryStore}
    {c : CompiledGraph.ResumeCall MemoryStore} :
    inv.node.start call ≠ (store, .ok (.resumed c)) := by
  intro h
  obtain ⟨hresume, -, -⟩ := SubgraphNode.start_resumed h
  unfold SubgraphNode.shouldResume at hresume
  split at hresume
  · cases hresume
  · rename_i cp hcp
    cases inv.shares cp hcp
    obtain ⟨ns, hne, hns⟩ := exists_computeChildNamespace hstate inv.node.name
      call.config.checkpointNs call.config.threadId call.invocationId
    have hroot : MemorySaver.getCheckpointNs (inv.node.childConfig call) ≠ "" := by
      unfold MemorySaver.getCheckpointNs
      rw [show (inv.node.childConfig call).checkpointNs = some ns from hns]
      exact hne
    have hnone : ¬ (memorySaver.serve s (.getTuple (inv.node.childConfig call))).2.Found :=
      hs.not_found hroot
    rw [← hstore] at hnone
    split at hresume <;> rename_i hget
    · cases hresume
    · cases hresume
    · refine hnone ?_
      change SaverAnswer.Found (.tuple (memorySaver.getTuple call.store (inv.node.childConfig call)).2)
      rw [hget]
      trivial

end Invocation

/-- The law of nested interrupts: a subgraph that stops at an interrupt stops its parent, and goes on from
its own checkpoint when the parent is resumed. -/
def InterruptLaw (parties : π → Option Invocation) (steps : List (SaverStep π)) (s : MemoryStore) : Prop :=
  ∀ p inv e r, parties p = some inv → ¬ inv.Stateless → inv.Stops (Sessions.session p steps) e r →
    inv.Told r ∧ inv.Continues s

/-- **The law holds in exactly the runs where no subgraph stops at an interrupt.** -/
theorem interruptLaw_iff (h : NestedRuns parties s₀ steps s) (hbare : s₀.Bare) :
    InterruptLaw parties steps s ↔ ∀ p inv e r, parties p = some inv → ¬ inv.Stateless →
      ¬ inv.Stops (Sessions.session p steps) e r := by
  constructor
  · intro hlaw p inv e r hinv hstate hstops
    obtain ⟨-, hcontinues⟩ := hlaw p inv e r hinv hstate hstops
    obtain ⟨store, c, hstart, -⟩ := hcontinues {
      state := inv.call.state
      config := { inv.call.config with resumeValue := some (.single .null) }
      invocationId := inv.call.invocationId
      store := s
      nextUuid := inv.call.nextUuid } (.single .null) ⟨rfl, rfl, rfl⟩ rfl
    exact Invocation.not_resumed (h.bare hbare).1 hstate rfl hstart
  · exact fun hnone p inv e r hinv hstate hstops => absurd hstops (hnone p inv e r hinv hstate)

end Nested

/-! ### A subgraph that stops before its first node -/

/-- A mount of a small graph that stops in front of `a`. -/
def stoppingNode : SubgraphNode Transcript Transcript MemoryStore where
  subgraph := { smallGraph chain with interruptBefore := ["a"] }
  name := "sub"
  inputMap := id
  outputMap sub := { log := some sub.log }

/-- Its call in a parent on thread `t`. -/
def stoppingCall : Invocation where
  Parent := Transcript
  Sub := Transcript
  node := stoppingNode
  call := {
    state := {}
    config := { threadId := some "t" }
    invocationId := "1"
    store := ()
    nextUuid := 100 }
  shares := fun _ hcp => (Option.some.inj hcp).symm

/-- It finds nothing when it starts, when its run is set up, and when its result is filed. -/
def nothingFound : List SaverAnswer := List.replicate 3 (.tuple (.ok none))

/-- The run of the subgraph. -/
def stoppingInvoke : InvokeCall Transcript Tape where
  input := {}
  config := stoppingCall.tapeNode.childConfig (stoppingCall.onTape nothingFound)
  store := (stoppingCall.tapeNode.start (stoppingCall.onTape nothingFound)).1
  nextUuid := 100

/-- Its loop at the end. -/
def stoppedLoop : PregelLoop Transcript Tape :=
  (((stoppingCall.tapeNode.subgraph.invokeLoop stoppingInvoke).outside {}).tick).1

/-- What was asked. -/
def stoppedLog : SaverSession :=
  (stoppingCall.tapeNode.subgraph.invokeEnd stoppingInvoke stoppedLoop .done).2.1.log

theorem stoppingCall_start : stoppingCall.tapeNode.start (stoppingCall.onTape nothingFound) =
    (stoppingInvoke.store, .ok (.invoked stoppingInvoke)) := rfl

theorem stoppingCall_ends :
    (stoppingCall.tapeNode.subgraph.invokeLoop stoppingInvoke).Ends [] stoppedLoop .done :=
  ⟨_, _, {}, .start, rfl⟩

theorem stoppingCall_stops : stoppingCall.Stops stoppedLog .done
    (stoppingCall.tapeNode.subgraph.invokeEnd stoppingInvoke stoppedLoop .done).1 :=
  .invoked stoppingCall_start rfl stoppingCall_ends (.inr (.inl rfl)) rfl

theorem stoppedLog_served : ∀ e ∈ stoppedLog, memorySaver.serve {} e.1 = ({}, e.2) := by
  have hlog : stoppedLog =
      [(.getTuple stoppingInvoke.config, .tuple (.ok none)),
        (.getTuple stoppedLoop.runnableConfig, .tuple (.ok none)),
        (.getTuple stoppedLoop.runnableConfig, .tuple (.ok none))] := rfl
  rw [hlog]
  simp only [List.forall_mem_cons]
  exact ⟨rfl, rfl, rfl, List.forall_mem_nil _⟩

theorem nestedRuns_stoppedLog : NestedRuns (fun _ => some stoppingCall) {}
    (stoppedLog.map fun e => ⟨{}, (), e.1, e.2⟩) {} := by
  refine Sessions.Runs.of_session stoppedLog_served fun l hl => ⟨?_, fun h => nomatch h⟩
  rintro inv heq
  cases heq
  exact ⟨nothingFound, _, .invokeEnded stoppingCall_start rfl stoppingCall_ends, hl⟩

/-- The subgraph has stopped, but its parent is not told and merges its output. -/
theorem stoppingCall_not_interruptLaw : ∃ steps s,
    NestedRuns (fun _ : Unit => some stoppingCall) {} steps s ∧
      ¬ InterruptLaw (fun _ => some stoppingCall) steps s := by
  refine ⟨_, _, nestedRuns_stoppedLog, fun h => ?_⟩
  obtain ⟨⟨error, hfinish, -⟩, -⟩ := h () stoppingCall _ _ rfl (fun h => nomatch h)
    (by rw [Sessions.session_map]; exact stoppingCall_stops)
  cases hfinish

/-- So the law does not hold of this run. -/
theorem interruptLaw_iff_stoppedLog : ¬ InterruptLaw (fun _ => some stoppingCall)
    (stoppedLog.map fun e => (⟨{}, (), e.1, e.2⟩ : SaverStep Unit)) {} := by
  rw [interruptLaw_iff nestedRuns_stoppedLog fun _ _ => rfl]
  intro hnone
  have hstops := stoppingCall_stops
  rw [← Sessions.session_map ({} : MemoryStore) () stoppedLog] at hstops
  exact hnone () stoppingCall _ _ rfl (fun h => nomatch h) hstops

end Juncture
