import Juncture.Graph.Persistence
import Juncture.Graph.Streaming
import Juncture.Pregel.ShadowTurns

/-!
# Runs with a saver and without

`execute_with_emitter` gives its loop the checkpointer of the graph.  `MemorySaver` files the writes of
a task, and the markers of a failure, under the checkpoint that the configuration names and refuses
them if there is none; and a run that has been refused something fails.  The configuration of a run
on a new thread names no checkpoint until the run has saved one itself, which it does only in `Sync`
mode.

* `Shadow.sameRound` : a round that is `SaverSafe` goes on, or ends, as it does without the saver.
* `CompiledGraph.transparent_of_saverSafe` : runs of such rounds execute the same supersteps and have
  the same outcome.
-/

namespace Juncture

section Saver

variable {S σ : Type} [State S] [InterruptHash]

namespace PregelLoop

variable {l l' : PregelLoop S σ} {round : Round S}

/-- The round does not run into the saver. -/
structure SaverSafe (l l' : PregelLoop S σ) (round : Round S) : Prop where
  /-- No node looks at the checkpoint that the configuration names. -/
  blind : (l.outside round).prepare.1.Blind
  /-- The configuration names one, or there is nothing to be filed under it. -/
  named : l.runnableConfig.checkpointId.isSome = true ∨
    ∀ o ∈ (l'.outside round).prepare.1.collected round, o.Quiet
  /-- No failure on record is handled but those of the superstep. -/
  markers : ∀ l₁ result, l.superstep round = some (l₁, result) →
    markerTargets (l₁.committed result).scheduleEnv (executedOutputs result.taskOutputs)
      (l₁.committed result).persistedWrites.2 = ∅

/-- A round of a loop and of its shadow: both go on, or both end in the same way. -/
inductive SameRound (l l' : PregelLoop S σ) (round : Round S) : Prop
  | goesOn {k k' : PregelLoop S σ} (h : k.Shadow k') (hl : l.turn round = some k)
    (hl' : l'.turn round = some k') (he : l.ending round = none) (he' : l'.ending round = none)
  | ends {k k' : PregelLoop S σ} (e : Ending) (h : k.Shadow k') (hl : l.turn round = none)
    (hl' : l'.turn round = none) (he : l.ending round = some (k, e))
    (he' : l'.ending round = some (k', e))

/-- **A round of a loop and of its shadow**: they execute the same superstep and go on alike. -/
theorem Shadow.sameRound (h : l.Shadow l') (hsafe : l.SaverSafe l' round)
    (hnamed : l.runnableConfig.checkpointId.isSome = true → l.runnerEnv.Accepts) :
    (l.superstep round).map (fun p => p.2.anon) = (l'.superstep round).map (fun p => p.2.anon) ∧
      SameRound l l' round := by
  have htick := (h.outside round).tick
  rcases hl : (l.outside round).tick with ⟨k, r⟩
  rcases hl' : (l'.outside round).tick with ⟨k', r'⟩
  rw [hl, hl'] at htick
  cases htick with
  | error e hk =>
    refine ⟨?_, .ends (.tickFailed e) hk ?_ ?_ ?_ ?_⟩ <;>
      simp only [superstep, turn, ending, hl, hl', Option.map_none, Option.bind_none]
  | @ok _ _ b _ hk hb =>
    subst hb
    cases b with
    | false =>
      refine ⟨?_, .ends .done hk ?_ ?_ ?_ ?_⟩ <;>
        simp only [superstep, turn, ending, hl, hl', Option.map_none, Option.bind_none]
    | true =>
      obtain ⟨-, rfl⟩ := eq_of_tick hl
      obtain ⟨-, rfl⟩ := eq_of_tick hl'
      have hsafe₁ : (l.outside round).runnerEnv.Accepts ∨
          ∀ o ∈ (l'.outside round).prepare.1.collected round, o.Quiet := by
        have henv : (l.outside round).runnerEnv = l.runnerEnv := by
          obtain ⟨_, _, _, _, _, _, _, _, _, _, _, _, heq⟩ := l.ran_outside round
          rw [heq]
          rfl
        rw [henv]
        exact hsafe.named.imp_left hnamed
      have hexec := hk.executeSuperstep hsafe.blind hsafe₁
      rcases he : (l.outside round).executeSuperstep round with ⟨m, r⟩
      rcases he' : (l'.outside round).executeSuperstep round with ⟨m', r'⟩
      rw [he, he'] at hexec
      cases hexec with
      | error e hm =>
        refine ⟨?_, .ends (.superstepFailed e) hm ?_ ?_ ?_ ?_⟩ <;>
          simp only [superstep, turn, ending, hl, hl', he, he', Option.map_none, Option.bind_none]
      | @ok _ _ a b hm hab =>
        -- The signals that the round adds are the same on both sides.
        have hresult : SuperstepResult.anon { a with bubbleUps := a.bubbleUps ++ round.bubbleUps } =
            SuperstepResult.anon { b with bubbleUps := b.bubbleUps ++ round.bubbleUps } := by
          obtain ⟨hout, hbubble⟩ := SuperstepResult.anon_eq_iff.1 hab
          exact SuperstepResult.anon_eq_iff.2 ⟨hout, congrArg (· ++ round.bubbleUps) hbubble⟩
        have hs : l.superstep round =
            some (m, { a with bubbleUps := a.bubbleUps ++ round.bubbleUps }) := by
          simp only [superstep, hl, he]
        have hs' : l'.superstep round =
            some (m', { b with bubbleUps := b.bubbleUps ++ round.bubbleUps }) := by
          simp only [superstep, hl', he']
        refine ⟨?_, ?_⟩
        · rw [hs, hs']
          exact congrArg some hresult
        have hafter := hm.afterTick hresult (hsafe.markers _ _ hs)
        rcases ha : m.afterTick { a with bubbleUps := a.bubbleUps ++ round.bubbleUps } with ⟨n, r⟩
        rcases ha' : m'.afterTick { b with bubbleUps := b.bubbleUps ++ round.bubbleUps } with ⟨n', r'⟩
        rw [ha, ha'] at hafter
        cases hafter with
        | error e hn =>
          refine .ends (.superstepFailed e) hn ?_ ?_ ?_ ?_
          · simp only [turn, hs, Option.bind_some, ha]
          · simp only [turn, hs', Option.bind_some, ha']
          · simp only [ending, hl, he, ha]
          · simp only [ending, hl', he', ha']
        | ok hn _ =>
          refine .goesOn hn ?_ ?_ ?_ ?_
          · simp only [turn, hs, Option.bind_some, ha]
          · simp only [turn, hs', Option.bind_some, ha']
          · simp only [ending, hl, he, ha]
          · simp only [ending, hl', he', ha']

/-- Runs of safe rounds get equally far. -/
theorem Shadow.head (h : l.Shadow l') {rounds : ℕ → Round S} (n : ℕ)
    (hsafe : ∀ m k k', m < n → l.head rounds m = some k → l'.head rounds m = some k' →
      k.Shadow k' → SameRound k k' (rounds m)) :
    (l.head rounds n = none ∧ l'.head rounds n = none) ∨
      ∃ k k', l.head rounds n = some k ∧ l'.head rounds n = some k' ∧ k.Shadow k' := by
  induction n with
  | zero => exact .inr ⟨l, l', rfl, rfl, h⟩
  | succ n ih =>
    obtain ⟨hnone, hnone'⟩ | ⟨k, k', hk, hk', hshadow⟩ :=
      ih fun m k k' hm => hsafe m k k' (by omega)
    · refine .inl ⟨?_, ?_⟩
      · exact Option.bind_eq_none_iff.2 fun t ht => by cases hnone.symm.trans ht
      · exact Option.bind_eq_none_iff.2 fun t ht => by cases hnone'.symm.trans ht
    · have hturn : ∀ {k : PregelLoop S σ} {l₀ : PregelLoop S σ}, l₀.head rounds n = some k →
          l₀.head rounds (n + 1) = k.turn (rounds n) := by
        intro k l₀ hk
        show (l₀.head rounds n).bind _ = _
        rw [hk]
        rfl
      rw [hturn hk, hturn hk']
      cases hsafe n k k' (Nat.lt_succ_self n) hk hk' hshadow with
      | goesOn hnext hl hl' => exact .inr ⟨_, _, hl, hl', hnext⟩
      | ends _ _ hl hl' => exact .inl ⟨hl, hl'⟩

omit [InterruptHash] in
theorem blind_of_nodes (h : ∀ n node, l.nodes.lookup n = some node →
    ∀ s c c', node.call s c = node.call s c') : l.Blind := by
  intro t _ checkpointId
  unfold RunnerEnv.nodeCall
  cases hn : l.nodes.lookup t.nodeName with
  | none => simp only [runnerEnv, hn]
  | some node =>
    simp only [runnerEnv, hn]
    exact congrArg Except.ok (h t.nodeName node hn _ _ _)

omit [InterruptHash] in
/-- Without error handlers nothing on record is looked at. -/
theorem markerTargets_of_no_handlers (h : l.errorHandlerMap = ∅) (outputs : List (TaskOutput S)) :
    markerTargets l.scheduleEnv outputs l.persistedWrites.2 = ∅ := by
  refine Set.eq_empty_iff_forall_notMem.2 ?_
  rintro n ⟨m, -, -, hm, -⟩
  rw [show l.scheduleEnv.errorHandlerMap = ∅ from h, AList.lookup_empty] at hm
  cases hm

end PregelLoop

/-! ### The runs of a graph -/

namespace CompiledGraph

variable (g : CompiledGraph S MemoryStore) (call : InvokeCall S MemoryStore)
  (rounds : ℕ → Round S)

/-- The graph with a `MemorySaver` attached. -/
def withSaver : CompiledGraph S MemoryStore := { g with checkpointer := some memorySaver }

/-- The graph without a checkpointer. -/
def withoutSaver : CompiledGraph S MemoryStore := { g with checkpointer := none }

/-- What `execute_with_emitter` returns when its loop has ended. -/
def executeOutput (l : PregelLoop S MemoryStore) : Ending → Except JunctureError S
  | .done => .ok l.state
  | .tickFailed e => .error e
  | .superstepFailed e => .error e

/-- `execute_with_emitter` returns `r` in round `n`. -/
def Executes (n : ℕ) (r : Except JunctureError S) : Prop :=
  ∃ l e, (g.executeLoop call).EndsAt rounds n l e ∧ executeOutput l e = r

/-- A `MemorySaver` changes neither the supersteps of the run nor its outcome. -/
structure Transparent : Prop where
  /-- The supersteps. -/
  supersteps : ∀ n,
    ((g.withSaver.executeLoop call).resultAt rounds n).map SuperstepResult.anon =
      ((g.withoutSaver.executeLoop call).resultAt rounds n).map SuperstepResult.anon
  /-- The outcome. -/
  outcome : ∀ n r, g.withSaver.Executes call rounds n r ↔ g.withoutSaver.Executes call rounds n r

/-- Every round of the run is safe. -/
def SaverSafe : Prop :=
  ∀ n l l', (g.withSaver.executeLoop call).head rounds n = some l →
    (g.withoutSaver.executeLoop call).head rounds n = some l' → l.SaverSafe l' (rounds n)

variable {g call rounds}

omit [InterruptHash] in
theorem getThreadId_of_threadId {config : RunnableConfig} {threadId : String}
    (h : config.threadId = some threadId) : MemorySaver.getThreadId config = .ok threadId := by
  unfold MemorySaver.getThreadId
  rw [h]

omit [InterruptHash] in
/-- On a named thread the saver takes every checkpoint. -/
theorem shadow_executeLoop (hthread : call.config.threadId.isSome = true) :
    (g.withSaver.executeLoop call).Shadow (g.withoutSaver.executeLoop call) := by
  obtain ⟨threadId, hid⟩ := Option.isSome_iff_exists.1 hthread
  refine ⟨_, _, _, _, _, _, _, rfl, rfl, rfl, ?_⟩
  intro cp hcp store checkpointId checkpoint metadata
  obtain rfl : memorySaver = cp := Option.some.inj hcp
  have hget : MemorySaver.getThreadId
      { (g.withSaver.executeLoop call).runnableConfig with checkpointId } = .ok threadId :=
    getThreadId_of_threadId hid
  show ∃ store' config', MemorySaver.put store _ checkpoint metadata = (store', .ok config')
  unfold MemorySaver.put
  rw [hget]
  exact ⟨_, _, rfl⟩

/-- Once the configuration names a checkpoint the saver takes the writes of every task. -/
theorem accepts_of_named (hthread : call.config.threadId.isSome = true) {n : ℕ}
    {l : PregelLoop S MemoryStore} (hl : (g.withSaver.executeLoop call).head rounds n = some l)
    (hsome : l.runnableConfig.checkpointId.isSome = true) : l.runnerEnv.Accepts := by
  intro cp hcp store writes taskId
  obtain ⟨threadId, hid⟩ := Option.isSome_iff_exists.1 hthread
  obtain ⟨checkpointId, hcid⟩ := Option.isSome_iff_exists.1 hsome
  have hfixed := PregelLoop.fixed_head hl
  obtain rfl : memorySaver = cp := Option.some.inj (hfixed.checkpointer.symm.trans hcp)
  -- A run renames its checkpoint and never its thread.
  have hthread : l.runnableConfig.threadId = some threadId :=
    (congrArg RunnableConfig.threadId hfixed.config).trans hid
  have hget := getThreadId_of_threadId hthread
  show (MemorySaver.putWrites store l.runnableConfig writes taskId).2 = .ok ()
  unfold MemorySaver.putWrites
  rw [hget, hcid]

theorem executes_iff_ending {n : ℕ} {r : Except JunctureError S} {l : PregelLoop S MemoryStore}
    (hl : (g.executeLoop call).head rounds n = some l) :
    g.Executes call rounds n r ↔
      ∃ k e, l.ending (rounds n) = some (k, e) ∧ executeOutput k e = r := by
  constructor
  · rintro ⟨k, e, ⟨t, ht, hk⟩, hr⟩
    obtain rfl : l = t := Option.some.inj (hl.symm.trans ht)
    exact ⟨k, e, hk, hr⟩
  · rintro ⟨k, e, hk, hr⟩
    exact ⟨k, e, ⟨l, hl, hk⟩, hr⟩

theorem not_executes_of_head {n : ℕ} {r : Except JunctureError S}
    (hl : (g.executeLoop call).head rounds n = none) : ¬ g.Executes call rounds n r := by
  rintro ⟨k, e, ⟨t, ht, -⟩, -⟩
  cases hl.symm.trans ht

omit [InterruptHash] in
theorem executeOutput_of_shadow {k k' : PregelLoop S MemoryStore} (h : k.Shadow k') (e : Ending) :
    executeOutput k e = executeOutput k' e := by
  cases e with
  | done => exact congrArg Except.ok (PregelLoop.state_of_view h.view_eq)
  | tickFailed e => rfl
  | superstepFailed e => rfl

/-- **Where a `MemorySaver` is not noticed**: in the runs of safe rounds. -/
theorem transparent_of_saverSafe (hthread : call.config.threadId.isSome = true)
    (hsafe : g.SaverSafe call rounds) : g.Transparent call rounds := by
  have hround : ∀ n l l', (g.withSaver.executeLoop call).head rounds n = some l →
        (g.withoutSaver.executeLoop call).head rounds n = some l' → l.Shadow l' →
        (l.superstep (rounds n)).map (fun p => p.2.anon) =
            (l'.superstep (rounds n)).map (fun p => p.2.anon) ∧
          PregelLoop.SameRound l l' (rounds n) := fun n l l' hl hl' h =>
    h.sameRound (hsafe n l l' hl hl') (accepts_of_named hthread hl)
  have hheads := fun n => (shadow_executeLoop hthread).head n
    fun m k k' _ hk hk' h => (hround m k k' hk hk' h).2
  constructor
  · intro n
    unfold PregelLoop.resultAt
    obtain ⟨hl, hl'⟩ | ⟨l, l', hl, hl', h⟩ := hheads n
    · rw [hl, hl']
    · rw [hl, hl', Option.bind_some, Option.bind_some, Option.map_map, Option.map_map]
      exact (hround n l l' hl hl' h).1
  · intro n r
    obtain ⟨hl, hl'⟩ | ⟨l, l', hl, hl', h⟩ := hheads n
    · exact iff_of_false (not_executes_of_head hl) (not_executes_of_head hl')
    · rw [executes_iff_ending hl, executes_iff_ending hl']
      cases (hround n l l' hl hl' h).2 with
      | goesOn _ _ _ he he' => rw [he, he']
      | @ends k k' e hk _ _ he he' =>
        have hout := executeOutput_of_shadow hk e
        rw [he, he']
        simp only [Option.some.injEq, Prod.mk.injEq]
        constructor
        · rintro ⟨_, _, ⟨rfl, rfl⟩, rfl⟩
          exact ⟨_, _, ⟨rfl, rfl⟩, hout.symm⟩
        · rintro ⟨_, _, ⟨rfl, rfl⟩, rfl⟩
          exact ⟨_, _, ⟨rfl, rfl⟩, hout⟩

end CompiledGraph

end Saver

/-! ### Two nodes in a row, on a new thread -/

/-- A node that writes nothing. -/
def idle : Node Transcript := ⟨fun _ _ => .done (.ok .default)⟩

/-- `a`, which writes nothing, then `b`. -/
def lateGraph : CompiledGraph Transcript MemoryStore where
  nodes := Dict.ofList [("b", appending 2), ("a", idle)]
  triggerTable := buildTriggerTable [.fixed START "a", .fixed "a" "b"]

/-- The first superstep leaves nothing to keep, and after it there is a checkpoint. -/
theorem transparent_lateGraph : lateGraph.Transparent (chainCall none) undisturbed := by
  refine CompiledGraph.transparent_of_saverSafe rfl fun n l l' hl hl' => ?_
  have hfixed := PregelLoop.fixed_head hl
  refine ⟨PregelLoop.blind_of_nodes ?_, ?_, fun l₁ result hs => ?_⟩
  · -- The nodes look at nothing.
    intro name node hnode s c c'
    have hnodes : (l.outside (undisturbed n)).prepare.1.nodes = lateGraph.nodes :=
      (((l.ran_outside _).fixed.trans (PregelLoop.ran_prepare _).fixed).nodes).trans hfixed.nodes
    have hentries : lateGraph.nodes.entries = [⟨"a", idle⟩, ⟨"b", appending 2⟩] := rfl
    rw [hnodes] at hnode
    have hmem := AList.mem_lookup_iff.1 hnode
    rw [hentries] at hmem
    simp only [List.mem_cons, List.not_mem_nil, or_false, Sigma.mk.injEq, heq_eq_eq] at hmem
    obtain ⟨-, rfl⟩ | ⟨-, rfl⟩ := hmem <;> rfl
  · -- The run has two supersteps.
    have hlater : ∀ m, (lateGraph.withSaver.executeLoop (chainCall none)).head undisturbed (m + 3) =
        none := by
      intro m
      induction m with
      | zero => rfl
      | succ m ih =>
        show ((lateGraph.withSaver.executeLoop (chainCall none)).head undisturbed (m + 3)).bind _ =
          none
        rw [ih]
        rfl
    rcases n with _ | _ | _ | n
    · cases hl'
      have hidle : ∃ t, PregelLoop.collected ((lateGraph.withoutSaver.executeLoop
          (chainCall none)).outside {}).prepare.1 {} = [successOutput t .default] := ⟨_, rfl⟩
      obtain ⟨t, ht⟩ := hidle
      refine .inr fun o ho => ?_
      obtain rfl := List.mem_singleton.1 (ht ▸ ho)
      exact ⟨rfl, fun u hu => by cases hu⟩
    · cases hl
      exact .inl rfl
    · cases hl
      exact .inl rfl
    · rw [hlater n] at hl
      cases hl
  · have hhandlers := ((hfixed.trans (PregelLoop.ran_superstep hs).fixed).trans
      (l₁.fixed_committed result)).errorHandlerMap
    exact PregelLoop.markerTargets_of_no_handlers hhandlers _

/-- The writes of the first node are refused. -/
theorem chain_not_transparent : ¬ chainGraph.Transparent (chainCall none) undisturbed := by
  intro h
  have hrefused : ((chainGraph.withSaver.executeLoop (chainCall none)).ending {}).map Prod.snd =
      some (.superstepFailed (.ofCheckpointError (.storage "checkpoint_id is required"))) := rfl
  have hgoes : (chainGraph.withoutSaver.executeLoop (chainCall none)).ending {} = none := rfl
  obtain ⟨⟨l, e⟩, hl, rfl⟩ := Option.map_eq_some_iff.1 hrefused
  obtain ⟨l', e', ⟨t, ht, hl'⟩, -⟩ := (h.outcome 0 _).1 ⟨l, _, ⟨_, rfl, hl⟩, rfl⟩
  cases ht
  cases hgoes.symm.trans hl'

end Juncture
