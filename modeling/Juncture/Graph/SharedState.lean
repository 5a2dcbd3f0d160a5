import Juncture.Graph.Subgraph
import Juncture.Pregel.Ephemeral
import Juncture.Pregel.Rerun

/-!
# Subgraphs on a part of the state

A subgraph that is mounted with `add_subgraph_node` starts on the fields that it shares with its parent.
What it returns is not looked at: the node returns the default update.

* `Record.replay` : what the updates of a run make of a derived state.
* `PregelLoop.state_of_merges` : a run over a derived state ends in what its updates make of the first.
* `SharedFields.extract_replay` : the same updates, merged into the parent one by one, make the same of
  the shared fields.
* `sharesResult_iff` : the parent gets the result of a subgraph only if the subgraph changes nothing.
-/

namespace Juncture

/-! ### Runs over derived states -/

namespace Record

variable {n : ℕ} {F : Fin n → FieldDecl}

/-- What the updates of a superstep make of a state. -/
def merge (s : Record F) (batch : List (Change F)) : Record F :=
  (batch.foldl (fun s u => (s.apply u).1) s).resetEphemeral

/-- What the updates of a run make of a state. -/
def replay (s : Record F) (batches : List (List (Change F))) : Record F := batches.foldl merge s

theorem replay_append (s : Record F) (batches : List (List (Change F))) (batch : List (Change F)) :
    s.replay (batches ++ [batch]) = (s.replay batches).merge batch := by
  simp only [replay, List.foldl_append, List.foldl_cons, List.foldl_nil]

theorem merge_of_ephemeral {i : Fin n} (h : (F i).reducer.isEphemeral = true) (s : Record F)
    (batch : List (Change F)) : s.merge batch i = (F i).default := if_pos h

theorem merge_of_kept {i : Fin n} (h : (F i).reducer.isEphemeral = false) (s : Record F)
    (batch : List (Change F)) : s.merge batch i = batch.foldl (fun s u => (s.apply u).1) s i :=
  if_neg (ne_true_of_eq_false h)

/-- `apply_writes` on a derived state. -/
theorem state_of_mergeAll {us : List (Change F)} {s s' : Record F} {changed : FieldsChanged}
    (h : mergeAll s us = some (s', changed)) : s' = us.foldl (fun s u => (s.apply u).1) s := by
  have hfold : ∀ (us : List (Change F)) (p : Record F × FieldsChanged),
      us.foldlM (mergeStep (S := Record F)) p = some (s', changed) →
      s' = us.foldl (fun s u => (s.apply u).1) p.1 := by
    intro us
    induction us with
    | nil =>
      intro p hp
      cases hp
      rfl
    | cons u us ih =>
      intro p hp
      rw [List.foldlM_cons] at hp
      exact ih ((p.1.apply u).1, p.2.merge (p.1.apply u).2) hp
  exact hfold us _ h

/-- `finish_field` does nothing. -/
theorem foldl_finishField (is : List ℕ) (s : Record F) : is.foldl State.finishField s = s :=
  List.foldl_fixed' (fun _ => rfl) is

/-- `consume_field` does nothing. -/
theorem foldl_consumeField (is : List ℕ) (s : Record F) : is.foldl State.consumeField s = s :=
  List.foldl_fixed' (fun _ => rfl) is

end Record

namespace PregelLoop

section Merges

variable {S σ : Type} [State S] [InterruptHash]

/-- The first `n` supersteps of the run merge these updates.  No subgraph reports an update for its
parent; the runner collects no reports. -/
inductive Merges (l₀ : PregelLoop S σ) (rounds : ℕ → Round S) : ℕ → List (List (Update S)) → Prop
  | start : Merges l₀ rounds 0 []
  | turn {n : ℕ} {batches : List (List (Update S))} {l₁ l : PregelLoop S σ} {result : SuperstepResult S}
    (h : Merges l₀ rounds n batches) (hturn : l₀.TurnAt rounds n l₁ result l)
    (hreports : NoParentUpdates result) : Merges l₀ rounds (n + 1) (batches ++ [l₁.batch result])

end Merges

variable {n : ℕ} {F : Fin n → FieldDecl} {σ : Type} {l₀ l₁ l l' : PregelLoop (Record F) σ}
  {result : SuperstepResult (Record F)} {rounds : ℕ → Round (Record F)}

theorem state_finishAllChannels (l : PregelLoop (Record F) σ) :
    l.finishAllChannels.state = l.state := by
  unfold finishAllChannels
  split_ifs
  · rfl
  · exact Record.foldl_finishField _ _

theorem state_of_settled (h : l.Settled l') : l'.state = l.state := by
  obtain ⟨k, rfl | rfl, _, _, _, _, _, _, _, _, _, _, _, rfl⟩ := h
  · rfl
  · exact state_finishAllChannels l

variable [InterruptHash]

/-- A superstep merges its batch. -/
theorem state_of_afterTick (h : l₁.afterTick result = (l, .ok ())) (hreports : NoParentUpdates result) :
    l.state = l₁.state.merge (l₁.batch result) := by
  have hcommitted : (l₁.committed result).state = l₁.state.merge (l₁.batch result) := by
    obtain ⟨s, changed, -, -, hmerge, -⟩ := afterTick_phases h
    obtain ⟨-, s', hall, -, heq⟩ := mergeWrites_eq_ok_iff.1 hmerge
    have hs : s = s' := congrArg PregelLoop.state heq
    unfold committed
    rw [hmerge]
    show Record.resetEphemeral ((List.filter _ _).foldl State.consumeField s) = _
    rw [Record.foldl_consumeField, hs, Record.state_of_mergeAll hall]
    rfl
  obtain ⟨tasks, k, -, hk, hf⟩ := afterTick_advanced h
  obtain ⟨-, hset⟩ | ⟨-, hset⟩ := finishTick_settled hf
  · rw [state_of_settled hset, hk.state, hcommitted]
  · have hreported : (k.reported result.bubbleUps).1.state = k.state :=
      state_handleBubbleUps hreports { k with interruptRx := none }
    rw [state_of_settled hset, hreported, hk.state, hcommitted]

/-- **A run ends in what its updates make of the state it starts on.** -/
theorem state_of_merges {n : ℕ} {batches : List (List (Update (Record F)))}
    (h : l₀.Merges rounds n batches) (hhead : l₀.head rounds n = some l) :
    l.state = l₀.state.replay batches := by
  induction h generalizing l with
  | start =>
    cases hhead
    rfl
  | turn hmerges hturn hreports ih =>
    cases hhead.symm.trans (head_succ_eq_some_iff.2 ⟨_, _, hturn⟩)
    obtain ⟨t, ht, hs, ha⟩ := hturn
    have hstate : ∀ {k k' : PregelLoop (Record F) σ}, k.Ran k' → k'.state = k.state := by
      rintro k k' ⟨_, _, _, _, _, _, _, _, _, _, _, _, rfl⟩
      rfl
    rw [state_of_afterTick ha hreports, hstate (ran_superstep hs), ih ht]
    exact (Record.replay_append ..).symm

/-- The same at the end of a run. -/
theorem state_of_endsAt {n : ℕ} {batches : List (List (Update (Record F)))}
    (h : l₀.Merges rounds n batches) (hend : l₀.EndsAt rounds n l .done) :
    l.state = l₀.state.replay batches := by
  obtain ⟨t, ht, hl⟩ := hend
  rw [state_of_tick (ending_of_tick.1.1 hl), ← state_of_merges h ht]
  have hran := t.ran_outside (rounds n)
  rw [← view_finishAllChannels]
  refine (state_finishAllChannels (t.outside (rounds n))).trans ?_
  obtain ⟨_, _, _, _, _, _, _, _, _, _, _, _, heq⟩ := hran
  rw [heq]

end PregelLoop

/-! ### The same updates in the parent -/

namespace SharedFields

variable {n m : ℕ} {F : Fin n → FieldDecl} (shared : SharedFields F m)

/-- A field of the part has the reducer it has in the parent. -/
def SameReducers : Prop := ∀ i, shared.reducer i = (F (shared.index i)).reducer

/-- The updates of a run of the subgraph, merged into the parent instead: its nodes run inline. -/
def inline (parent : Record F) (batches : List (List (Record.Change shared.fields))) : Record F :=
  parent.replay (batches.map (List.map shared.mapUpdate))

variable {shared}

theorem extract_apply (hsame : shared.SameReducers) (parent : Record F)
    (u : Record.Change shared.fields) :
    shared.extract (parent.apply (shared.mapUpdate u)).1 = ((shared.extract parent).apply u).1 := by
  funext i
  rw [Record.apply_field]
  show ((parent.apply (shared.mapUpdate u)).1 (shared.index i)) = _
  rw [Record.apply_field, mapUpdate_index]
  show _ = ((u i).map fun v => (shared.reducer i).apply (parent (shared.index i)) v).getD
    (parent (shared.index i))
  rw [hsame i]

theorem extract_merge (hsame : shared.SameReducers) (parent : Record F)
    (batch : List (Record.Change shared.fields)) :
    shared.extract (parent.merge (batch.map shared.mapUpdate)) = (shared.extract parent).merge batch := by
  have hfold : ∀ (batch : List (Record.Change shared.fields)) (parent : Record F),
      shared.extract ((batch.map shared.mapUpdate).foldl (fun s u => (s.apply u).1) parent) =
        batch.foldl (fun s u => (s.apply u).1) (shared.extract parent) := by
    intro batch
    induction batch with
    | nil => exact fun parent => rfl
    | cons u batch ih =>
      intro parent
      rw [List.map_cons, List.foldl_cons, List.foldl_cons, ih, extract_apply hsame]
  funext i
  have hreducer : (shared.fields i).reducer = (F (shared.index i)).reducer := hsame i
  cases heph : (F (shared.index i)).reducer.isEphemeral with
  | true =>
    have hparent := Record.merge_of_ephemeral heph parent (batch.map shared.mapUpdate)
    have hpart := Record.merge_of_ephemeral (hreducer ▸ heph) (shared.extract parent) batch
    exact hparent.trans hpart.symm
  | false =>
    have hparent := Record.merge_of_kept heph parent (batch.map shared.mapUpdate)
    have hpart := Record.merge_of_kept (hreducer ▸ heph) (shared.extract parent) batch
    exact hparent.trans ((congrFun (hfold batch parent) i).trans hpart.symm)

/-- **The updates of a subgraph make the same of the shared fields in the parent.** -/
theorem extract_inline (hsame : shared.SameReducers) (parent : Record F)
    (batches : List (List (Record.Change shared.fields))) :
    shared.extract (shared.inline parent batches) = (shared.extract parent).replay batches := by
  induction batches generalizing parent with
  | nil => rfl
  | cons batch batches ih =>
    show shared.extract (shared.inline (parent.merge (batch.map shared.mapUpdate)) batches) = _
    rw [ih, extract_merge hsame]
    rfl

/-- They leave the other fields of the parent alone, but for the ephemeral ones. -/
theorem inline_of_ne (parent : Record F) (batches : List (List (Record.Change shared.fields)))
    {j : Fin n} (hj : ∀ i, shared.index i ≠ j) (hkept : (F j).reducer.isEphemeral = false) :
    shared.inline parent batches j = parent j := by
  have hfold : ∀ (batch : List (Record.Change shared.fields)) (parent : Record F),
      (batch.map shared.mapUpdate).foldl (fun s u => (s.apply u).1) parent j = parent j := by
    intro batch
    induction batch with
    | nil => exact fun parent => rfl
    | cons u batch ih =>
      intro parent
      rw [List.map_cons, List.foldl_cons, ih, Record.apply_field, shared.mapUpdate_of_ne u hj]
      rfl
  induction batches generalizing parent with
  | nil => rfl
  | cons batch batches ih =>
    show shared.inline (parent.merge (batch.map shared.mapUpdate)) batches j = _
    rw [ih, Record.merge_of_kept hkept]
    exact hfold batch parent

end SharedFields

/-! ### What the parent gets -/

section Mounted

variable {n m : ℕ} {F : Fin n → FieldDecl} {shared : SharedFields F m} {σ : Type}

/-- The parent has the result of the subgraph: the shared fields are as the subgraph has left them, and
the parent is as it would be if the nodes of the subgraph had run inline.  The updates of the run are
those for which `Merged` holds. -/
structure SharedFields.SharesResult (shared : SharedFields F m) (parent parent' : Record F)
    (value : Record shared.fields) (Merged : List (List (Record.Change shared.fields)) → Prop) : Prop where
  /-- The shared fields. -/
  fields : ∀ i, parent' (shared.index i) = value i
  /-- The nodes of the subgraph inline, with the reducers of the parent. -/
  inline : shared.SameReducers → ∀ batches, Merged batches → ∀ j,
    (F j).reducer.isEphemeral = false → shared.inline parent batches j = parent' j

variable [InterruptHash]

/-- The run of the subgraph is invoked, merges these updates and returns `output`. -/
def SubgraphRun.Merged {Sub : Type} [State Sub] (run : SubgraphRun Sub σ) (g : CompiledGraph Sub σ)
    (rounds : ℕ → Round Sub) (output : GraphOutput Sub) (batches : List (List (Update Sub))) : Prop :=
  ∃ call n l, run = .invoked call ∧ (g.cachedResult call).2 = none ∧
    (g.invokeLoop call).EndsAt rounds n l .done ∧ (g.invokeLoop call).Merges rounds n batches ∧
    output.value = l.state

omit [InterruptHash] in
/-- The node leaves the state of its parent alone. -/
theorem state_of_sharedSubgraphNode {name : String} {g : CompiledGraph (Record shared.fields) σ}
    {output : GraphOutput (Record shared.fields)} {command : Command (Record F)}
    (hcommand : (sharedSubgraphNode name g : SubgraphNode (Record F) _ σ).finish (.ok output) =
      .ok command) {l l' : PregelLoop (Record F) σ} {task : PendingTask (Record F)}
    {changed : FieldsChanged}
    (hmerge : l.mergeWrites [successOutput task command] = (l', .ok changed)) :
    l'.state = l.state := by
  obtain rfl : Command.ofUpdate (shared.mapUpdate default) = command := Except.ok.inj hcommand
  let result : SuperstepResult (Record F) :=
    { taskOutputs := [successOutput task (.ofUpdate (shared.mapUpdate default))] }
  have hmerge : l.mergeWrites result.taskOutputs = (l', .ok changed) := hmerge
  obtain ⟨-, s, hall, -, rfl⟩ := PregelLoop.mergeWrites_eq_ok_iff.1 hmerge
  have hbatch : l.batch result = [shared.mapUpdate default] :=
    List.perm_singleton.1 (mergedUpdates_perm _ _)
  rw [hbatch] at hall
  rw [Record.state_of_mergeAll hall, shared.mapUpdate_default]
  rfl

/-- **The parent has the result of the subgraph if and only if the subgraph has changed nothing.** -/
theorem sharesResult_iff {name : String} {g : CompiledGraph (Record shared.fields) σ}
    {call : SubgraphCall (Record F) σ} {rounds : ℕ → Round (Record shared.fields)}
    {run : SubgraphRun (Record shared.fields) σ} {output : GraphOutput (Record shared.fields)}
    {command : Command (Record F)} {l l' : PregelLoop (Record F) σ} {task : PendingTask (Record F)}
    {changed : FieldsChanged} (hrun : (sharedSubgraphNode name g).Runs call rounds run (.ok output))
    (hcommand : (sharedSubgraphNode name g).finish (.ok output) = .ok command)
    (hstate : l.state = call.state)
    (hmerge : l.mergeWrites [successOutput task command] = (l', .ok changed)) :
    shared.SharesResult call.state l'.state output.value (run.Merged g rounds output) ↔
      output.value = shared.extract call.state := by
  -- The command of the node carries no update.
  have hleft : l'.state = call.state := (state_of_sharedSubgraphNode hcommand hmerge).trans hstate
  rw [hleft]
  constructor
  · intro h
    funext i
    exact (h.fields i).symm
  · intro h
    refine ⟨fun i => (congrFun h i).symm, fun hsame batches hmerged j hkept => ?_⟩
    obtain ⟨invocation, k, t, rfl, -, hend, hmerges, hvalue⟩ := hmerged
    obtain ⟨store, store', hstart, -⟩ := hrun
    have hinput : invocation.input = shared.extract call.state := by
      obtain ⟨-, heq⟩ | ⟨-, heq⟩ := SubgraphNode.start_eq_ok hstart
      · cases heq
      · cases heq
        rfl
    by_cases hj : ∃ i, shared.index i = j
    -- A shared field: what the batches do to it is what they did to it in the child.
    · obtain ⟨i, rfl⟩ := hj
      have hreplay : (shared.extract call.state).replay batches = shared.extract call.state :=
        calc (shared.extract call.state).replay batches
            = Record.replay invocation.input batches := by rw [hinput]
          _ = t.state := (PregelLoop.state_of_endsAt hmerges hend).symm
          _ = shared.extract call.state := hvalue.symm.trans h
      exact congrFun ((SharedFields.extract_inline hsame call.state batches).trans hreplay) i
    · exact SharedFields.inline_of_ne _ _ (fun i hi => hj ⟨i, hi⟩) hkept

end Mounted

/-! ### A subgraph that counts -/

/-- A field for a number. -/
def natField (name : String) : FieldDecl where
  name
  T := ℕ
  default := 0
  toValue n := .ok (.num n)
  fromValue := Transcript.natOfJson

/-- The only field of a parent, which the subgraph shares. -/
def countShared : SharedFields (fun _ : Fin 1 => natField "count") 1 where
  index := id
  injective := Function.injective_id
  reducer _ := .replace

/-- Its only node adds one. -/
def countGraph : CompiledGraph (Record countShared.fields) Unit where
  nodes := Dict.ofList [("increment", ⟨fun s _ => .done (.ok (.ofUpdate fun i => some (Nat.succ (s i))))⟩)]
  triggerTable := buildTriggerTable [.fixed START "increment"]

/-- A call of the mounted subgraph on a parent that has counted to zero. -/
def countCall : SubgraphCall (Record fun _ : Fin 1 => natField "count") Unit where
  state _ := (0 : ℕ)
  config := {}
  invocationId := "u"
  store := ()
  nextUuid := 0

/-- The subgraph's run. -/
def countInvocation : InvokeCall (Record countShared.fields) Unit where
  input _ := (0 : ℕ)
  config := (sharedSubgraphNode "count" countGraph).childConfig countCall
  store := ()
  nextUuid := 0

/-- The run of the parent. -/
def countParent : PregelLoop (Record fun _ : Fin 1 => natField "count") Unit :=
  .withErrorHandlers countCall.state ∅ (buildTriggerTable [.fixed START "count"]) {} numFields ∅ () 0

/-- The subgraph counts to one. -/
theorem runs_countGraph : ∃ output, (sharedSubgraphNode "count" countGraph).Runs countCall (fun _ => {})
    (.invoked countInvocation) (.ok output) ∧ output.value 0 = (1 : ℕ) := by
  have hrun : (((countGraph.invokeLoop countInvocation).head (fun _ => {}) 1).bind
      fun t => t.ending {}).map (fun p => (p.2, (p.1.state 0 : ℕ))) = some (.done, 1) := rfl
  obtain ⟨⟨l, e⟩, hl, heq⟩ := Option.map_eq_some_iff.1 hrun
  obtain ⟨t, ht, hl⟩ := Option.bind_eq_some_iff.1 hl
  obtain rfl : e = .done := congrArg Prod.fst heq
  exact ⟨_, ⟨(), (), rfl, .invoked rfl ⟨t, ht, hl⟩⟩, congrArg Prod.snd heq⟩

/-- The parent merges the update of the node. -/
theorem merges_countParent (output : GraphOutput (Record countShared.fields)) :
    ∃ command l' changed, (sharedSubgraphNode "count" countGraph).finish (.ok output) = .ok command ∧
      countParent.mergeWrites [successOutput (.pull 0 "count") command] = (l', .ok changed) :=
  ⟨_, _, _, rfl, rfl⟩

theorem sharesResult_iff_countGraph : ∃ output command l' changed,
    (sharedSubgraphNode "count" countGraph).Runs countCall (fun _ => {}) (.invoked countInvocation)
      (.ok output) ∧
    countParent.mergeWrites [successOutput (.pull 0 "count") command] = (l', .ok changed) ∧
    (countShared.SharesResult countCall.state l'.state output.value
      ((SubgraphRun.invoked countInvocation).Merged countGraph (fun _ => {}) output) ↔
        output.value = countShared.extract countCall.state) := by
  obtain ⟨output, hrun, -⟩ := runs_countGraph
  obtain ⟨command, l', changed, hcommand, hmerge⟩ := merges_countParent output
  exact ⟨output, command, l', changed, hrun, hmerge, sharesResult_iff hrun hcommand rfl hmerge⟩

/-- The parent stays at zero. -/
theorem countGraph_result_lost : ¬ ∀ output command l' changed,
    (sharedSubgraphNode "count" countGraph).Runs countCall (fun _ => {}) (.invoked countInvocation)
      (.ok output) →
    (sharedSubgraphNode "count" countGraph).finish (.ok output) = .ok command →
    countParent.mergeWrites [successOutput (.pull 0 "count") command] = (l', .ok changed) →
    countShared.SharesResult countCall.state l'.state output.value
      ((SubgraphRun.invoked countInvocation).Merged countGraph (fun _ => {}) output) := by
  intro h
  obtain ⟨output, hrun, hone⟩ := runs_countGraph
  obtain ⟨command, l', changed, hcommand, hmerge⟩ := merges_countParent output
  have hzero : l'.state (0 : Fin 1) = (0 : ℕ) := congrFun (state_of_sharedSubgraphNode hcommand hmerge) 0
  have hshared : l'.state (0 : Fin 1) = output.value 0 :=
    (h output command l' changed hrun hcommand hmerge).fields 0
  exact Nat.zero_ne_one (hzero.symm.trans (hshared.trans hone))

end Juncture
