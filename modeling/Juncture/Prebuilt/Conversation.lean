import Juncture.Lib.Dialogue
import Juncture.Pregel.Ephemeral
import Juncture.Prebuilt.AgentRuns

/-!
# What is said in a run of an agent

An agent is a graph of two nodes, and its run goes through the whole loop: routing, reducers, checkpoints.
What comes of it is a conversation, in which the two nodes speak in turn.

* `Talk.transcript` : the conversation.
* `Talk.transcript_head` : every run of the graph is one.
* `Talk.read_messages_iff` : when all tool calls are answered, before each call of the model.
-/

namespace Juncture

/-! ### The conversation -/

variable {σ : Type} [MessagesSerde]

/-- `NodeFnUpdate`. -/
def nodeFnUpdate (f : MessagesState → Except JunctureError MessagesStateUpdate) :
    Node MessagesState where
  call state _ := .done ((f state).map Command.ofUpdate)

/-- What the two nodes of an agent do in one superstep. -/
structure Speakers where
  /-- The node `agent`. -/
  agent : MessagesState → Except JunctureError MessagesStateUpdate
  /-- The node `tools`. -/
  tools : MessagesState → Except JunctureError MessagesStateUpdate

namespace Speakers

/-- The two nodes. -/
def nodes (speakers : Speakers) : Dict (Node MessagesState) :=
  AList.singleton "agent" (nodeFnUpdate speakers.agent) ∪
    AList.singleton "tools" (nodeFnUpdate speakers.tools)

/-- The node whose turn it is. -/
def speaker (speakers : Speakers) (n : ℕ) : MessagesState → Except JunctureError MessagesStateUpdate :=
  if n % 2 = 0 then speakers.agent else speakers.tools

omit [MessagesSerde] in
theorem speaker_even {n : ℕ} (h : n % 2 = 0) (speakers : Speakers) :
    speakers.speaker n = speakers.agent := if_pos h

omit [MessagesSerde] in
theorem speaker_odd {n : ℕ} (h : n % 2 = 1) (speakers : Speakers) :
    speakers.speaker n = speakers.tools := if_neg (by omega)

/-- What has been said when it has spoken. -/
def say (speakers : Speakers) (n : ℕ) (state : MessagesState) : Option MessagesState :=
  (speakers.speaker n state).toOption.map fun update => (state.apply update).1

end Speakers

/-- The nodes that have something to say before superstep `n`. -/
def due (n : ℕ) (state : MessagesState) : List String :=
  if n % 2 = 0 then ["agent"]
  else if state.messages.getLast?.any Message.hasToolCalls then ["tools"] else []

omit [MessagesSerde] in
theorem due_agent (h : n % 2 = 0) (state : MessagesState) : due n state = ["agent"] := if_pos h

/-- A run of the graph of an agent. -/
structure Talk (σ : Type) [MessagesSerde] where
  /-- The loop at the beginning. -/
  start : PregelLoop MessagesState σ
  /-- What the nodes do in each superstep, and what happens around it. -/
  turns : ℕ → Speakers × Round MessagesState
  /-- No subgraph is mounted, so none reports. -/
  quiet : ∀ n, (turns n).2.bubbleUps = []

namespace Talk

/-- The conversation after `n` supersteps. -/
def transcript (talk : Talk σ) : ℕ → Option MessagesState :=
  Machine.trace
    (fun state (x : ℕ × Speakers) => if due x.1 state = [] then none else x.2.say x.1 state)
    (fun n => (n, (talk.turns n).1)) talk.start.state

/-- The loop with the nodes as they are in one superstep. -/
def equip (speakers : Speakers) (l : PregelLoop MessagesState σ) : PregelLoop MessagesState σ :=
  { l with nodes := speakers.nodes }

/-- The loop after `n` supersteps. -/
def head [InterruptHash] (talk : Talk σ) : ℕ → Option (PregelLoop MessagesState σ) :=
  Machine.trace (fun l turn => (equip turn.1 l).turn turn.2) talk.turns talk.start

end Talk

/-! ### One superstep -/

/-- The pending tasks are those of the nodes that have something to say. -/
def PregelLoop.Awaits (n : ℕ) (l : PregelLoop MessagesState σ) : Prop :=
  ∃ base, l.pendingTasks = pullTasks base (due n l.state)

/-- After an output of the model. -/
theorem routeOutput_agent {base : ℕ} {nodes : Dict (Node MessagesState)} {state : MessagesState}
    {output : TaskOutput MessagesState} (hnode : output.nodeName = "agent")
    (hgoto : output.command.goto = .none) :
    routeOutput base agentTable (.fromTriggerTable agentTable) nodes state .empty output =
      .ok (if state.messages.getLast?.any Message.hasToolCalls then NextTasks.empty.pushPull base "tools"
        else .empty) := by
  unfold routeOutput
  simp only [hgoto, hnode, edgesOf_agent, List.foldlM_cons, List.foldlM_nil]
  cases hlast : state.messages.getLast? with
  | none => simp only [processEdge, agentRouter, hlast]; rfl
  | some m =>
    cases hcalls : m.hasToolCalls with
    | false => simp only [processEdge, agentRouter, hlast, hcalls, Option.any_some]; rfl
    | true => simp only [processEdge, agentRouter, hlast, hcalls, Option.any_some]; rfl

/-- After an output of the tools. -/
theorem routeOutput_tools {base : ℕ} {nodes : Dict (Node MessagesState)} {state : MessagesState}
    {output : TaskOutput MessagesState} (hnode : output.nodeName = "tools")
    (hgoto : output.command.goto = .none) :
    routeOutput base agentTable (.fromTriggerTable agentTable) nodes state .empty output =
      .ok (NextTasks.empty.pushPull base "agent") := by
  unfold routeOutput
  simp only [hgoto, hnode, edgesOf_tools, List.foldlM_cons, List.foldlM_nil]
  rfl

theorem PregelLoop.Ran.state {l l' : PregelLoop MessagesState σ} (h : l.Ran l') : l'.state = l.state := by
  obtain ⟨_, _, _, _, _, _, _, _, _, _, _, _, rfl⟩ := h
  rfl

/-- **The next speaker**, after an output without a `goto`. -/
theorem computeNextTasks_agent {n base : ℕ} {nodes : Dict (Node MessagesState)} {state : MessagesState}
    {output : TaskOutput MessagesState} (hnode : output.nodeName = nodeAt n)
    (hgoto : output.command.goto = .none) :
    computeNextTasks base [output] agentTable (.fromTriggerTable agentTable) nodes state =
      .ok (pullTasks base (due (n + 1) state)) := by
  unfold computeNextTasks
  rw [List.foldlM_cons]
  obtain heven | hodd := Nat.mod_two_eq_zero_or_one n
  · rw [nodeAt, if_pos heven] at hnode
    have hdue : due (n + 1) state =
        if state.messages.getLast?.any Message.hasToolCalls then ["tools"] else [] := if_neg (by omega)
    rw [routeOutput_agent hnode hgoto, hdue]
    split_ifs <;> rfl
  · rw [nodeAt, if_neg (by omega)] at hnode
    rw [routeOutput_tools hnode hgoto, due_agent (by omega)]
    rfl

namespace AgentLoop

variable {speakers : Speakers} {l l' k : PregelLoop MessagesState σ} {n : ℕ}
  {task : PendingTask MessagesState}

/-- The one task of an agent stays as it is when it is prepared. -/
theorem prepare_pull {base : ℕ} {node : String} {blocked : List (TaskOutput MessagesState)}
    (h : AgentLoop l) (htask : l.pendingTasks = pullTasks base [node])
    (hk : l.prepare = (k, .ok blocked)) : blocked = [] ∧ k = l := by
  unfold PregelLoop.prepare at hk
  have hresolve : PregelLoop.resolveStateJson l.pendingTasks = (l.pendingTasks, .ok ()) := by
    rw [htask]
    rfl
  have hempty : l.checkCircuitBreakers = (l, []) := by
    unfold PregelLoop.checkCircuitBreakers
    rw [if_pos]
    rw [h.breakers]
    rfl
  simp only [hresolve, hempty] at hk
  cases hk
  exact ⟨rfl, rfl⟩

/-- What the node whose turn it is does is what its function does on the state. -/
theorem nodeCall_eq (hnodes : l.nodes = speakers.nodes) (hname : task.nodeName = nodeAt n)
    (hstate : task.stateOverride = none) : l.runnerEnv.nodeCall l.state task =
      .ok (.done ((speakers.speaker n l.state).map Command.ofUpdate)) := by
  unfold RunnerEnv.nodeCall
  rw [show l.runnerEnv.nodes = speakers.nodes from hnodes, hname, hstate]
  obtain heven | hodd := Nat.mod_two_eq_zero_or_one n
  · rw [nodeAt, Speakers.speaker, if_pos heven, if_pos heven]
    rfl
  · rw [nodeAt, Speakers.speaker, if_neg (by omega), if_neg (by omega)]
    rfl

variable [InterruptHash] {round : Round MessagesState}

/-- What the runner returns for the one task. -/
theorem runPrepared_eq {r : SuperstepResult MessagesState} (h : AgentLoop l)
    (hnodes : l.nodes = speakers.nodes) (htask : l.pendingTasks = [task])
    (hname : task.nodeName = nodeAt n) (hstate : task.stateOverride = none)
    (hr : l.runPrepared round [] = (l', .ok r)) :
    ∃ update, speakers.speaker n l.state = .ok update ∧
      r = { taskOutputs := [successOutput task (.ofUpdate update)] } := by
  have hruns : l.runTasks round =
      executeInline l.runnerEnv l.state task l.store l.nextUuid l.cancelled := by
    unfold PregelLoop.runTasks Juncture.executeSuperstep
    rw [htask, inlineTask_eq_some_iff.2 ⟨rfl, h.needsSpawn task.nodeName⟩]
    rfl
  unfold PregelLoop.runPrepared at hr
  rw [hruns] at hr
  dsimp only at hr
  split at hr
  · cases hr
  · rename_i result hresult
    cases hr
    obtain ⟨p, command, hp, hc, rfl, -⟩ := executeInline_eq_ok hresult
    rw [nodeCall_eq hnodes hname hstate] at hp
    cases hp
    obtain ⟨update, hupdate, rfl⟩ := ExceptFold.map_eq_ok_iff.1 hc
    exact ⟨update, hupdate, rfl⟩

/-- What is left of a superstep that executed one task. -/
theorem state_afterTick {result : SuperstepResult MessagesState} {update : MessagesStateUpdate}
    (ha : l.afterTick result = (l', .ok ()))
    (hresult : result = { taskOutputs := [successOutput task (.ofUpdate update)] }) :
    l'.state = (l.state.apply update).1 ∧ (l.committed result).state = l'.state := by
  obtain ⟨s, changed, -, -, hmerge, -⟩ := PregelLoop.afterTick_phases ha
  have hcommitted : (l.committed result).state = s := by
    unfold PregelLoop.committed
    rw [hmerge]
    exact List.foldl_fixed _
  obtain ⟨-, s', hall, -, heq⟩ := PregelLoop.mergeWrites_eq_ok_iff.1 hmerge
  obtain rfl : s = s' := congrArg PregelLoop.state heq
  have hbatch : l.batch result = [update] := by
    rw [hresult]
    exact List.perm_singleton.1 (mergedUpdates_perm _ _)
  rw [hbatch] at hall
  have hs : s = (l.state.apply update).1 := by
    cases hall
    rfl
  have hstate : l'.state = (l.committed result).state := by
    obtain ⟨tasks, k, -, hk, hf⟩ := PregelLoop.afterTick_advanced ha
    have hfinish : ∀ k : PregelLoop MessagesState σ, k.finishAllChannels.state = k.state := by
      intro k
      unfold PregelLoop.finishAllChannels
      split_ifs
      · rfl
      · exact List.foldl_fixed _
    have hsettled : ∀ {k k' : PregelLoop MessagesState σ}, k.Settled k' → k'.state = k.state := by
      rintro k k' ⟨t, ht, _, _, _, _, _, _, _, _, _, _, _, rfl⟩
      obtain rfl | rfl := ht
      · rfl
      · exact hfinish k
    obtain ⟨-, hset⟩ | ⟨-, hset⟩ := PregelLoop.finishTick_settled hf
    · exact (hsettled hset).trans hk.state
    · have hno : PregelLoop.NoParentUpdates result := by
        intro c hc
        rw [hresult] at hc
        cases hc
      exact (hsettled hset).trans ((PregelLoop.state_handleBubbleUps hno _).trans hk.state)
  exact ⟨hstate.trans (hcommitted.trans hs), hstate.symm⟩

/-- The nodes that come next. -/
theorem awaits_afterTick {result : SuperstepResult MessagesState} {update : MessagesStateUpdate}
    (h : AgentLoop l) (ha : l.afterTick result = (l', .ok ())) (hname : task.nodeName = nodeAt n)
    (hresult : result = { taskOutputs := [successOutput task (.ofUpdate update)] }) :
    l'.Awaits (n + 1) := by
  have hcommitted := h.fixed (l.fixed_committed result)
  obtain ⟨tasks, htasks, hcourse⟩ := PregelLoop.afterTick_course ha
  have hpending : l'.pendingTasks = tasks := by
    obtain ⟨-, hcourse⟩ | ⟨-, hcourse⟩ := hcourse
    · exact congrArg PregelLoop.Course.pendingTasks hcourse
    · exact congrArg PregelLoop.Course.pendingTasks hcourse
  have houtputs : executedOutputs result.taskOutputs =
      [(successOutput task (.ofUpdate update)).clone] := by
    rw [hresult]
    rfl
  have hsucceeded : ∀ o ∈ [(successOutput task (.ofUpdate update)).clone], o.error = none := by
    intro o ho
    obtain rfl := List.mem_singleton.1 ho
    rfl
  rw [houtputs, scheduleNext_of_succeeded hcommitted.handlers hsucceeded, PregelLoop.scheduleEnv,
    hcommitted.table, hcommitted.triggers] at htasks
  have hnext := (computeNextTasks_agent hname rfl).symm.trans htasks
  rw [(state_afterTick ha hresult).2] at hnext
  exact ⟨_, hpending.trans (Except.ok.inj hnext).symm⟩

/-- **The step**: the node whose turn it is speaks, and then it is the turn of the other one. -/
theorem speak (h : AgentLoop l) (hnodes : l.nodes = speakers.nodes) (hawaits : l.Awaits n)
    (hquiet : round.bubbleUps = []) (hl : l.turn round = some l') :
    AgentLoop l' ∧ l'.Awaits (n + 1) ∧ due n l.state ≠ [] ∧ speakers.say n l.state = some l'.state := by
  obtain ⟨l₁, result, hs, ha⟩ := PregelLoop.turn_eq_some_iff.1 hl
  have h₁ := h.fixed (PregelLoop.ran_superstep hs).fixed
  obtain ⟨hgo, r, hexec, rfl⟩ := PregelLoop.superstep_eq_some_iff.1 hs
  obtain ⟨k, blocked, hprep, hrun⟩ := andThen_eq_ok_iff.1 hexec
  have houtside := (l.ran_outside round).fixed
  have hpending := l.pendingTasks_outside round
  have hstate : (l.outside round).state = l.state := (l.ran_outside round).state
  have hstate₁ : l₁.state = l.state := (PregelLoop.ran_superstep hs).state
  -- something is pending, so it is the one task of the node whose turn it is
  obtain ⟨base, htasks⟩ := hawaits
  have hdue : due n l.state = [nodeAt n] := by
    have hne : due n l.state ≠ [] := by
      intro hnil
      rw [hnil] at htasks
      exact hgo.pending (hpending.trans htasks)
    unfold due at hne ⊢
    unfold nodeAt
    split_ifs at hne ⊢ with heven hcalls
    · rfl
    · rfl
    · exact absurd rfl hne
  rw [hdue] at htasks
  obtain ⟨rfl, rfl⟩ := (h.fixed houtside).prepare_pull (hpending.trans htasks) hprep
  obtain ⟨update, hupdate, rfl⟩ := (h.fixed houtside).runPrepared_eq (houtside.nodes.trans hnodes)
    (hpending.trans htasks) rfl rfl hrun
  rw [hquiet] at ha
  rw [hstate] at hupdate
  refine ⟨h₁.fixed (PregelLoop.fixed_afterTick ha), h₁.awaits_afterTick ha rfl rfl, ?_, ?_⟩
  · rw [hdue]
    exact List.cons_ne_nil _ _
  · rw [Speakers.say, hupdate, (state_afterTick ha rfl).1, hstate₁]
    rfl

end AgentLoop

/-! ### The run -/

namespace Talk

variable [InterruptHash] {talk : Talk σ} {l : PregelLoop MessagesState σ} {n : ℕ}

/-- The loop of an agent before its first superstep. -/
structure Opens (l : PregelLoop MessagesState σ) : Prop where
  /-- It has what the graph gives it. -/
  loop : AgentLoop l
  /-- The model is asked first. -/
  awaits : l.Awaits 0

/-- **Every run is a conversation**: after `n` supersteps the state is what has been said, and the node is
pending that has something to say to it. -/
theorem transcript_head (hopens : Opens talk.start) (h : talk.head n = some l) :
    talk.transcript n = some l.state ∧ l.pendingTasks.map PendingTask.nodeName = due n l.state := by
  suffices hinv : AgentLoop l ∧ l.Awaits n ∧ talk.transcript n = some l.state by
    obtain ⟨-, ⟨base, htasks⟩, htranscript⟩ := hinv
    refine ⟨htranscript, ?_⟩
    rw [htasks, pullTasks, List.map_map]
    exact List.zipIdx_map_fst _ _
  refine Machine.trace_invariant (I := fun n l => AgentLoop l ∧ l.Awaits n ∧
    talk.transcript n = some l.state) ⟨hopens.loop, hopens.awaits, rfl⟩ ?_ h
  rintro n t u - ⟨ht, hawaits, htranscript⟩ hturn
  have hequip : AgentLoop (equip (talk.turns n).1 t) :=
    ⟨ht.table, ht.triggers, ht.handlers, ht.fallbacks, ht.retries, ht.timeouts, ht.breakers⟩
  obtain ⟨hu, hnext, hdue, hsay⟩ := hequip.speak rfl hawaits (talk.quiet n) hturn
  exact ⟨hu, hnext, Machine.trace_succ_eq_some_iff.2 ⟨_, htranscript, (if_neg hdue).trans hsay⟩⟩

end Talk

/-! ### Calls and their answers -/

/-- A message of a tool answers a call, and other messages make calls. -/
def Message.kind (m : Message) : Dialogue.Kind String :=
  match m.role, m.toolCallId with
  | .tool, some id => .answers id
  | .tool, none => .stray
  | _, _ => .asks (m.toolCalls.map ToolCall.id)

omit [MessagesSerde] in
theorem Message.kind_of_ai {m : Message} (h : m.role = .ai) :
    m.kind = .asks (m.toolCalls.map ToolCall.id) := by
  unfold Message.kind
  rw [h]

omit [MessagesSerde] in
/-- New messages come last. -/
theorem messagesReducer_fresh {current incoming : List Message}
    (hmarker : ∀ m ∈ incoming, m.isMarker = false) (hids : (incoming.map Message.id).Nodup)
    (hfresh : ∀ m ∈ incoming, m.id ∉ current.map Message.id) :
    messagesReducer current incoming = current ++ incoming := by
  induction incoming generalizing current with
  | nil => exact (List.append_nil _).symm
  | cons m incoming ih =>
    obtain ⟨hm, hids⟩ := List.nodup_cons.1 hids
    have hnew := hfresh m List.mem_cons_self
    have hput : messagesReducer current [m] = current ++ [m] := by
      rw [messagesReducer_eq, List.map_singleton, edit_of_not_marker (hmarker m List.mem_cons_self)]
      show Roster.put Message.id m current = _
      rw [put_eq, if_neg]
      rw [List.any_eq_true]
      rintro ⟨m', hm', hid⟩
      exact hnew (List.mem_map.2 ⟨m', hm', beq_iff_eq.1 hid⟩)
    rw [← List.singleton_append, messagesReducer_append, hput, ← List.append_assoc]
    refine ih (fun m' hm' => hmarker m' (List.mem_cons_of_mem _ hm')) hids fun m' hm' hmem => ?_
    rw [List.map_append, List.mem_append] at hmem
    obtain hmem | hmem := hmem
    · exact hfresh m' (List.mem_cons_of_mem _ hm') hmem
    · rw [List.map_singleton, List.mem_singleton] at hmem
      exact hm (hmem ▸ List.mem_map_of_mem hm')

namespace Talk

variable {talk : Talk σ} {n : ℕ} {state : MessagesState}

/-- In superstep `n` these messages come to the conversation `state`. -/
def Adds (talk : Talk σ) (n : ℕ) (state : MessagesState) (messages : List Message) : Prop :=
  talk.transcript n = some state ∧ due n state ≠ [] ∧
    (talk.turns n).1.speaker n state = .ok { messages := some messages }

/-- What comes from outside is as it should be. -/
structure Proper (talk : Talk σ) : Prop where
  /-- The identifiers of the messages are new. -/
  fresh : ∀ n state messages, talk.Adds n state messages → (messages.map Message.id).Nodup ∧
    ∀ m ∈ messages, m.isMarker = false ∧ m.id ∉ state.messages.map Message.id
  /-- The model speaks as the assistant. -/
  ai : ∀ n state messages, talk.Adds n state messages → n % 2 = 0 → ∀ m ∈ messages, m.role = .ai

/-- The nodes add new messages with identifiers of their own, and the model says one thing at a time. -/
structure Speaks (talk : Talk σ) : Prop where
  /-- There are no updates without messages. -/
  adds : ∀ n state update, talk.transcript n = some state → due n state ≠ [] →
    (talk.turns n).1.speaker n state = .ok update → ∃ messages, update = { messages := some messages }
  /-- The identifiers of the messages are new. -/
  fresh : ∀ n state messages, talk.Adds n state messages → (messages.map Message.id).Nodup ∧
    ∀ m ∈ messages, m.isMarker = false ∧ m.id ∉ state.messages.map Message.id
  /-- The model says one thing. -/
  agent : ∀ n state messages, talk.Adds n state messages → n % 2 = 0 →
    ∃ m : Message, messages = [m] ∧ m.role = .ai

/-- Besides, the tools do nothing but answer. -/
structure KeepsParts (talk : Talk σ) : Prop extends talk.Speaks where
  /-- The answers. -/
  tools : ∀ n state messages, talk.Adds n state messages → n % 2 = 1 →
    ∃ ids : List String, messages.map Message.kind = ids.map .answers

/-- Each call of the last message is answered once in superstep `n`. -/
def Answers (talk : Talk σ) (n : ℕ) : Prop :=
  ∀ state messages ask, talk.Adds n state messages → state.messages.getLast? = some ask →
    ∀ ids : List String, messages.map Message.kind = ids.map .answers → ids.Perm (ask.toolCalls.map ToolCall.id)

variable {messages : List Message}

/-- The conversation goes on with what is added. -/
theorem adds_of_succ (hspeaks : talk.Speaks) {state' : MessagesState}
    (h : talk.transcript (n + 1) = some state') : ∃ state messages, talk.Adds n state messages ∧
      state'.messages = state.messages ++ messages := by
  obtain ⟨state, hstate, hsay⟩ := Machine.trace_succ_eq_some_iff.1 h
  split_ifs at hsay with hdue
  obtain ⟨update, hupdate, rfl⟩ := Option.map_eq_some_iff.1 hsay
  have hspeaker : (talk.turns n).1.speaker n state = .ok update := by
    cases hx : (talk.turns n).1.speaker n state with
    | error e => rw [hx] at hupdate; cases hupdate
    | ok u => rw [hx] at hupdate; exact congrArg _ (Option.some.inj hupdate)
  obtain ⟨messages, rfl⟩ := hspeaks.adds n state update hstate hdue hspeaker
  obtain ⟨hids, hfresh⟩ := hspeaks.fresh n state messages ⟨hstate, hdue, hspeaker⟩
  refine ⟨state, messages, ⟨hstate, hdue, hspeaker⟩, ?_⟩
  exact messagesReducer_fresh (fun m hm => (hfresh m hm).1) hids fun m hm => (hfresh m hm).2

/-- The calls that are open before superstep `n`. -/
def calls (n : ℕ) (state : MessagesState) : List String :=
  if n % 2 = 0 then [] else (state.messages.getLast?.map fun m => m.toolCalls.map ToolCall.id).getD []

omit [MessagesSerde] in
theorem calls_of_even (h : n % 2 = 0) (state : MessagesState) : calls n state = [] := if_pos h

omit [MessagesSerde] in
/-- After a message of the model its calls are open. -/
theorem calls_of_odd {ask : Message} (h : n % 2 = 1) (hlast : state.messages.getLast? = some ask) :
    calls n state = ask.toolCalls.map ToolCall.id := by
  rw [calls, if_neg (by omega), hlast]
  rfl

/-- What the tools hear last is what the model has said. -/
theorem exists_ask (hspeaks : talk.Speaks) (hodd : n % 2 = 1) (h : talk.transcript n = some state) :
    ∃ xs ask, state.messages = xs ++ [ask] ∧ ask.role = .ai := by
  obtain _ | n := n
  · cases hodd
  obtain ⟨before, messages, hadds, hmessages⟩ := adds_of_succ hspeaks h
  obtain ⟨ask, rfl, hrole⟩ := hspeaks.agent n before messages hadds (by omega)
  exact ⟨before.messages, ask, hmessages, hrole⟩

/-- The tools only speak after a message of the model with calls. -/
theorem Adds.exists_caller (hadds : talk.Adds n state messages) (hspeaks : talk.Speaks)
    (hodd : n % 2 = 1) :
    ∃ ask : Message, state.messages.getLast? = some ask ∧ ask.role = .ai ∧ ask.hasToolCalls = true := by
  obtain ⟨xs, ask, hask, hrole⟩ := exists_ask hspeaks hodd hadds.1
  have hlast : state.messages.getLast? = some ask := by rw [hask, List.getLast?_concat]
  refine ⟨ask, hlast, hrole, ?_⟩
  have hdue := hadds.2.1
  rw [due, if_neg (by omega), hlast, Option.any_some] at hdue
  by_contra hnone
  rw [if_neg hnone] at hdue
  exact hdue rfl

/-- In superstep `n` only these messages come, and only to this conversation. -/
theorem Adds.unique {state' : MessagesState} {messages' : List Message}
    (h : talk.Adds n state messages) (h' : talk.Adds n state' messages') :
    state = state' ∧ messages = messages' := by
  obtain rfl : state = state' := Option.some.inj (h.1.symm.trans h'.1)
  exact ⟨rfl,
    Option.some.inj (congrArg MessagesStateUpdate.messages (Except.ok.inj (h.2.2.symm.trans h'.2.2)))⟩

/-- It takes one look to see whether the tools answer. -/
theorem answers_iff {ask : Message} {ids : List String} (hadds : talk.Adds n state messages)
    (hlast : state.messages.getLast? = some ask) (hids : messages.map Message.kind = ids.map .answers) :
    talk.Answers n ↔ ids.Perm (ask.toolCalls.map ToolCall.id) := by
  refine ⟨fun h => h state messages ask hadds hlast ids hids, fun hperm s ms ask' hadds' hlast' ids' h => ?_⟩
  obtain ⟨rfl, rfl⟩ := hadds.unique hadds'
  obtain rfl : ask = ask' := Option.some.inj (hlast.symm.trans hlast')
  have hinj : Function.Injective (Dialogue.Kind.answers : String → _) := fun _ _ heq =>
    Dialogue.Kind.answers.inj heq
  rwa [List.map_injective_iff.2 hinj (h.symm.trans hids)]

/-- **All calls are answered**, before each call of the model and at the end, exactly if they were before
the run and the tools have answered each call that was made. -/
theorem read_messages_iff (hparts : talk.KeepsParts) (h : talk.transcript n = some state) :
    Dialogue.read Message.kind [] state.messages = some (calls n state) ↔
      Dialogue.read Message.kind [] talk.start.state.messages = some [] ∧
        ∀ m < n, m % 2 = 1 → talk.Answers m := by
  induction n generalizing state with
  | zero =>
    cases h
    simp [calls]
  | succ n ih =>
    obtain ⟨before, messages, hadds, hmessages⟩ := adds_of_succ hparts.toSpeaks h
    have ih := ih hadds.1
    rw [hmessages, Dialogue.read_append, Option.bind_eq_some_iff]
    obtain heven | hodd := Nat.mod_two_eq_zero_or_one n
    · -- the model speaks, with nothing open
      obtain ⟨m, rfl, hrole⟩ := hparts.agent n before messages hadds heven
      have hcalls : calls (n + 1) state = m.toolCalls.map ToolCall.id :=
        calls_of_odd (by omega) (by rw [hmessages, List.getLast?_concat])
      have hanswers : (∀ k < n + 1, k % 2 = 1 → talk.Answers k) ↔ ∀ k < n, k % 2 = 1 → talk.Answers k :=
        ⟨fun hall k hk => hall k (hk.trans n.lt_succ_self), fun hall k hk hodd =>
          hall k ((Nat.lt_succ_iff_lt_or_eq.1 hk).resolve_right fun heq => by omega) hodd⟩
      rw [hcalls, hanswers, ← ih, calls_of_even heven]
      simp only [Dialogue.read_singleton, Message.kind_of_ai hrole]
      constructor
      · rintro ⟨p, hp, hread⟩
        obtain rfl := (Dialogue.read_asks_eq_some_iff.1 hread).1
        exact hp
      · exact fun hp => ⟨[], hp, Dialogue.read_asks_eq_some_iff.2 ⟨rfl, rfl⟩⟩
    · -- the tools answer what is open
      obtain ⟨ids, hids⟩ := hparts.tools n before messages hadds hodd
      obtain ⟨xs, ask, hask, hrole⟩ := exists_ask hparts.toSpeaks hodd hadds.1
      have hlast : before.messages.getLast? = some ask := by rw [hask, List.getLast?_concat]
      have hanswers : (∀ k < n + 1, k % 2 = 1 → talk.Answers k) ↔
          (∀ k < n, k % 2 = 1 → talk.Answers k) ∧ ids.Perm (ask.toolCalls.map ToolCall.id) := by
        rw [Nat.forall_lt_succ_right, ← answers_iff hadds hlast hids]
        exact and_congr_right fun _ => ⟨fun h => h hodd, fun h _ => h⟩
      have hopen : ∀ p, Dialogue.read Message.kind [] before.messages = some p →
          p = ask.toolCalls.map ToolCall.id := by
        intro p hp
        rw [hask, Dialogue.read_append, Option.bind_eq_some_iff] at hp
        obtain ⟨q, -, hread⟩ := hp
        rw [Dialogue.read_singleton, Message.kind_of_ai hrole] at hread
        exact (Dialogue.read_asks_eq_some_iff.1 hread).2
      rw [hanswers, ← and_assoc, ← ih, calls_of_even (by omega), calls_of_odd hodd hlast]
      constructor
      · rintro ⟨p, hp, hread⟩
        obtain rfl := hopen p hp
        exact ⟨hp, (Dialogue.read_answers_iff hids).1 hread⟩
      · rintro ⟨hp, hperm⟩
        exact ⟨_, hp, (Dialogue.read_answers_iff hids).2 hperm⟩

end Talk

end Juncture
