import Juncture.Prebuilt.Conversation
import Juncture.Tools.Answers

/-!
# Answered calls

A provider refuses a conversation in which a tool call is not answered under its identifier.  The tools of
an agent answer all calls at once; but what has failed is answered under the identifier `"unknown"`.

* `AgentRun.talk` : what is said in a run of the agent.
* `AgentRun.answered_iff` : which runs keep to the protocol.
-/

namespace Juncture

/-! ### Identifiers of answers -/

/-- Some of these have the value `c` in place of their own.  They are a rearrangement of their own values
only if all of them have them. -/
theorem perm_map_iff_of_or {α β : Type} [DecidableEq β] {f g : α → β} {c : β} {l : List α}
    (h : ∀ x ∈ l, f x = g x ∨ f x = c) : (l.map f).Perm (l.map g) ↔ ∀ x ∈ l, f x = g x := by
  have hle : ∀ l : List α, (∀ x ∈ l, f x = g x ∨ f x = c) → (l.map g).count c ≤ (l.map f).count c := by
    intro l hl
    simp only [List.count_eq_countP, List.countP_map]
    refine List.countP_mono_left fun x hx hg => ?_
    simp only [Function.comp_apply, beq_iff_eq] at hg ⊢
    exact (hl x hx).elim (fun heq => heq.trans hg) id
  refine ⟨fun hperm => ?_, fun heq => .of_eq (List.map_congr_left heq)⟩
  have hcount := (hperm.count_eq c).le
  clear hperm
  induction l with
  | nil => exact fun x hx => nomatch hx
  | cons y l ih =>
    have htail := hle l fun x hx => h x (List.mem_cons_of_mem _ hx)
    rw [List.map_cons, List.map_cons, List.count_cons, List.count_cons] at hcount
    have hy : f y = g y := by
      obtain hy | hy := h y List.mem_cons_self
      · exact hy
      · by_contra hne
        rw [if_pos (beq_iff_eq.2 hy), if_neg fun hg => hne (hy.trans (beq_iff_eq.1 hg).symm)] at hcount
        omega
    rw [hy] at hcount
    rw [List.forall_mem_cons]
    exact ⟨hy, ih (fun x hx => h x (List.mem_cons_of_mem _ hx)) (by omega)⟩

namespace ToolNode

variable {S W : Type} {node : ToolNode S W}

/-- The identifier under which a call is answered. -/
def answerId (node : ToolNode S W) (state : Option S) (w : W) (toolCall : ToolCall) : String :=
  match node.prepare toolCall with
  | .error (id, _) => id
  | .ok call => (answer (node.result state w call)).1

theorem keepsId_iff {state : Option S} {w : W} {toolCall : ToolCall} :
    node.KeepsId state w toolCall ↔ node.answerId state w toolCall = toolCall.id := by
  cases hprepare : node.prepare toolCall with
  | error q => simp only [KeepsId, answerId, hprepare]
  | ok call => simp only [keepsId_of_spawned hprepare, answerId, hprepare]

/-- The answers come under these identifiers, in some order. -/
theorem answers_ids_perm (state : Option S) (w : ℕ → W) (ai : Message) {joined : List (ℕ × SpawnedCall S W)}
    (hjoined : joined.Perm (node.spawned ai)) :
    ((node.answers state w ai joined).map fun a => a.2.1).Perm
      (ai.toolCalls.zipIdx.map fun p => node.answerId state (w p.2) p.1) := by
  have hspawned : ((node.answers state w ai joined).map fun a => a.2.1).Perm
      ((node.answers state w ai (node.spawned ai)).map fun a => a.2.1) := by
    unfold answers
    exact ((hjoined.map _).append_left _).map _
  refine hspawned.trans ?_
  simp only [answers, early, spawned, prepared, List.map_append, List.map_map]
  induction ai.toolCalls.zipIdx with
  | nil => exact .nil
  | cons p ps ih =>
    obtain ⟨toolCall, i⟩ := p
    cases hprepare : node.prepare toolCall with
    | error q =>
      simpa [List.filterMap_cons, hprepare, answerId] using ih
    | ok call =>
      simp only [List.map_cons, List.filterMap_cons, hprepare, answerId]
      exact List.perm_middle.trans (ih.cons _)

/-- Without a transformer a call is answered under its identifier, or as unknown. -/
theorem answerId_eq (htransformer : node.callTransformer = none) (state : Option S) (w : W)
    (toolCall : ToolCall) :
    node.answerId state w toolCall = toolCall.id ∨ node.answerId state w toolCall = "unknown" := by
  unfold answerId prepare
  simp only [htransformer]
  split
  · rename_i id e heq
    left
    split at heq
    · cases heq; rfl
    · split at heq
      · cases heq; rfl
      · cases heq
  · rename_i call heq
    have hcall : call.toolCall = toolCall := by
      split at heq
      · cases heq
      · split at heq
        · cases heq
        · cases heq; rfl
    cases hresult : node.result state w call with
    | ok p =>
      obtain ⟨id, out⟩ := p
      exact .inl ((result_ok hresult).trans (congrArg ToolCall.id hcall))
    | error e => right; cases e <;> rfl

/-- **All calls are answered** under their identifiers exactly if each of them keeps its identifier. -/
theorem answers_perm_iff (htransformer : node.callTransformer = none) (state : Option S) (w : ℕ → W)
    (ai : Message) {joined : List (ℕ × SpawnedCall S W)} (hjoined : joined.Perm (node.spawned ai)) :
    ((node.answers state w ai joined).map fun a => a.2.1).Perm (ai.toolCalls.map ToolCall.id) ↔
      ∀ p ∈ ai.toolCalls.zipIdx, node.KeepsId state (w p.2) p.1 := by
  have hids : ai.toolCalls.map ToolCall.id = ai.toolCalls.zipIdx.map fun p => p.1.id := by
    conv_lhs => rw [← List.zipIdx_map_fst 0 ai.toolCalls, List.map_map]
    rfl
  rw [(answers_ids_perm state w ai hjoined).congr_left, hids,
    perm_map_iff_of_or fun p _ => answerId_eq htransformer state (w p.2) p.1]
  exact forall₂_congr fun p _ => keepsId_iff.symm

/-- The tools of an agent answer the last message, and do not fail. -/
theorem executeWithState_new {tools : List (DescribedTool W)} {newId : ℕ → String} {w : ℕ → W}
    {joined : List (ℕ × SpawnedCall S W)} {messages : List Message} {state : Option S} {ask : Message}
    (hlast : messages.getLast? = some ask) (hrole : ask.role = .ai) (hcalls : ask.hasToolCalls = true) :
    (ToolNode.new tools).executeWithState newId w joined messages state =
      .ok (((ToolNode.new tools).answers state w ask joined).zipIdx.map fun ((_, id, content), n) =>
        Message.toolResult (newId n) id content) := by
  have hai : lastAi messages = some ask := by
    obtain ⟨xs, hxs⟩ := List.getLast?_eq_some_iff.1 hlast
    rw [lastAi, hxs, List.reverse_concat, List.find?_cons_of_pos]
    rw [hrole, hcalls]
    rfl
  have hsome : ask.toolCalls.isEmpty = false := by
    rw [Message.hasToolCalls] at hcalls
    exact Bool.not_eq_true' _ ▸ hcalls
  have hadmits : (ToolNode.new tools : ToolNode S W).admits ask = true := rfl
  have hhandle : (ToolNode.new tools : ToolNode S W).handleErrors = true := rfl
  simp only [executeWithState, hai, hsome, hadmits, hhandle]
  rfl

/-- What is returned are answers. -/
theorem kind_results (newId : ℕ → String) (answers : List (ℕ × String × String)) :
    (answers.zipIdx.map fun ((_, id, content), n) => Message.toolResult (newId n) id content).map
      Message.kind = (answers.map fun a => a.2.1).map .answers := by
  rw [List.map_map, List.map_map]
  conv_rhs => rw [← List.zipIdx_map_fst 0 answers, List.map_map]
  rfl

end ToolNode

/-! ### The nodes of the agent -/

section Agent

variable {M W σ : Type} [ToolModel M] [MessagesSerde]

/-- The node `tools`, as a function. -/
def toolsUpdate (toolNode : ToolNode MessagesState W) (round : AgentRound M W) (state : MessagesState) :
    Except JunctureError MessagesStateUpdate :=
  match toolNode.executeWithState round.newId round.world round.joined state.messages (some state) with
  | .ok results => .ok { messages := some results }
  | .error e => .error (.execution e.display)

namespace AgentRun

/-- What the nodes of the agent do in one superstep. -/
def speakers (run : AgentRun M W σ) (round : AgentRound M W) : Speakers where
  agent state :=
    ((agentNode run.model run.tools run.config).call round.scope state round.promptId round.outside).2
  tools := toolsUpdate (.new run.tools) round

/-- These are the nodes of the graph. -/
theorem nodes_speakers (run : AgentRun M W σ) (round : AgentRound M W) :
    (run.speakers round).nodes = agentNodes run.model run.tools run.config round := by
  have htools : nodeFnUpdate (run.speakers round).tools = toolNodeAdapter (.new run.tools) round := by
    unfold nodeFnUpdate toolNodeAdapter
    congr 1
    funext state _
    show NodeProg.done ((toolsUpdate (.new run.tools) round state).map
      (Command.ofUpdate (S := MessagesState))) = _
    unfold toolsUpdate
    cases (ToolNode.new run.tools).executeWithState round.newId round.world round.joined state.messages
      (some state) <;> rfl
  rw [Speakers.nodes, htools]
  rfl

/-- What is said in the run, in which no subgraph reports. -/
def talk (run : AgentRun M W σ) (quiet : ∀ n, (run.turns n).round.bubbleUps = []) : Talk σ where
  start := run.start
  turns n := (run.speakers (run.turns n).agent, (run.turns n).round)
  quiet

theorem head_talk [InterruptHash] (run : AgentRun M W σ) (quiet : ∀ n, (run.turns n).round.bubbleUps = [])
    (n : ℕ) : (run.talk quiet).head n = run.head n := by
  induction n with
  | zero => rfl
  | succ n ih =>
    show ((run.talk quiet).head n).bind _ = (run.head n).bind _
    rw [ih]
    congr 1
    funext l
    show (Talk.equip (run.speakers (run.turns n).agent) l).turn _ = (run.equip (run.turns n) l).turn _
    rw [Talk.equip, nodes_speakers]
    rfl

/-- What a run gets from outside. -/
structure Proper (run : AgentRun M W σ) (quiet : ∀ n, (run.turns n).round.bubbleUps = []) : Prop
    extends (run.talk quiet).Proper where
  /-- The tools that are run complete in some order. -/
  joined : ∀ n state messages ask, (run.talk quiet).Adds n state messages → n % 2 = 1 →
    state.messages.getLast? = some ask →
    (run.turns n).agent.joined.Perm ((ToolNode.new run.tools).spawned ask)

variable {run : AgentRun M W σ} {quiet : ∀ n, (run.turns n).round.bubbleUps = []} {n : ℕ}
  {state : MessagesState} {messages : List Message}

/-- The model adds one message. -/
theorem update_agent {round : AgentRound M W} {update : MessagesStateUpdate}
    (h : (run.speakers round).agent state = .ok update) : ∃ m, update = { messages := some [m] } := by
  simp only [speakers, AgentNode.call] at h
  split at h
  · cases h
  · cases h
    exact ⟨_, rfl⟩

/-- What the tools do is an update with messages. -/
theorem exists_messages {round : AgentRound M W} {update : MessagesStateUpdate}
    (h : (run.speakers round).tools state = .ok update) :
    ∃ messages, update = { messages := some messages } := by
  simp only [speakers, toolsUpdate] at h
  split at h
  · cases h
    exact ⟨_, rfl⟩
  · cases h

theorem Proper.speaks (h : run.Proper quiet) : (run.talk quiet).Speaks where
  adds n state update _ _ hupdate := by
    obtain heven | hodd := Nat.mod_two_eq_zero_or_one n
    · rw [Speakers.speaker_even heven] at hupdate
      obtain ⟨m, rfl⟩ := update_agent hupdate
      exact ⟨[m], rfl⟩
    · rw [Speakers.speaker_odd hodd] at hupdate
      exact exists_messages hupdate
  fresh := h.fresh
  agent n state messages hadds heven := by
    have hupdate := hadds.2.2
    rw [Speakers.speaker_even heven] at hupdate
    obtain ⟨m, hm⟩ := update_agent hupdate
    obtain rfl : messages = [m] := Option.some.inj (congrArg MessagesStateUpdate.messages hm)
    exact ⟨m, rfl, h.ai n state _ hadds heven m List.mem_cons_self⟩

/-- The tools answer the calls of the model, in the order in which they complete. -/
theorem Proper.answers (h : run.Proper quiet) (hodd : n % 2 = 1)
    (hadds : (run.talk quiet).Adds n state messages) : ∃ ask, state.messages.getLast? = some ask ∧
      messages.map Message.kind = (((ToolNode.new run.tools).answers (some state)
        (run.turns n).agent.world ask (run.turns n).agent.joined).map fun a => a.2.1).map .answers := by
  obtain ⟨ask, hlast, hrole, hcalls⟩ := hadds.exists_caller h.speaks hodd
  have hupdate := hadds.2.2
  rw [Speakers.speaker_odd hodd] at hupdate
  simp only [talk, speakers, toolsUpdate, ToolNode.executeWithState_new hlast hrole hcalls] at hupdate
  cases hupdate
  exact ⟨ask, hlast, ToolNode.kind_results _ _⟩

/-- The nodes of the agent keep to their parts. -/
theorem Proper.keepsParts (h : run.Proper quiet) : (run.talk quiet).KeepsParts where
  toSpeaks := h.speaks
  tools n state messages hadds hodd := by
    obtain ⟨ask, -, hkind⟩ := h.answers hodd hadds
    exact ⟨_, hkind⟩

variable [InterruptHash] {l : PregelLoop MessagesState σ}

omit [InterruptHash] in
/-- A call of the graph opens a conversation. -/
theorem opens_of_starts {g : CompiledGraph MessagesState σ} {round : AgentRound M W}
    {call : InvokeCall MessagesState σ}
    (hg : createAgentWithConfig run.model run.tools run.config round = .ok g)
    (hstart : g.Starts call run.start) : Talk.Opens run.start := by
  refine ⟨(agentLoop_of_starts hg hstart).1, ?_⟩
  rw [createAgentWithConfig_eq] at hg
  cases hg
  generalize run.start = start at hstart
  cases hstart with
  | invoke => exact ⟨_, rfl⟩
  | stream => exact ⟨_, rfl⟩
  | executeWithEmitter => exact ⟨_, rfl⟩

/-- **All calls are answered** before each call of the model and at the end, under the identifiers that the
model gave them, if and only if this was so before the run and no call of it has lost its identifier. -/
theorem callsAnswered_iff (run : AgentRun M W σ) (quiet : ∀ n, (run.turns n).round.bubbleUps = [])
    {g : CompiledGraph MessagesState σ} {round : AgentRound M W} {call : InvokeCall MessagesState σ}
    (hg : createAgentWithConfig run.model run.tools run.config round = .ok g)
    (hstart : g.Starts call run.start) (hproper : run.Proper quiet) (h : run.head n = some l) :
    Dialogue.read Message.kind [] l.state.messages = some (Talk.calls n l.state) ↔
      Dialogue.read Message.kind [] run.start.state.messages = some [] ∧
        ∀ m < n, m % 2 = 1 → ∀ k ask, run.head m = some k → k.state.messages.getLast? = some ask →
          ∀ p ∈ ask.toolCalls.zipIdx, (ToolNode.new run.tools : ToolNode MessagesState W).KeepsId
            (some k.state) ((run.turns m).agent.world p.2) p.1 := by
  have hopens : Talk.Opens (run.talk quiet).start := opens_of_starts hg hstart
  have htranscript : ∀ {n l}, run.head n = some l → (run.talk quiet).transcript n = some l.state :=
    fun hn => (Talk.transcript_head hopens ((run.head_talk quiet _).trans hn)).1
  rw [Talk.read_messages_iff hproper.keepsParts (htranscript h)]
  refine and_congr_right fun _ => forall₃_congr fun m hm hodd => ?_
  -- the tools have answered in superstep `m`
  obtain ⟨k, hk⟩ := Machine.exists_of_le h hm.le
  obtain ⟨k', hk'⟩ := Machine.exists_of_le h (Nat.succ_le_of_lt hm)
  obtain ⟨state, messages, hadds, -⟩ := Talk.adds_of_succ hproper.speaks (htranscript hk')
  obtain rfl : k.state = state := Option.some.inj ((htranscript hk).symm.trans hadds.1)
  obtain ⟨ask, hlast, hkind⟩ := hproper.answers hodd hadds
  rw [Talk.answers_iff hadds hlast hkind, ToolNode.answers_perm_iff rfl _ _ _
    (hproper.joined m _ _ _ hadds hodd hlast)]
  constructor
  · intro hkeeps k₁ ask₁ hk₁ hlast₁
    obtain rfl : k = k₁ := Option.some.inj (hk.symm.trans hk₁)
    obtain rfl : ask = ask₁ := Option.some.inj (hlast.symm.trans hlast₁)
    exact hkeeps
  · exact fun hkeeps => hkeeps k ask hk hlast

end AgentRun

end Agent

/-! ### A call that fails -/

/-- A model that says what it is told to. -/
structure ScriptedModel where

instance : ToolModel ScriptedModel where
  Outside := Message
  invoke _ scope _ _ m := (scope, .ok m)
  bindTools model _ := model

/-- A tool that fails. -/
def failTool : DescribedTool Unit where
  name := "fail"
  schema := .obj [("type", .str "object")]
  invoke _ _ := .error (.err (.executionFailed "Intentional failure"))
  description := "Fails"

/-- A superstep in which the model says `m`. -/
def scriptedRound (m : Message) : AgentRound ScriptedModel Unit where
  scope := {}
  promptId := "prompt"
  outside := m
  newId _ := "answer"
  world _ := ()
  joined := (ToolNode.new [failTool]).spawned (callMessage "fail")

/-- The graph of the agent. -/
def failingGraph : CompiledGraph MessagesState Unit where
  nodes := agentNodes (⟨⟩ : ScriptedModel) [failTool] {} (scriptedRound (callMessage "fail"))
  triggerTable := agentTable
  builderMetadata := AList.singleton "agent" {} ∪ AList.singleton "tools" {}

/-- The tool is called once, and then the model gives up. -/
def failingRun : AgentRun ScriptedModel Unit Unit where
  model := ⟨⟩
  tools := [failTool]
  config := {}
  start := failingGraph.invokeLoop emptyCall
  turns n := ⟨scriptedRound (if n = 0 then callMessage "fail" else .aiWithToolCalls "sorry" "Sorry" []), {}⟩

/-- What the tool is answered for. -/
def failure : Message :=
  .toolResult "answer" "unknown" "Error: execution failed: execution failed: Intentional failure"

theorem adds_failing {n : ℕ} {state : MessagesState} {messages : List Message}
    (h : (failingRun.talk fun _ => rfl).Adds n state messages) :
    n = 0 ∧ state = {} ∧ messages = [callMessage "fail"] ∨
      n = 1 ∧ state = { messages := [callMessage "fail"] } ∧ messages = [failure] ∨
      n = 2 ∧ state = { messages := [callMessage "fail", failure] } ∧
        messages = [.aiWithToolCalls "sorry" "Sorry" []] := by
  obtain _ | _ | _ | _ | n := n
  · exact .inl ⟨rfl, h.unique ⟨rfl, by decide, rfl⟩⟩
  · exact .inr (.inl ⟨rfl, h.unique ⟨rfl, by decide, rfl⟩⟩)
  · exact .inr (.inr ⟨rfl, h.unique ⟨rfl, by decide, rfl⟩⟩)
  · -- after the last message there is nothing due
    have hlast : (failingRun.talk fun _ => rfl).transcript 3 = some { messages :=
        [callMessage "fail", failure, .aiWithToolCalls "sorry" "Sorry" []] } := rfl
    obtain rfl := Option.some.inj (hlast.symm.trans h.1)
    exact absurd rfl h.2.1
  · have hnone : (failingRun.talk fun _ => rfl).transcript (n + 4) = none :=
      Machine.trace_eq_none_of_lt (n := 3) rfl rfl (by omega)
    exact nomatch hnone.symm.trans h.1

theorem proper_failing : failingRun.Proper fun _ => rfl where
  fresh n state messages h := by
    obtain ⟨rfl, rfl, rfl⟩ | ⟨rfl, rfl, rfl⟩ | ⟨rfl, rfl, rfl⟩ := adds_failing h <;> decide
  ai n state messages h heven m hm := by
    obtain ⟨rfl, rfl, rfl⟩ | ⟨rfl, rfl, rfl⟩ | ⟨rfl, rfl, rfl⟩ := adds_failing h
    · rw [List.mem_singleton.1 hm]; rfl
    · cases heven
    · rw [List.mem_singleton.1 hm]; rfl
  joined n state messages ask h hodd hlast := by
    obtain ⟨rfl, rfl, rfl⟩ | ⟨rfl, rfl, rfl⟩ | ⟨rfl, rfl, rfl⟩ := adds_failing h
    · cases hodd
    · obtain rfl := Option.some.inj hlast
      exact .refl _
    · cases hodd

/-- The call stays open: the tool was answered for, but not under the identifier of the call. -/
theorem callsAnswered_iff_failing : ∃ l, failingRun.head 2 = some l ∧
    l.state.messages = [callMessage "fail", failure] ∧
    Dialogue.read Message.kind [] l.state.messages ≠ some (Talk.calls 2 l.state) := by
  obtain ⟨l, hl⟩ : ∃ l, failingRun.head 2 = some l := Option.isSome_iff_exists.1 (by decide +kernel)
  have hmessages : l.state.messages = [callMessage "fail", failure] := by
    have heq : (failingRun.head 2).map (fun l => l.state.messages) = some [callMessage "fail", failure] :=
      rfl
    rw [hl] at heq
    exact Option.some.inj heq
  refine ⟨l, hl, hmessages, fun hread => ?_⟩
  have hkeeps := ((AgentRun.callsAnswered_iff failingRun (fun _ => rfl)
    (createAgentWithConfig_eq ⟨⟩ [failTool] {} (scriptedRound (callMessage "fail")))
    (.invoke : failingGraph.Starts emptyCall _) proper_failing hl).1 hread).2
  obtain ⟨k, hk⟩ : ∃ k, failingRun.head 1 = some k := Option.isSome_iff_exists.1 (by decide +kernel)
  have hlast : k.state.messages.getLast? = some (callMessage "fail") := by
    have heq : (failingRun.head 1).map (fun l => l.state.messages.getLast?) =
        some (some (callMessage "fail")) := rfl
    rw [hk] at heq
    exact Option.some.inj heq
  have hkeep := hkeeps 1 (by omega) rfl k _ hk hlast (⟨"call_1", "fail", .obj []⟩, 0) List.mem_cons_self
  exact absurd hkeep (show "call_1" ≠ "unknown" by decide)

end Juncture
