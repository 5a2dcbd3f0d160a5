import Juncture.Prebuilt.AgentMiddleware

/-!
# Runs of an agent with middleware

A hook before a tool can keep the tools from being run.  Its message is then all that is said about the
calls of the model, however many there are.

* `MiddlewareRun.vetoesLeaveOpen_iff` : in which runs all calls are answered.
-/

namespace Juncture

variable {X : Type}

/-- The hooks around the tools keep to what they are for: they answer a call, and under its identifier. -/
structure AgentMiddleware.Mannerly (mw : AgentMiddleware X) : Prop where
  /-- What is said in place of the tools is an answer. -/
  beforeTool : ∀ call toolName arguments message,
    mw.beforeTool call toolName arguments = .shortCircuit message → ∃ id, message.kind = .answers id
  /-- What is made of an answer answers the same call. -/
  afterTool : ∀ call toolName result id, result.kind = .answers id →
    (mw.afterTool call toolName result).kind = .answers id

theorem AgentMiddleware.Neutral.mannerly {mw : AgentMiddleware X} (h : mw.Neutral) : mw.Mannerly where
  beforeTool call toolName arguments message heq := by
    rw [h.beforeTool] at heq
    cases heq
  afterTool call toolName result id heq := by
    rw [h.afterTool]
    exact heq

theorem Message.kind_eq_answers_iff {m : Message} {id : String} :
    m.kind = .answers id ↔ m.role = .tool ∧ m.toolCallId = some id := by
  unfold Message.kind
  cases hrole : m.role <;> cases hid : m.toolCallId <;> simp

theorem mannerly_toolErrorHandling : (ToolErrorHandlingMiddleware : AgentMiddleware X).Mannerly where
  beforeTool call toolName arguments message heq := by cases heq
  afterTool call toolName result id heq := by
    have hid := (Message.kind_eq_answers_iff.1 heq).2
    unfold ToolErrorHandlingMiddleware
    dsimp only
    split
    · split
      · rw [Message.kind_eq_answers_iff]
        exact ⟨rfl, congrArg some (congrArg (Option.getD · "") hid)⟩
      · exact heq
    · exact heq

theorem SafeLoopDetection.mannerly (mw : SafeLoopDetection) :
    (mw.toMiddleware : AgentMiddleware X).Mannerly where
  beforeTool call toolName arguments message heq := by cases heq
  afterTool call toolName result id heq := heq

namespace AgentMiddlewareChain

/-- All of the chain do. -/
def Mannerly (chain : AgentMiddlewareChain X) : Prop := ∀ mw ∈ chain.middlewares, mw.Mannerly

/-- The first action is one of a hook. -/
theorem exists_of_firstAction {hook : HookCall X → AgentMiddleware X → MiddlewareAction}
    {call : ℕ → HookCall X} {middlewares : List (AgentMiddleware X)} {message : Message}
    (h : firstAction hook call middlewares = .shortCircuit message) :
    ∃ mw ∈ middlewares, ∃ c, hook c mw = .shortCircuit message := by
  induction middlewares generalizing call with
  | nil => cases h
  | cons mw middlewares ih =>
    rw [firstAction] at h
    split at h
    · obtain ⟨mw', hmw', hc⟩ := ih h
      exact ⟨mw', List.mem_cons_of_mem _ hmw', hc⟩
    · rename_i hc
      exact ⟨mw, List.mem_cons_self, call 0, hc.trans h⟩

variable {chain : AgentMiddlewareChain X}

/-- A veto is an answer. -/
theorem Mannerly.firstVeto (h : chain.Mannerly) {beforeTool : ℕ → ℕ → HookCall X} {calls : List ToolCall}
    {message : Message} (hveto : firstVeto chain beforeTool calls = .shortCircuit message) :
    ∃ id, message.kind = .answers id := by
  induction calls generalizing beforeTool with
  | nil => cases hveto
  | cons call calls ih =>
    rw [Juncture.firstVeto] at hveto
    split at hveto
    · exact ih hveto
    · rename_i hc
      obtain ⟨mw, hmw, c, hhook⟩ := exists_of_firstAction (hc.trans hveto)
      exact (h mw hmw).beforeTool c _ _ _ hhook

/-- The results stay answers to their calls. -/
theorem Mannerly.runAfterTool (h : chain.Mannerly) {call : ℕ → HookCall X} {toolName id : String}
    {result : Message} (hresult : result.kind = .answers id) :
    (chain.runAfterTool call toolName result).kind = .answers id :=
  chain.passBack_induction (P := fun m => m.kind = .answers id)
    (fun mw hmw c m hm => (h mw hmw).afterTool c toolName m id hm) call hresult

end AgentMiddlewareChain

/-! ### Calls and their answers -/

namespace MiddlewareRun

variable {M W σ : Type} [ToolModel M] [MessagesSerde] {run : MiddlewareRun X M W σ} {n : ℕ}
  {state : MessagesState} {messages : List Message}

/-- What the chain says to the calls of a message in superstep `n`. -/
def veto (run : MiddlewareRun X M W σ) (n : ℕ) (ask : Message) : MiddlewareAction :=
  firstVeto run.config.middleware (run.turns n).agent.beforeTool ask.toolCalls

/-- What a run gets from outside. -/
structure Proper (run : MiddlewareRun X M W σ) : Prop extends run.talk.Proper where
  /-- The tools that are run complete in some order. -/
  joined : ∀ n state messages ask, run.talk.Adds n state messages → n % 2 = 1 →
    state.messages.getLast? = some ask → run.veto n ask = .proceed →
    (run.turns n).agent.joined.Perm ((ToolNode.new run.tools).spawned ask)

/-- What the tools answer in superstep `n`. -/
def results (run : MiddlewareRun X M W σ) (n : ℕ) (state : MessagesState) (ask : Message) : List Message :=
  ((ToolNode.new run.tools : ToolNode MessagesState W).answers (some state) (run.turns n).agent.world ask
    (run.turns n).agent.joined).zipIdx.map fun ((_, id, content), i) =>
      Message.toolResult ((run.turns n).agent.newId i) id content

/-- The calls of a message are answered in superstep `n`: those of its tools that are run keep their
identifiers, or they are not run, and what is said instead answers the only call. -/
def KeepsCalls (run : MiddlewareRun X M W σ) (n : ℕ) (state : MessagesState) (ask : Message) : Prop :=
  match run.veto n ask with
  | .shortCircuit message => ∃ call, ask.toolCalls = [call] ∧ message.kind = .answers call.id
  | .proceed => ∀ p ∈ ask.toolCalls.zipIdx, (ToolNode.new run.tools : ToolNode MessagesState W).KeepsId
    (some state) ((run.turns n).agent.world p.2) p.1

/-- The model adds one message, or a hook in its place. -/
theorem update_agent {update : MessagesStateUpdate} (h : (run.speakers n).agent state = .ok update) :
    ∃ m, update = { messages := some [m] } := by
  simp only [speakers, middlewareSpeakers, middlewareAgent] at h
  split at h
  · cases h
    exact ⟨_, rfl⟩
  · split at h
    · cases h
    · cases h
      exact ⟨_, rfl⟩

/-- What the tools do is an update with messages. -/
theorem exists_messages {update : MessagesStateUpdate} (h : (run.speakers n).tools state = .ok update) :
    ∃ messages, update = { messages := some messages } := by
  simp only [speakers, middlewareSpeakers, middlewareTools] at h
  split at h
  · cases h
    exact ⟨_, rfl⟩
  · split at h
    · cases h
    · cases h
      exact ⟨_, rfl⟩

theorem Proper.speaks (h : run.Proper) : run.talk.Speaks where
  adds n state update _ _ hupdate := by
    obtain heven | hodd := Nat.mod_two_eq_zero_or_one n
    · rw [Speakers.speaker_even heven] at hupdate
      obtain ⟨m, rfl⟩ := update_agent hupdate
      exact ⟨[m], rfl⟩
    · rw [Speakers.speaker_odd hodd] at hupdate
      exact exists_messages hupdate
  fresh := h.fresh
  agent n state messages hadds heven := by
    have hupdate := hadds.2.2
    rw [Speakers.speaker_even heven] at hupdate
    obtain ⟨m, hm⟩ := update_agent hupdate
    obtain rfl : messages = [m] := Option.some.inj (congrArg MessagesStateUpdate.messages hm)
    exact ⟨m, rfl, h.ai n state _ hadds heven m List.mem_cons_self⟩

/-- **What is said when it is the turn of the tools**: a veto, or what the hooks make of the answers. -/
theorem Proper.answers (h : run.Proper) (hodd : n % 2 = 1) (hadds : run.talk.Adds n state messages) :
    ∃ ask : Message, state.messages.getLast? = some ask ∧ ask.role = .ai ∧ ask.hasToolCalls = true ∧
      messages = match run.veto n ask with
        | .shortCircuit message => [message]
        | .proceed => (run.results n state ask).zipIdx.map fun (message, i) =>
          run.config.middleware.runAfterTool ((run.turns n).agent.afterTool i)
            (message.toolCallId.getD "unknown") message := by
  obtain ⟨ask, hlast, hrole, hcalls⟩ := hadds.exists_caller h.speaks hodd
  refine ⟨ask, hlast, hrole, hcalls, ?_⟩
  have hupdate := hadds.2.2
  rw [Speakers.speaker_odd hodd] at hupdate
  have hlastCalls : lastCalls state = ask.toolCalls := by
    rw [lastCalls, hlast]
    rfl
  simp only [talk, speakers, middlewareSpeakers, middlewareTools, hlastCalls,
    ToolNode.executeWithState_new hlast hrole hcalls] at hupdate
  rw [veto]
  cases hveto : firstVeto run.config.middleware (run.turns n).agent.beforeTool ask.toolCalls with
  | shortCircuit message =>
    rw [hveto] at hupdate
    cases hupdate
    rfl
  | proceed =>
    rw [hveto] at hupdate
    cases hupdate
    rfl

omit [MessagesSerde] in
/-- What the hooks make of answers are the same answers. -/
theorem kind_runAfterTool {chain : AgentMiddlewareChain X} (hchain : chain.Mannerly)
    (afterTool : ℕ → ℕ → HookCall X) {results : List Message} {ids : List String}
    (h : results.map Message.kind = ids.map .answers) :
    (results.zipIdx.map fun (message, i) => chain.runAfterTool (afterTool i)
      (message.toolCallId.getD "unknown") message).map Message.kind = ids.map .answers := by
  rw [← h, List.map_map]
  conv_rhs => rw [← List.zipIdx_map_fst 0 results, List.map_map]
  refine List.map_congr_left fun p hp => ?_
  have hmem : p.1.kind ∈ ids.map Dialogue.Kind.answers :=
    h ▸ List.mem_map_of_mem (List.fst_mem_of_mem_zipIdx hp)
  obtain ⟨id, -, hid⟩ := List.mem_map.1 hmem
  exact (hchain.runAfterTool hid.symm).trans hid

/-- The identifiers of the answers. -/
theorem Proper.kinds (h : run.Proper) (hchain : run.config.middleware.Mannerly) (hodd : n % 2 = 1)
    (hadds : run.talk.Adds n state messages) : ∃ (ask : Message) (ids : List String),
      state.messages.getLast? = some ask ∧ messages.map Message.kind = ids.map .answers ∧
        (ids.Perm (ask.toolCalls.map ToolCall.id) ↔ run.KeepsCalls n state ask) := by
  obtain ⟨ask, hlast, -, hcalls, hmessages⟩ := h.answers hodd hadds
  cases hveto : run.veto n ask with
  | shortCircuit message =>
    rw [hveto] at hmessages
    obtain ⟨id, hid⟩ := hchain.firstVeto hveto
    refine ⟨ask, [id], hlast, ?_, ?_⟩
    · rw [hmessages, List.map_singleton, hid, List.map_singleton]
    · simp only [KeepsCalls, hveto, hid, Dialogue.Kind.answers.injEq]
      rw [List.singleton_perm, eq_comm, List.map_eq_singleton_iff]
      exact exists_congr fun call => and_congr_right fun _ => eq_comm
  | proceed =>
    rw [hveto] at hmessages
    have hids := ToolNode.answers_perm_iff rfl (some state) (run.turns n).agent.world ask
      (h.joined n state messages ask hadds hodd hlast hveto)
    refine ⟨ask, _, hlast, ?_, hids.trans ?_⟩
    · rw [hmessages]
      exact kind_runAfterTool hchain _ (ToolNode.kind_results _ _)
    · simp only [KeepsCalls, hveto]

theorem Proper.keepsParts (h : run.Proper) (hchain : run.config.middleware.Mannerly) :
    run.talk.KeepsParts where
  toSpeaks := h.speaks
  tools n state messages hadds hodd := by
    obtain ⟨ask, ids, -, hkind, -⟩ := h.kinds hchain hodd hadds
    exact ⟨ids, hkind⟩

variable [InterruptHash] {l : PregelLoop MessagesState σ}

omit [InterruptHash] in
/-- A call of the graph opens a conversation. -/
theorem opens_of_starts {g : CompiledGraph MessagesState σ} {round : MiddlewareRound X M W}
    {call : InvokeCall MessagesState σ}
    (hg : createAgentWithMiddleware run.model run.tools run.config round = .ok g)
    (hstart : g.Starts call run.start) : Talk.Opens run.start := by
  rw [createAgentWithMiddleware_eq] at hg
  cases hg
  generalize run.start = start at hstart
  cases hstart with
  | invoke => exact ⟨⟨rfl, rfl, rfl, rfl, rfl, rfl, rfl⟩, _, rfl⟩
  | stream => exact ⟨⟨rfl, rfl, rfl, rfl, rfl, rfl, rfl⟩, _, rfl⟩
  | executeWithEmitter => exact ⟨⟨rfl, rfl, rfl, rfl, rfl, rfl, rfl⟩, _, rfl⟩

/-- **Vetoes leave calls open.**  All calls are answered before each call of the model and at the end if and
only if this was so before the run, no call of it has lost its identifier, and no hook has kept the tools
from answering more than one call, or another one. -/
theorem vetoesLeaveOpen_iff (run : MiddlewareRun X M W σ) {g : CompiledGraph MessagesState σ}
    {round : MiddlewareRound X M W} {call : InvokeCall MessagesState σ}
    (hg : createAgentWithMiddleware run.model run.tools run.config round = .ok g)
    (hstart : g.Starts call run.start) (hproper : run.Proper)
    (hchain : run.config.middleware.Mannerly) (h : run.talk.head n = some l) :
    Dialogue.read Message.kind [] l.state.messages = some (Talk.calls n l.state) ↔
      Dialogue.read Message.kind [] run.start.state.messages = some [] ∧
        ∀ m < n, m % 2 = 1 → ∀ k ask, run.talk.head m = some k →
          k.state.messages.getLast? = some ask → run.KeepsCalls m k.state ask := by
  have htranscript : ∀ {n l}, run.talk.head n = some l → run.talk.transcript n = some l.state :=
    fun hn => (Talk.transcript_head (opens_of_starts hg hstart) hn).1
  rw [Talk.read_messages_iff (hproper.keepsParts hchain) (htranscript h)]
  refine and_congr_right fun _ => forall₃_congr fun m hm hodd => ?_
  -- the tools have answered in superstep `m`, or a hook
  obtain ⟨k, hk⟩ := Machine.exists_of_le h hm.le
  obtain ⟨k', hk'⟩ := Machine.exists_of_le h (Nat.succ_le_of_lt hm)
  obtain ⟨state, messages, hadds, -⟩ := Talk.adds_of_succ hproper.speaks (htranscript hk')
  obtain rfl : k.state = state := Option.some.inj ((htranscript hk).symm.trans hadds.1)
  obtain ⟨ask, ids, hlast, hkind, hkeeps⟩ := hproper.kinds hchain hodd hadds
  rw [Talk.answers_iff hadds hlast hkind, hkeeps]
  constructor
  · intro hcalls k₁ ask₁ hk₁ hlast₁
    obtain rfl : k = k₁ := Option.some.inj (hk.symm.trans hk₁)
    obtain rfl : ask = ask₁ := Option.some.inj (hlast.symm.trans hlast₁)
    exact hcalls
  · exact fun hcalls => hcalls k ask hk hlast

end MiddlewareRun

/-! ### A guard -/

/-- A guard that lets no tool be run. -/
def guard : AgentMiddleware Unit where
  beforeTool call _ _ := .shortCircuit (.toolResult call.newId "call_1" "Not allowed")

theorem mannerly_guard : guard.Mannerly where
  beforeTool call toolName arguments message heq := by
    cases heq
    exact ⟨"call_1", rfl⟩
  afterTool call toolName result id heq := heq

/-- With the guard. -/
def vetoedRun : MiddlewareRun Unit ScriptedModel Unit Unit := guardedRun ⟨[guard]⟩ twoCalls

/-- What is said in it. -/
def vetoedScript : List Message :=
  [twoCalls 0, .toolResult "veto" "call_1" "Not allowed", twoCalls 1]

theorem adds_vetoedRun {n : ℕ} {state : MessagesState} {messages : List Message}
    (h : vetoedRun.talk.Adds n state messages) :
    n < 3 ∧ state = { messages := vetoedScript.take n } ∧ messages = (vetoedScript.drop n).take 1 := by
  obtain _ | _ | _ | _ | n := n
  · exact ⟨by omega, h.unique ⟨rfl, by decide, rfl⟩⟩
  · exact ⟨by omega, h.unique ⟨rfl, by decide, rfl⟩⟩
  · exact ⟨by omega, h.unique ⟨rfl, by decide, rfl⟩⟩
  · have hlast : vetoedRun.talk.transcript 3 = some { messages := vetoedScript } := rfl
    obtain rfl := Option.some.inj (hlast.symm.trans h.1)
    exact absurd rfl h.2.1
  · have hnone : vetoedRun.talk.transcript (n + 4) = none :=
      Machine.trace_eq_none_of_lt (n := 3) rfl rfl (by omega)
    exact nomatch hnone.symm.trans h.1

theorem proper_vetoedRun : vetoedRun.Proper where
  fresh n state messages h := by
    obtain ⟨hn, rfl, rfl⟩ := adds_vetoedRun h
    clear h
    revert n
    decide
  ai n state messages h heven m hm := by
    obtain ⟨hn, rfl, rfl⟩ := adds_vetoedRun h
    have hrole : ∀ n < 3, n % 2 = 0 → ∀ m ∈ (vetoedScript.drop n).take 1, m.role = .ai := by decide
    exact hrole n hn heven m hm
  joined n state messages ask h hodd hlast hveto := by
    obtain ⟨hn, rfl, -⟩ := adds_vetoedRun h
    obtain rfl : n = 1 := by omega
    obtain rfl := Option.some.inj hlast
    cases hveto

/-- One call is answered by the guard, and the model is asked again with the other one open. -/
theorem vetoesLeaveOpen_iff_vetoedRun : ∃ l, vetoedRun.talk.head 2 = some l ∧
    l.state.messages = vetoedScript.take 2 ∧
    Dialogue.read Message.kind [] l.state.messages ≠ some (Talk.calls 2 l.state) := by
  obtain ⟨l, hl⟩ : ∃ l, vetoedRun.talk.head 2 = some l := Option.isSome_iff_exists.1 (by decide +kernel)
  have hmessages : l.state.messages = vetoedScript.take 2 := by
    have heq : (vetoedRun.talk.head 2).map (fun l => l.state.messages) = some (vetoedScript.take 2) := rfl
    rw [hl] at heq
    exact Option.some.inj heq
  refine ⟨l, hl, hmessages, fun hread => ?_⟩
  have hkeeps := ((MiddlewareRun.vetoesLeaveOpen_iff vetoedRun
    (createAgentWithMiddleware_eq ⟨⟩ [echoTool] (guardedConfig ⟨[guard]⟩)
      (guardedRound 0 (callMessage "echo")))
    (.invoke : (guardedGraph ⟨[guard]⟩).Starts emptyCall _) proper_vetoedRun
    (fun mw hmw => List.mem_singleton.1 hmw ▸ mannerly_guard) hl).1 hread).2
  obtain ⟨k, hk⟩ : ∃ k, vetoedRun.talk.head 1 = some k := Option.isSome_iff_exists.1 (by decide +kernel)
  have hlast : k.state.messages.getLast? = some (twoCalls 0) := by
    have heq : (vetoedRun.talk.head 1).map (fun l => l.state.messages.getLast?) =
        some (some (twoCalls 0)) := rfl
    rw [hk] at heq
    exact Option.some.inj heq
  obtain ⟨call, hcall, -⟩ := hkeeps 1 (by omega) rfl k _ hk hlast
  cases hcall

end Juncture
