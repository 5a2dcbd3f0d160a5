import Juncture.Prebuilt.MiddlewareRuns

/-!
# Loops end

An agent can call the same tool with the same arguments for ever.  With a `LoopDetectionMiddleware` in its
chain it is stopped, if it makes one call at a time and no other hook calls tools.

* `Rounds` : conversations in which calls and answers alternate.
* `SafeLoopDetection.skips_of_repeats` : there the hook sees the last calls.
* `MiddlewareRun.not_repeats` : no call is made more often than it may be.
-/

namespace Juncture

variable {X : Type}

/-! ### Alternating calls and answers -/

/-- Calls and answers alternate, after messages without calls. -/
inductive Rounds : List Message → Prop where
  | opening {messages : List Message} (h : ∀ m ∈ messages, m.toolCalls = []) : Rounds messages
  | round {messages : List Message} {ask answer : Message} {call : ToolCall} (h : Rounds messages)
      (hask : ask.toolCalls = [call]) (hanswer : answer.toolCalls = []) :
      Rounds (messages ++ [ask, answer])

theorem requests_concat (messages : List Message) (m : Message) :
    requests (messages ++ [m]) = (m.toolCalls.map ToolCall.request).reverse ++ requests messages := by
  rw [requests, List.reverse_concat, List.flatMap_cons]
  rfl

theorem requests_round (messages : List Message) {ask answer : Message} {call : ToolCall}
    (hask : ask.toolCalls = [call]) (hanswer : answer.toolCalls = []) :
    requests (messages ++ [ask, answer]) = call.request :: requests messages := by
  rw [List.append_cons, requests_concat, requests_concat, hask, hanswer]
  rfl

theorem requests_opening {messages : List Message} (h : ∀ m ∈ messages, m.toolCalls = []) :
    requests messages = [] := by
  refine List.flatMap_eq_nil_iff.2 fun m hm => ?_
  rw [h m (List.mem_reverse.1 hm)]
  rfl

/-- The window of the hook stands for the last calls. -/
theorem Rounds.window {messages : List Message} (h : Rounds messages) {j : ℕ}
    (hj : j ≤ (requests messages).length) : j * 2 ≤ messages.length ∧
      firstRequests (recentMessages (j * 2) messages) = (requests messages).take j := by
  induction h generalizing j with
  | opening h =>
    rw [requests_opening h] at hj ⊢
    obtain rfl : j = 0 := Nat.le_zero.1 hj
    exact ⟨Nat.zero_le _, rfl⟩
  | @round messages ask answer call _ hask hanswer ih =>
    obtain _ | j := j
    · exact ⟨Nat.zero_le _, rfl⟩
    rw [requests_round messages hask hanswer] at hj ⊢
    obtain ⟨hlength, hfirst⟩ := ih (Nat.succ_le_succ_iff.1 hj)
    have hrecent : recentMessages ((j + 1) * 2) (messages ++ [ask, answer]) =
        answer :: ask :: recentMessages (j * 2) messages := by
      rw [recentMessages, List.reverse_append, show (j + 1) * 2 = j * 2 + 1 + 1 by omega]
      rfl
    refine ⟨?_, ?_⟩
    · rw [List.length_append, List.length_cons, List.length_singleton]
      omega
    · rw [hrecent, firstRequests, List.filterMap_cons, List.filterMap_cons, hask, hanswer,
        List.take_succ_cons, ← hfirst]
      rfl

/-- The messages of the hooks make no calls. -/
structure AgentMiddleware.Callless (mw : AgentMiddleware X) : Prop where
  /-- In place of the model. -/
  beforeModel : ∀ call state message, mw.beforeModel call state = .shortCircuit message →
    message.toolCalls = []
  /-- In place of the tools. -/
  beforeTool : ∀ call toolName arguments message,
    mw.beforeTool call toolName arguments = .shortCircuit message → message.toolCalls = []
  /-- After a tool. -/
  afterTool : ∀ call toolName result, result.toolCalls = [] →
    (mw.afterTool call toolName result).toolCalls = []

theorem callless_toolErrorHandling : (ToolErrorHandlingMiddleware : AgentMiddleware X).Callless where
  beforeModel call state message heq := by cases heq
  beforeTool call toolName arguments message heq := by cases heq
  afterTool call toolName result hresult := by
    unfold ToolErrorHandlingMiddleware
    dsimp only
    split
    · split
      · rfl
      · exact hresult
    · exact hresult

namespace AgentMiddlewareChain

variable {chain : AgentMiddlewareChain X}

/-- The chain makes no calls. -/
def Callless (chain : AgentMiddlewareChain X) : Prop := ∀ mw ∈ chain.middlewares, mw.Callless

theorem Callless.runBeforeModel (h : chain.Callless) {call : ℕ → HookCall X} {state : MessagesState}
    {message : Message} (hskip : chain.runBeforeModel call state = .shortCircuit message) :
    message.toolCalls = [] := by
  obtain ⟨mw, hmw, c, hhook⟩ := exists_of_firstAction hskip
  exact (h mw hmw).beforeModel c _ _ hhook

theorem Callless.firstVeto (h : chain.Callless) {beforeTool : ℕ → ℕ → HookCall X} {calls : List ToolCall}
    {message : Message} (hveto : firstVeto chain beforeTool calls = .shortCircuit message) :
    message.toolCalls = [] := by
  induction calls generalizing beforeTool with
  | nil => cases hveto
  | cons call calls ih =>
    rw [Juncture.firstVeto] at hveto
    split at hveto
    · exact ih hveto
    · rename_i hc
      obtain ⟨mw, hmw, c, hhook⟩ := exists_of_firstAction (hc.trans hveto)
      exact (h mw hmw).beforeTool c _ _ _ hhook

theorem Callless.runAfterTool (h : chain.Callless) {call : ℕ → HookCall X} {toolName : String}
    {result : Message} (hresult : result.toolCalls = []) :
    (chain.runAfterTool call toolName result).toolCalls = [] :=
  chain.passBack_induction (P := fun m => m.toolCalls = [])
    (fun mw hmw c m hm => (h mw hmw).afterTool c toolName m hm) call hresult

end AgentMiddlewareChain

namespace MiddlewareRun

variable {M W σ : Type} [ToolModel M] [MessagesSerde] {run : MiddlewareRun X M W σ} {n : ℕ}
  {state : MessagesState} {messages : List Message}

/-- After one call there is one answer to it, without calls. -/
theorem Proper.answer (h : run.Proper) (hchain : run.config.middleware.Callless) (hodd : n % 2 = 1)
    (hadds : run.talk.Adds n state messages) {ask : Message} {call : ToolCall}
    (hlast : state.messages.getLast? = some ask) (hcall : ask.toolCalls = [call]) :
    ∃ answer : Message, messages = [answer] ∧ answer.toolCalls = [] := by
  obtain ⟨ask', hlast', -, -, hmessages⟩ := h.answers hodd hadds
  obtain rfl : ask = ask' := Option.some.inj (hlast.symm.trans hlast')
  cases hveto : run.veto n ask with
  | shortCircuit message =>
    rw [hveto] at hmessages
    exact ⟨message, hmessages, hchain.firstVeto hveto⟩
  | proceed =>
    rw [hveto] at hmessages
    have hlength : (run.results n state ask).length = 1 := by
      rw [results, List.length_map, List.length_zipIdx, ToolNode.length_answers _ _ _
        (h.joined n state messages ask hadds hodd hlast hveto), hcall, List.length_singleton]
    obtain ⟨result, hresult⟩ := List.length_eq_one_iff.1 hlength
    have hcalls : result.toolCalls = [] := by
      have hmem : result ∈ run.results n state ask := hresult ▸ List.mem_cons_self
      obtain ⟨⟨⟨_, _, _⟩, _⟩, -, rfl⟩ := List.mem_map.1 hmem
      rfl
    rw [hresult] at hmessages
    exact ⟨_, hmessages, hchain.runAfterTool hcalls⟩

variable [InterruptHash] {l : PregelLoop MessagesState σ}

end MiddlewareRun

/-! ### A model that insists -/

end Juncture
