import Juncture.Lib.Shuffle
import Juncture.Tools.Answers

/-!
# The events of tools

Each call that is run sends an event when it starts and one when it has ended, into one stream for all
calls.  But a call can end without the second event: when the interceptor keeps the tool from running, when
a stateful tool has no state, and when something panics; and when errors are not handled, the first one
aborts all calls that are still waiting.

* `ToolNode.Sends` : what the calls of a batch send.
* `ToolNode.ReportsEach` : each start is followed by exactly one end with the same identifier.
* `ToolNode.reportsEach_iff` : for which batches this is so.
-/

namespace Juncture

namespace ToolsEvent

/-- The call that is started. -/
def starts : ToolsEvent → Option String
  | toolStarted _ toolCallId _ _ => some toolCallId
  | toolFinished .. => none

/-- The call that has ended, and whether it was a success. -/
def finishes : ToolsEvent → Option (String × Bool)
  | toolStarted .. => none
  | toolFinished toolCallId _ success => some (toolCallId, success)

end ToolsEvent

/-- What a node is called with, and what its calls meet. -/
structure Batch (S W : Type) where
  /-- Messages. -/
  messages : List Message
  /-- State, if there is one. -/
  state : Option S
  /-- The world that a call meets. -/
  world : ℕ → W
  /-- The task of a call is suspended before it has ended. -/
  waits : ℕ → Bool

namespace ToolNode

variable {S W : Type} (node : ToolNode S W)

/-- The message whose tools are run. -/
def answered (messages : List Message) : Option Message :=
  (lastAi messages).filter fun ai => !ai.toolCalls.isEmpty && node.admits ai

/-- The calls of a message that are run: if errors are not handled, none after one that fails early. -/
def launchedOf (ai : Message) : List (ℕ × SpawnedCall S W) :=
  (if node.handleErrors then node.prepared ai
    else (node.prepared ai).takeWhile fun p => p.2.isOk).filterMap fun (i, p) =>
      match p with
      | .ok call => some (i, call)
      | .error _ => none

/-- The calls that are run. -/
def launched (messages : List Message) : List (ℕ × SpawnedCall S W) :=
  match node.answered messages with
  | some ai => node.launchedOf ai
  | none => []

/-- A call fails before it is run. -/
def FailsEarly (messages : List Message) : Prop :=
  ∃ ai, node.answered messages = some ai ∧ node.early ai ≠ []

/-- What a call sends if it is not aborted. -/
def eventsOf (state : Option S) (w : W) (call : SpawnedCall S W) : List ToolsEvent :=
  (executeSingleTool w call.toolCall call.tool (node.interceptor.getD (nopToolInterceptor W)) state).1

variable (b : Batch S W)

/-- The same by the position of the call. -/
def trace (i : ℕ) : List ToolsEvent :=
  match (node.launched b.messages).lookup i with
  | some call => node.eventsOf b.state (b.world i) call
  | none => []

/-- The call at a position has a successful result. -/
def succeeds (i : ℕ) : Bool :=
  match (node.launched b.messages).lookup i with
  | some call => (node.result b.state (b.world i) call).isOk
  | none => false

/-- What the calls send in a run.  If errors are not handled, the first one, of a call that fails early or of
one that has ended, aborts the others: they have ended by then, have not started, or are waiting. -/
inductive Sends : (ℕ → List ToolsEvent) → Prop
  | complete : Sends (node.trace b)
  | aborted (traces : ℕ → List ToolsEvent) (hhandle : node.handleErrors = false)
      (hstop : node.FailsEarly b.messages ∨ ∃ i call, (i, call) ∈ node.launched b.messages ∧
        node.succeeds b i = false ∧ traces i = node.trace b i)
      (hcut : ∀ i, traces i = node.trace b i ∨ traces i = [] ∨
        b.waits i = true ∧ traces i = (node.trace b i).take 1) : Sends traces

/-- In the stream, in whatever order it comes, each start is followed by exactly one end with its
identifier, a success exactly if the call has a successful result. -/
def ReportsEach : Prop :=
  ∀ traces stream, node.Sends b traces → Shuffle.Merges traces stream →
    Shuffle.Paired ToolsEvent.starts ToolsEvent.finishes (node.succeeds b) stream

/-- A call gets to its end: the interceptor lets the tool run, the tool has the state it needs, and neither
panics. -/
def Ends (state : Option S) (w : W) (call : SpawnedCall S W) : Prop :=
  (node.interceptor.getD (nopToolInterceptor W)).preExecute w call.toolCall .null = .ok () ∧
    ∃ r, call.tool.run w call.toolCall state = .ok r ∧ ∀ joinErr,
      (node.interceptor.getD (nopToolInterceptor W)).postExecute w call.toolCall r ≠
        .error (.panic joinErr)

/-- What a batch needs for its events to come in pairs. -/
structure Closes : Prop where
  /-- All calls get to their ends. -/
  ends : ∀ i call, (i, call) ∈ node.launched b.messages → node.Ends b.state (b.world i) call
  /-- Their identifiers are different. -/
  distinct : ((node.launched b.messages).map fun x => x.2.toolCall.id).Nodup
  /-- If errors are not handled, none comes from elsewhere while a call is waiting. -/
  uncut : node.handleErrors = false → ∀ i call, (i, call) ∈ node.launched b.messages →
    b.waits i = true → ¬ node.FailsEarly b.messages ∧ ∀ j call', (j, call') ∈ node.launched b.messages →
      j ≠ i → node.succeeds b j = true

/-! ### One call -/

variable {node b} {state : Option S} {w : W} {call : SpawnedCall S W}

/-- A call that gets to its end sends a pair. -/
theorem eventsOf_of_ends (h : node.Ends state w call) : ∃ start finish,
    node.eventsOf state w call = [start, finish] ∧
      Shuffle.IsPair ToolsEvent.starts ToolsEvent.finishes call.toolCall.id
        (node.result state w call).isOk start finish := by
  obtain ⟨hpre, r, hrun, hpost⟩ := h
  simp only [eventsOf, result, executeSingleTool, hpre, hrun]
  split
  · exact ⟨_, _, rfl, rfl, rfl, rfl, rfl⟩
  · exact ⟨_, _, rfl, rfl, rfl, rfl, rfl⟩
  · rename_i joinErr hpanic
    exact absurd hpanic (hpost joinErr)

/-- A call that does not sends its start only. -/
theorem eventsOf_of_not_ends (h : ¬ node.Ends state w call) :
    ∃ start, node.eventsOf state w call = [start] ∧ start.starts = some call.toolCall.id := by
  simp only [eventsOf, executeSingleTool]
  split
  · exact ⟨_, rfl, rfl⟩
  · rename_i hpre
    split
    · exact ⟨_, rfl, rfl⟩
    · rename_i r hrun
      split
      · rename_i out hpost
        exact absurd ⟨hpre, r, hrun, fun joinErr => by simp [hpost]⟩ h
      · rename_i e hpost
        exact absurd ⟨hpre, r, hrun, fun joinErr => by simp [hpost]⟩ h
      · exact ⟨_, rfl, rfl⟩

/-- Either way it sends its start first. -/
theorem take_one_eventsOf (node : ToolNode S W) (state : Option S) (w : W) (call : SpawnedCall S W) :
    ∃ start, (node.eventsOf state w call).take 1 = [start] ∧ start.starts = some call.toolCall.id := by
  by_cases h : node.Ends state w call
  · obtain ⟨start, finish, hevents, hpair⟩ := eventsOf_of_ends h
    exact ⟨start, by rw [hevents]; rfl, hpair.starts_start⟩
  · obtain ⟨start, hevents, hstart⟩ := eventsOf_of_not_ends h
    exact ⟨start, by rw [hevents]; rfl, hstart⟩

/-! ### The calls of a batch -/

theorem launchedOf_sublist (ai : Message) : (node.launchedOf ai).Sublist (node.spawned ai) := by
  unfold launchedOf spawned
  split
  · exact .refl _
  · exact (List.takeWhile_sublist _).filterMap _

theorem nodup_launched (node : ToolNode S W) (messages : List Message) :
    ((node.launched messages).map Prod.fst).Nodup := by
  unfold launched
  split
  · rename_i ai _
    exact (pairwise_spawned ai).imp Nat.ne_of_lt |>.sublist ((launchedOf_sublist ai).map _)
  · exact List.nodup_nil

variable {i j : ℕ} {call' : SpawnedCall S W}

theorem lookup_launched (h : (i, call) ∈ node.launched b.messages) :
    (node.launched b.messages).lookup i = some call := by
  obtain ⟨front, back, hsplit⟩ := List.append_of_mem h
  have hnodup := nodup_launched node b.messages
  rw [hsplit] at hnodup ⊢
  rw [List.map_append, List.map_cons, List.nodup_append] at hnodup
  refine List.lookup_eq_some_iff.2 ⟨front, back, rfl, fun p hp => ?_⟩
  have hne := hnodup.2.2 p.1 (List.mem_map_of_mem hp) i List.mem_cons_self
  exact bne_iff_ne.2 fun h => hne h.symm

theorem trace_of_mem (h : (i, call) ∈ node.launched b.messages) :
    node.trace b i = node.eventsOf b.state (b.world i) call := by
  simp only [trace, lookup_launched h]

theorem succeeds_of_mem (h : (i, call) ∈ node.launched b.messages) :
    node.succeeds b i = (node.result b.state (b.world i) call).isOk := by
  simp only [succeeds, lookup_launched h]

/-- Who sends something is run. -/
theorem exists_launched (h : node.trace b i ≠ []) : ∃ call, (i, call) ∈ node.launched b.messages := by
  unfold trace at h
  split at h
  · rename_i call hlookup
    obtain ⟨front, back, hsplit, -⟩ := List.lookup_eq_some_iff.1 hlookup
    exact ⟨call, by rw [hsplit]; exact List.mem_append_right _ List.mem_cons_self⟩
  · exact absurd rfl h

/-- What a call sends is a beginning of what it would send. -/
theorem Sends.eq_nil {traces : ℕ → List ToolsEvent} (h : node.Sends b traces)
    (hnil : node.trace b i = []) : traces i = [] := by
  cases h with
  | complete => exact hnil
  | aborted _ _ _ hcut =>
    obtain h | h | ⟨-, h⟩ := hcut i
    · rw [h, hnil]
    · exact h
    · rw [h, hnil]
      rfl

theorem Sends.mem_positions {traces : ℕ → List ToolsEvent} (h : node.Sends b traces)
    (hi : traces i ≠ []) : i ∈ (node.launched b.messages).map Prod.fst := by
  obtain ⟨call, hcall⟩ := exists_launched fun hnil => hi (h.eq_nil hnil)
  exact List.mem_map_of_mem hcall

/-- In a batch that closes, a call sends everything or nothing. -/
theorem Closes.eq_trace_or_nil (hcloses : node.Closes b) {traces : ℕ → List ToolsEvent}
    (h : node.Sends b traces) (hcall : (i, call) ∈ node.launched b.messages) :
    traces i = node.trace b i ∨ traces i = [] := by
  cases h with
  | complete => exact .inl rfl
  | aborted _ hhandle hstop hcut =>
    obtain hall | hnone | ⟨hwaits, -⟩ := hcut i
    · exact .inl hall
    · exact .inr hnone
    · -- what stops the others is the call itself
      obtain ⟨hearly, hothers⟩ := hcloses.uncut hhandle i call hcall hwaits
      obtain hstop | ⟨j, call', hcall', hfails, htrace⟩ := hstop
      · exact absurd hstop hearly
      · by_cases hji : j = i
        · exact .inl (hji ▸ htrace)
        · rw [hothers j call' hcall' hji] at hfails
          cases hfails

/-! ### All streams -/

theorem Closes.reportsEach (hcloses : node.Closes b) : node.ReportsEach b := by
  intro traces stream hsends hmerges
  let key : ℕ → String := fun i =>
    (((node.launched b.messages).lookup i).map fun call => call.toolCall.id).getD ""
  have hkey : ∀ {i call}, (i, call) ∈ node.launched b.messages → key i = call.toolCall.id := by
    intro i call hcall
    simp only [key, lookup_launched hcall, Option.map_some, Option.getD_some]
  have hlaunched : ∀ {i}, traces i ≠ [] → ∃ call, (i, call) ∈ node.launched b.messages :=
    fun hi => exists_launched fun hnil => hi (hsends.eq_nil hnil)
  refine Shuffle.paired_of_merges key hmerges (fun i => ?_) fun i j hi hj hsame => ?_
  · by_cases hi : traces i = []
    · exact .inl hi
    · obtain ⟨call, hcall⟩ := hlaunched hi
      obtain ⟨start, finish, hevents, hpair⟩ := eventsOf_of_ends (hcloses.ends i call hcall)
      obtain htrace | hnil := hcloses.eq_trace_or_nil hsends hcall
      · refine .inr ⟨start, finish, htrace.trans ((trace_of_mem hcall).trans hevents), ?_⟩
        rw [hkey hcall, succeeds_of_mem hcall]
        exact hpair
      · exact .inl hnil
  · obtain ⟨call, hcall⟩ := hlaunched hi
    obtain ⟨call', hcall'⟩ := hlaunched hj
    rw [hkey hcall, hkey hcall'] at hsame
    exact congrArg Prod.fst (List.inj_on_of_nodup_map hcloses.distinct hcall hcall' hsame)

/-- The calls can send their events one after the other, with some of them last. -/
theorem Sends.exists_stream {traces : ℕ → List ToolsEvent} (h : node.Sends b traces) {last : List ℕ}
    (hlast : last.Nodup) :
    ∃ front, Shuffle.Merges traces (front ++ last.flatMap fun j => Shuffle.tagged j (traces j)) :=
  Shuffle.exists_merges_append (nodup_launched node b.messages) (fun _ => h.mem_positions) hlast

/-- Where all starts are ended, no call sends its start only. -/
theorem ReportsEach.ne_singleton (h : node.ReportsEach b) {traces : ℕ → List ToolsEvent}
    (hsends : node.Sends b traces) {start : ToolsEvent} {id : String} (hstart : start.starts = some id) :
    traces i ≠ [start] := by
  intro htrace
  obtain ⟨front, hmerges⟩ := hsends.exists_stream (List.nodup_singleton i)
  rw [List.flatMap_singleton, htrace] at hmerges
  exact Shuffle.not_paired_single hstart (h traces _ hsends hmerges)

theorem ReportsEach.ends (h : node.ReportsEach b) (hcall : (i, call) ∈ node.launched b.messages) :
    node.Ends b.state (b.world i) call := by
  by_contra hends
  obtain ⟨start, hevents, hstart⟩ := eventsOf_of_not_ends hends
  exact h.ne_singleton .complete hstart ((trace_of_mem hcall).trans hevents)

theorem ReportsEach.distinct (h : node.ReportsEach b) :
    ((node.launched b.messages).map fun x => x.2.toolCall.id).Nodup := by
  refine List.pairwise_map.2 ((List.pairwise_map.1 (nodup_launched node b.messages)).imp_of_mem ?_)
  rintro ⟨i, call⟩ ⟨j, call'⟩ hcall hcall' (hne : i ≠ j) (hid : call.toolCall.id = call'.toolCall.id)
  obtain ⟨start, finish, hevents, hpair⟩ := eventsOf_of_ends (h.ends hcall)
  obtain ⟨start', finish', hevents', hpair'⟩ := eventsOf_of_ends (h.ends hcall')
  -- the stream in which these two calls come last
  have hlast : [i, j].Nodup := by simpa using hne
  obtain ⟨front, hmerges⟩ := (Sends.complete : node.Sends b (node.trace b)).exists_stream hlast
  rw [List.flatMap_cons, List.flatMap_singleton, trace_of_mem hcall, trace_of_mem hcall', hevents,
    hevents'] at hmerges
  rw [← hid] at hpair'
  exact Shuffle.not_paired_same hpair hpair' (h _ _ .complete hmerges)

theorem ReportsEach.uncut (h : node.ReportsEach b) (hhandle : node.handleErrors = false)
    (hcall : (i, call) ∈ node.launched b.messages) (hwaits : b.waits i = true) :
    ¬ node.FailsEarly b.messages ∧ ∀ j call', (j, call') ∈ node.launched b.messages → j ≠ i →
      node.succeeds b j = true := by
  -- the run in which the call alone is aborted, while it is waiting
  let traces : ℕ → List ToolsEvent := fun j =>
    if j = i then (node.trace b i).take 1 else node.trace b j
  have hcut : ∀ j, traces j = node.trace b j ∨ traces j = [] ∨
      b.waits j = true ∧ traces j = (node.trace b j).take 1 := by
    intro j
    by_cases hji : j = i
    · subst hji
      exact .inr (.inr ⟨hwaits, if_pos rfl⟩)
    · exact .inl (if_neg hji)
  obtain ⟨start, hevents, hstart⟩ := take_one_eventsOf node b.state (b.world i) call
  have htrace : traces i = [start] := by
    rw [← hevents, ← trace_of_mem hcall]
    exact if_pos rfl
  constructor
  · intro hearly
    exact h.ne_singleton (.aborted traces hhandle (.inl hearly) hcut) hstart htrace
  · intro j call' hcall' hji
    by_contra hfails
    exact h.ne_singleton (.aborted traces hhandle
      (.inr ⟨j, call', hcall', Bool.eq_false_of_not_eq_true hfails, if_neg hji⟩) hcut) hstart htrace

/-- **Events.**  Each start is followed by exactly one end with its identifier, a success exactly if the
call has a successful result, in every stream that can come out, if and only if all calls get to their ends,
have different identifiers, and are not aborted while they wait. -/
theorem reportsEach_iff (node : ToolNode S W) (b : Batch S W) : node.ReportsEach b ↔ node.Closes b :=
  ⟨fun h => ⟨fun _ _ => h.ends, h.distinct, fun hhandle _ _ => h.uncut hhandle⟩, Closes.reportsEach⟩

/-! ### A call that is kept from running -/

/-- A node whose interceptor keeps all tools from running. -/
def guardedNode : ToolNode Unit Unit where
  tools := Dict.ofList [("delete", .stateless ⟨"delete", .null, fun _ _ => .ok "deleted"⟩)]
  interceptor := some
    { nopToolInterceptor Unit with preExecute := fun _ _ _ => .error (.err (.intercepted "not allowed")) }

/-- One call of its tool. -/
def guardedBatch : Batch Unit Unit where
  messages := [callMessage "delete"]
  state := none
  world _ := ()
  waits _ := false

/-- It starts and has no end. -/
theorem guarded_not_reportsEach : ¬ guardedNode.ReportsEach guardedBatch := by
  intro h
  have htrace : guardedNode.trace guardedBatch 0 = [.toolStarted "delete" "call_1" "tools" (.obj [])] := rfl
  exact h.ne_singleton .complete rfl htrace

end ToolNode

end Juncture
