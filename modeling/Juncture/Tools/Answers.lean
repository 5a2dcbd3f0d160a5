import Juncture.Tools.Node
import Mathlib.Data.List.Sort
import Mathlib.Data.List.Nodup

/-!
# One answer for each tool call

A provider wants one tool message for each call of its last message, with the identifier of the call and
in the order of the calls.  A `ToolNode` answers in the order in which the tools complete, after the
calls that failed before they were run, and a tool that fails is answered with the identifier
`"unknown"`.

* `ToolNode.answersEach_iff` : when a provider gets what it wants, for every order of completion.
-/

namespace Juncture

/-! ### Positions -/

/-- Two parts of a list with increasing keys, one of them in another order, are the whole list again
exactly if the first part comes first and the second is in order. -/
theorem map_append_eq_iff {α β : Type} {l : List ℕ} {as : List α} {bs js : List β} {f : α → ℕ}
    {g : β → ℕ} (hl : l.Pairwise (· < ·)) (hparts : (as.map f ++ bs.map g).Perm l)
    (has : (as.map f).Pairwise (· < ·)) (hbs : (bs.map g).Pairwise (· < ·)) (hjs : js.Perm bs) :
    as.map f ++ js.map g = l ↔ (∀ a ∈ as, ∀ b ∈ bs, f a < g b) ∧ js = bs := by
  constructor
  · intro h
    rw [← h, List.pairwise_append] at hl
    obtain ⟨-, hordered, hfirst⟩ := hl
    refine ⟨fun a ha b hb => hfirst _ (List.mem_map_of_mem ha) _
      (List.mem_map_of_mem (hjs.mem_iff.2 hb)), ?_⟩
    -- both orders of the second part are increasing
    refine List.Perm.eq_of_pairwise (fun x y _ _ (hxy : g x < g y) hyx => ?_)
      (List.pairwise_map.1 hordered) (List.pairwise_map.1 hbs) hjs
    exact absurd (hxy.trans hyx) (lt_irrefl _)
  · rintro ⟨hfirst, rfl⟩
    refine List.Perm.eq_of_pairwise (fun x y _ _ (hxy : x < y) hyx => ?_) ?_ hl hparts
    · exact absurd (hxy.trans hyx) (lt_irrefl _)
    · refine List.pairwise_append.2 ⟨has, hbs, fun x hx y hy => ?_⟩
      obtain ⟨a, ha, rfl⟩ := List.mem_map.1 hx
      obtain ⟨b, hb, rfl⟩ := List.mem_map.1 hy
      exact hfirst a ha b hb

/-- What is picked of a list with its positions has increasing positions. -/
theorem pairwise_filterMap {α β : Type} {f : α × ℕ → Option (ℕ × β)}
    (hf : ∀ p, ∀ a ∈ f p, a.1 = p.2) (xs : List α) :
    ((xs.zipIdx.filterMap f).map Prod.fst).Pairwise (· < ·) := by
  have hordered : xs.zipIdx.Pairwise fun p q => p.2 < q.2 := by
    refine List.pairwise_map.1 ?_
    rw [List.zipIdx_map_snd]
    exact List.pairwise_lt_range'
  refine List.pairwise_map.2 (hordered.filterMap f fun p q hpq a ha b hb => ?_)
  rw [hf p a ha, hf q b hb]
  exact hpq

theorem eq_of_mem_zipIdx {α : Type} {xs : List α} {x y : α} {i : ℕ} (hx : (x, i) ∈ xs.zipIdx)
    (hy : (y, i) ∈ xs.zipIdx) : x = y := by
  rw [List.mem_zipIdx_iff_getElem?] at hx hy
  exact Option.some.inj (hx.symm.trans hy)

namespace ToolNode

variable {S W : Type} (node : ToolNode S W)

/-- One answer for each call, with its identifier and in the order of the calls. -/
def AnswersEach (ai : Message) (answers : List (ℕ × String × String)) : Prop :=
  answers.map (fun (i, id, _) => (i, id)) = ai.toolCalls.zipIdx.map fun (call, i) => (i, call.id)

/-- The node returns such answers. -/
def Answered (newId : ℕ → String) (w : ℕ → W) (joined : List (ℕ × SpawnedCall S W))
    (messages : List Message) (state : Option S) (ai : Message) : Prop :=
  node.executeWithState newId w joined messages state =
      .ok ((node.answers state w ai joined).zipIdx.map fun ((_, id, content), n) =>
        Message.toolResult (newId n) id content) ∧
    AnswersEach ai (node.answers state w ai joined)

/-- The call keeps its identifier: the transformer does not change it, unless the tool is unknown or the
call is run and fails; if it is run and fails, it is called `"unknown"`. -/
def KeepsId (state : Option S) (w : W) (toolCall : ToolCall) : Prop :=
  match node.prepare toolCall with
  | .error (id, _) => id = toolCall.id
  | .ok call =>
    match node.result state w call with
    | .ok _ => call.toolCall.id = toolCall.id
    | .error _ => toolCall.id = "unknown"

/-- What a provider gets its answers under: the tools are not skipped, the calls that fail before they are
run come before all others, these complete in the order of the calls, and all calls keep their
identifiers. -/
structure Orderly (w : ℕ → W) (joined : List (ℕ × SpawnedCall S W)) (state : Option S) (ai : Message) :
    Prop where
  admits : node.admits ai = true
  early_first : ∀ e ∈ node.early ai, ∀ c ∈ node.spawned ai, e.1 < c.1
  joined_eq : joined = node.spawned ai
  keepsId : ∀ p ∈ ai.toolCalls.zipIdx, node.KeepsId state (w p.2) p.1

/-! ### The calls that fail early and the others -/

variable {node}

theorem mem_early {ai : Message} {i : ℕ} {id : String} {e : ToolError} :
    (i, id, e) ∈ node.early ai ↔
      ∃ toolCall, (toolCall, i) ∈ ai.toolCalls.zipIdx ∧ node.prepare toolCall = .error (id, e) := by
  simp only [early, prepared, List.filterMap_map, List.mem_filterMap, Prod.exists, Function.comp_apply]
  constructor
  · rintro ⟨toolCall, j, hmem, h⟩
    cases hprepare : node.prepare toolCall with
    | error p =>
      simp only [hprepare, Option.some.injEq, Prod.mk.injEq] at h
      obtain ⟨rfl, rfl, rfl⟩ := h
      exact ⟨toolCall, hmem, hprepare⟩
    | ok call => simp [hprepare] at h
  · rintro ⟨toolCall, hmem, hprepare⟩
    exact ⟨toolCall, i, hmem, by simp [hprepare]⟩

theorem mem_spawned {ai : Message} {i : ℕ} {call : SpawnedCall S W} :
    (i, call) ∈ node.spawned ai ↔
      ∃ toolCall, (toolCall, i) ∈ ai.toolCalls.zipIdx ∧ node.prepare toolCall = .ok call := by
  simp only [spawned, prepared, List.filterMap_map, List.mem_filterMap, Prod.exists,
    Function.comp_apply]
  constructor
  · rintro ⟨toolCall, j, hmem, h⟩
    cases hprepare : node.prepare toolCall with
    | error p => simp [hprepare] at h
    | ok call' =>
      simp only [hprepare, Option.some.injEq, Prod.mk.injEq] at h
      obtain ⟨rfl, rfl⟩ := h
      exact ⟨toolCall, hmem, hprepare⟩
  · rintro ⟨toolCall, hmem, hprepare⟩
    exact ⟨toolCall, i, hmem, by simp [hprepare]⟩

/-- Each call fails early or is run. -/
theorem early_append_spawned_perm (ai : Message) :
    ((node.early ai).map Prod.fst ++ (node.spawned ai).map Prod.fst).Perm
      (ai.toolCalls.zipIdx.map Prod.snd) := by
  simp only [early, spawned, prepared]
  induction ai.toolCalls.zipIdx with
  | nil => exact .nil
  | cons p ps ih =>
    obtain ⟨toolCall, i⟩ := p
    cases hprepare : node.prepare toolCall with
    | error q =>
      simpa [List.filterMap_cons, hprepare] using ih.cons i
    | ok call =>
      simp only [List.map_cons, List.filterMap_cons, hprepare]
      exact List.perm_middle.trans (ih.cons i)

theorem pairwise_early (ai : Message) : ((node.early ai).map Prod.fst).Pairwise (· < ·) := by
  simp only [early, prepared, List.filterMap_map]
  refine pairwise_filterMap (fun p a ha => ?_) ai.toolCalls
  cases hp : node.prepare p.1 with
  | ok call => simp [hp] at ha
  | error x =>
    simp only [Function.comp_apply, hp, Option.mem_def, Option.some.injEq] at ha
    rw [← ha]

theorem pairwise_spawned (ai : Message) : ((node.spawned ai).map Prod.fst).Pairwise (· < ·) := by
  simp only [spawned, prepared, List.filterMap_map]
  refine pairwise_filterMap (fun p a ha => ?_) ai.toolCalls
  cases hp : node.prepare p.1 with
  | error x => simp [hp] at ha
  | ok call =>
    simp only [Function.comp_apply, hp, Option.mem_def, Option.some.injEq] at ha
    rw [← ha]

/-! ### The answers -/

theorem answers_map_fst (state : Option S) (w : ℕ → W) (ai : Message)
    (joined : List (ℕ × SpawnedCall S W)) : (node.answers state w ai joined).map Prod.fst =
      (node.early ai).map Prod.fst ++ joined.map Prod.fst := by
  simp [answers, Function.comp_def]

/-- Answers are right if their positions are, and each has the identifier of the call at its position. -/
theorem answersEach_iff_positions {ai : Message} {answers : List (ℕ × String × String)} :
    AnswersEach ai answers ↔
      answers.map Prod.fst = ai.toolCalls.zipIdx.map Prod.snd ∧
        ∀ a ∈ answers, ∀ call, (call, a.1) ∈ ai.toolCalls.zipIdx → a.2.1 = call.id := by
  constructor
  · intro h
    refine ⟨?_, fun a ha call hcall => ?_⟩
    · have hfst := congrArg (List.map Prod.fst) h
      simpa [Function.comp_def] using hfst
    · have hmem : (a.1, a.2.1) ∈ ai.toolCalls.zipIdx.map fun (call, i) => (i, call.id) :=
        h ▸ List.mem_map_of_mem ha
      obtain ⟨⟨call', i⟩, hcall', heq⟩ := List.mem_map.1 hmem
      simp only [Prod.mk.injEq] at heq
      obtain ⟨rfl, hid⟩ := heq
      rw [← hid, eq_of_mem_zipIdx hcall hcall']
  · rintro ⟨hpositions, hids⟩
    -- the identifier at a position is read off the calls
    let idAt : ℕ → String := fun i => ((ai.toolCalls[i]?).map ToolCall.id).getD ""
    have hidAt : ∀ p ∈ ai.toolCalls.zipIdx, (p.2, p.1.id) = (p.2, idAt p.2) := by
      intro p hp
      simp [idAt, List.mem_zipIdx_iff_getElem?.1 hp]
    have hanswers : ∀ a ∈ answers, (a.1, a.2.1) = (a.1, idAt a.1) := by
      intro a ha
      have hposition : a.1 ∈ ai.toolCalls.zipIdx.map Prod.snd :=
        hpositions ▸ List.mem_map_of_mem ha
      obtain ⟨p, hp, hpa⟩ := List.mem_map.1 hposition
      rw [← hpa, ← hidAt p hp, hpa, hids a ha p.1 (by rw [← hpa]; exact hp)]
    calc answers.map (fun a => (a.1, a.2.1))
        = (answers.map Prod.fst).map fun i => (i, idAt i) := by
          rw [List.map_map]
          exact List.map_congr_left hanswers
      _ = (ai.toolCalls.zipIdx.map Prod.snd).map fun i => (i, idAt i) := by rw [hpositions]
      _ = ai.toolCalls.zipIdx.map fun p => (p.2, p.1.id) := by
          rw [List.map_map]
          exact (List.map_congr_left hidAt).symm

/-- A tool that succeeds is answered with the identifier of the call as it was run. -/
theorem result_ok {state : Option S} {w : W} {call : SpawnedCall S W} {id out : String}
    (h : node.result state w call = .ok (id, out)) : id = call.toolCall.id := by
  simp only [result, executeSingleTool] at h
  split at h
  · cases h
  · split at h
    · cases h
    · split at h <;> simp only [Except.ok.injEq, Prod.mk.injEq, reduceCtorEq] at h
      exact h.1.symm

theorem keepsId_of_spawned {state : Option S} {w : W} {toolCall : ToolCall} {call : SpawnedCall S W}
    (hprepare : node.prepare toolCall = .ok call) :
    node.KeepsId state w toolCall ↔ (answer (node.result state w call)).1 = toolCall.id := by
  simp only [KeepsId, hprepare]
  cases hresult : node.result state w call with
  | ok p =>
    obtain ⟨id, out⟩ := p
    simp only [answer, result_ok hresult]
  | error e => cases e <;> simp only [answer, eq_comm]

/-- The identifiers of the answers are right exactly if all calls keep theirs. -/
theorem ids_iff_keepsId (state : Option S) (w : ℕ → W) (ai : Message) :
    (∀ a ∈ node.answers state w ai (node.spawned ai), ∀ call, (call, a.1) ∈ ai.toolCalls.zipIdx →
      a.2.1 = call.id) ↔ ∀ p ∈ ai.toolCalls.zipIdx, node.KeepsId state (w p.2) p.1 := by
  constructor
  · rintro hids ⟨toolCall, i⟩ hmem
    cases hprepare : node.prepare toolCall with
    | error x =>
      have hearly := mem_early.2 ⟨toolCall, hmem, hprepare⟩
      simp only [KeepsId, hprepare]
      exact hids _ (List.mem_append_left _ (List.mem_map_of_mem hearly)) toolCall hmem
    | ok call =>
      have hspawned := mem_spawned.2 ⟨toolCall, hmem, hprepare⟩
      rw [keepsId_of_spawned hprepare]
      exact hids _ (List.mem_append_right _ (List.mem_map_of_mem hspawned)) toolCall hmem
  · intro hkeeps a ha toolCall hmem
    obtain ha | ha := List.mem_append.1 ha
    · obtain ⟨⟨i, id, e⟩, hearly, rfl⟩ := List.mem_map.1 ha
      obtain ⟨toolCall', hmem', hprepare⟩ := mem_early.1 hearly
      have hkeep := hkeeps _ hmem'
      simp only [KeepsId, hprepare] at hkeep
      rw [eq_of_mem_zipIdx hmem hmem']
      exact hkeep
    · obtain ⟨⟨i, call⟩, hspawned, rfl⟩ := List.mem_map.1 ha
      obtain ⟨toolCall', hmem', hprepare⟩ := mem_spawned.1 hspawned
      rw [eq_of_mem_zipIdx hmem hmem']
      exact (keepsId_of_spawned hprepare).1 (hkeeps _ hmem')

/-- The answers are one for each call, in order, exactly if the early failures come first, the other calls
complete in order, and all keep their identifiers. -/
theorem answersEach_answers_iff (state : Option S) (w : ℕ → W) (ai : Message)
    {joined : List (ℕ × SpawnedCall S W)} (hjoined : joined.Perm (node.spawned ai)) :
    AnswersEach ai (node.answers state w ai joined) ↔
      (∀ e ∈ node.early ai, ∀ c ∈ node.spawned ai, e.1 < c.1) ∧ joined = node.spawned ai ∧
        ∀ p ∈ ai.toolCalls.zipIdx, node.KeepsId state (w p.2) p.1 := by
  have hordered : (ai.toolCalls.zipIdx.map Prod.snd).Pairwise (· < ·) := by
    rw [List.zipIdx_map_snd]
    exact List.pairwise_lt_range'
  rw [answersEach_iff_positions, answers_map_fst, map_append_eq_iff hordered
    (early_append_spawned_perm ai) (pairwise_early ai) (pairwise_spawned ai) hjoined, and_assoc]
  refine and_congr_right fun _ => and_congr_right fun hinOrder => ?_
  rw [hinOrder]
  exact ids_iff_keepsId state w ai

theorem length_answers (state : Option S) (w : ℕ → W) (ai : Message)
    {joined : List (ℕ × SpawnedCall S W)} (hjoined : joined.Perm (node.spawned ai)) :
    (node.answers state w ai joined).length = ai.toolCalls.length := by
  have hperm : ((node.early ai).map Prod.fst ++ (node.spawned ai).map Prod.fst).length = _ :=
    (early_append_spawned_perm ai).length_eq
  simp only [List.length_append, List.length_map, List.length_zipIdx] at hperm
  simp [answers, hjoined.length_eq, hperm]

/-- Whichever tools there are, whatever they do and in whatever order they complete: each call is answered
with its identifier and in its place exactly under these conditions. -/
theorem answered_iff (newId : ℕ → String) (w : ℕ → W) {joined : List (ℕ × SpawnedCall S W)}
    {messages : List Message} (state : Option S) {ai : Message} (hhandle : node.handleErrors = true)
    (hai : lastAi messages = some ai) (hjoined : joined.Perm (node.spawned ai)) :
    node.Answered newId w joined messages state ai ↔ node.Orderly w joined state ai := by
  have hcalls : ai.toolCalls.isEmpty = false := by
    have hfound := List.find?_some hai
    simp only [Message.hasToolCalls, Bool.and_eq_true, Bool.not_eq_true'] at hfound
    exact hfound.2
  have hresult : node.executeWithState newId w joined messages state =
      if node.admits ai then .ok ((node.answers state w ai joined).zipIdx.map
        fun ((_, id, content), n) => Message.toolResult (newId n) id content)
      else .ok [] := by
    cases hadmits : node.admits ai <;> simp [executeWithState, hai, hcalls, hadmits, hhandle]
  rw [Answered, answersEach_answers_iff state w ai hjoined, hresult]
  by_cases hadmits : node.admits ai
  · rw [if_pos hadmits]
    exact ⟨fun h => ⟨hadmits, h.2.1, h.2.2.1, h.2.2.2⟩,
      fun h => ⟨rfl, h.early_first, h.joined_eq, h.keepsId⟩⟩
  · -- skipped tools leave every call without an answer
    rw [if_neg hadmits]
    refine iff_of_false (fun h => ?_) fun h => hadmits h.admits
    have hlength := congrArg List.length (Except.ok.inj h.1)
    rw [List.length_map, List.length_zipIdx, length_answers state w ai hjoined] at hlength
    rw [List.isEmpty_eq_false_iff, ← List.length_pos_iff, ← hlength] at hcalls
    exact absurd hcalls (lt_irrefl _)

end ToolNode

/-! ### A tool that fails -/

/-- A node with a tool that answers, and one that fails, whatever they are asked. -/
def doneFailNode : ToolNode Unit Unit where
  tools := Dict.ofList [
    ("done", .stateless ⟨"done", .obj [("type", .str "object")], fun _ _ => .ok "done"⟩),
    ("fail", .stateless ⟨"fail", .obj [("type", .str "object")],
      fun _ _ => .error (.err (.executionFailed "Intentional failure"))⟩)]

/-- A message of the assistant that calls a tool. -/
def callMessage (tool : String) : Message :=
  .aiWithToolCalls "message" "" [⟨"call_1", tool, .obj []⟩]

/-- The tool that answers is answered for. -/
theorem answered_done : doneFailNode.Answered (fun _ => "id") (fun _ => ())
    (doneFailNode.spawned (callMessage "done")) [callMessage "done"] none (callMessage "done") := by
  refine (ToolNode.answered_iff (fun _ => "id") (fun _ => ()) none rfl rfl (.refl _)).2
    ⟨rfl, ?_, rfl, ?_⟩
  · intro e he
    have hnone : doneFailNode.early (callMessage "done") = [] := rfl
    rw [hnone] at he
    cases he
  · intro p hp
    rw [List.mem_singleton.1 (show p ∈ [((⟨"call_1", "done", .obj []⟩ : ToolCall), 0)] from hp)]
    rfl

/-- For the one that fails, there is a message for a call `"unknown"`. -/
theorem not_answered_fail : ¬ ∀ (node : ToolNode Unit Unit) (newId : ℕ → String) (w : ℕ → Unit)
    (joined : List (ℕ × SpawnedCall Unit Unit)) (messages : List Message) (state : Option Unit)
    (ai : Message), node.handleErrors = true → ToolNode.lastAi messages = some ai →
    joined.Perm (node.spawned ai) → node.Answered newId w joined messages state ai := by
  intro hall
  have hanswers := (hall doneFailNode (fun _ => "id") (fun _ => ()) _ [callMessage "fail"] none _ rfl
    rfl (.refl _)).2
  have hids : [(0, "unknown")] = [(0, "call_1")] := hanswers
  exact absurd hids (by decide)

end Juncture
