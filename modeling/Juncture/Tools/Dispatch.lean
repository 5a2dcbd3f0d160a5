import Juncture.Tools.Answers

/-!
# Which tool is run

A transformer may change the name of a call.  The tool is looked up before that, and it is the one that is
run; the arguments are checked after it, against the schema of the tool that the new name finds.

* `ToolNode.Dispatches` : the tool that is run is the one that the transformed call names.
* `ToolNode.dispatches_iff` : for which calls this is so.
-/

namespace Juncture

namespace ToolNode

variable {S W : Type} (node : ToolNode S W)

/-- The call as the transformer leaves it, and whether it went well. -/
def transformed (toolCall : ToolCall) : ToolCall × Except ToolError Unit :=
  match node.callTransformer with
  | some transform => transform toolCall
  | none => (toolCall, .ok ())

/-- The arguments fit the tool, or nobody asks. -/
def Accepts (tool : ToolEntry S W) (arguments : Json) : Prop :=
  node.validateInput = true → validateArgumentsAgainstSchema arguments tool.schema = .ok ()

/-- What becomes of a call is what its transformed form asks for. -/
structure Dispatches (toolCall : ToolCall) : Prop where
  /-- What is run is the tool that the transformed call names, with its arguments, which fit that tool. -/
  executed : ∀ call, node.prepare toolCall = .ok call →
    node.transformed toolCall = (call.toolCall, .ok ()) ∧
      node.tools.lookup call.toolCall.name = some call.tool ∧
      node.Accepts call.tool call.toolCall.arguments
  /-- It is run if there is such a tool and the arguments fit it. -/
  named : ∀ toolCall' tool, node.transformed toolCall = (toolCall', .ok ()) →
    node.tools.lookup toolCall'.name = some tool → node.Accepts tool toolCall'.arguments →
    ∃ call, node.prepare toolCall = .ok call
  /-- If there is none, the call fails because no tool is found. -/
  unknown : ∀ toolCall', node.transformed toolCall = (toolCall', .ok ()) →
    node.tools.lookup toolCall'.name = none →
    ∃ id name, node.prepare toolCall = .error (id, .toolNotFound name)

/-- The new name of a call finds what the old one does, unless the transformer refuses the call or the new
arguments do not fit the tool of the new name. -/
def KeepsTool (toolCall : ToolCall) : Prop :=
  ∀ toolCall', node.transformed toolCall = (toolCall', .ok ()) →
    node.tools.lookup toolCall'.name = node.tools.lookup toolCall.name ∨
      ∃ tool, node.tools.lookup toolCall'.name = some tool ∧ ¬ node.Accepts tool toolCall'.arguments

/-! ### What becomes of a call -/

variable {node} {toolCall toolCall' : ToolCall} {tool : ToolEntry S W}

/-- A name that finds nothing is looked up no further. -/
theorem prepare_of_lookup_none (h : node.tools.lookup toolCall.name = none) :
    node.prepare toolCall = .error (toolCall.id, .toolNotFound toolCall.name) := by
  simp only [prepare, h]

theorem prepare_of_lookup_some (h : node.tools.lookup toolCall.name = some tool) :
    node.prepare toolCall =
      match (node.transformed toolCall).2 with
      | .error e => .error ((node.transformed toolCall).1.id, e)
      | .ok () =>
        match if node.validateInput then node.validateToolCall (node.transformed toolCall).1
          else .ok () with
        | .error e => .error ((node.transformed toolCall).1.id, e)
        | .ok () => .ok ⟨(node.transformed toolCall).1, tool⟩ := by
  simp only [prepare, h]
  rfl

theorem prepare_of_refused {e : ToolError} (hlookup : node.tools.lookup toolCall.name = some tool)
    (h : node.transformed toolCall = (toolCall', .error e)) :
    node.prepare toolCall = .error (toolCall'.id, e) := by
  rw [prepare_of_lookup_some hlookup, h]

/-- A transformed call is checked by its new name and run by its old one. -/
theorem prepare_of_transformed (hlookup : node.tools.lookup toolCall.name = some tool)
    (h : node.transformed toolCall = (toolCall', .ok ())) : node.prepare toolCall =
      match if node.validateInput then node.validateToolCall toolCall' else .ok () with
      | .error e => .error (toolCall'.id, e)
      | .ok () => .ok ⟨toolCall', tool⟩ := by
  rw [prepare_of_lookup_some hlookup, h]

/-- The check of a call whose new name finds a tool. -/
theorem check_eq_ok_iff {tool' : ToolEntry S W} (hlookup : node.tools.lookup toolCall.name = some tool') :
    (if node.validateInput then node.validateToolCall toolCall else .ok ()) = .ok () ↔
      node.Accepts tool' toolCall.arguments := by
  unfold Accepts
  cases node.validateInput with
  | false => simp
  | true => simp only [if_true, validateToolCall, hlookup, true_imp_iff]

/-- A call that is run has been transformed, and its old name finds the tool. -/
theorem lookup_of_prepare {call : SpawnedCall S W} (h : node.prepare toolCall = .ok call) :
    node.transformed toolCall = (call.toolCall, .ok ()) ∧
      node.tools.lookup toolCall.name = some call.tool ∧
      (if node.validateInput then node.validateToolCall call.toolCall else .ok ()) = .ok () := by
  cases hlookup : node.tools.lookup toolCall.name with
  | none =>
    rw [prepare_of_lookup_none hlookup] at h
    cases h
  | some tool =>
    rcases htransformed : node.transformed toolCall with ⟨toolCall', e | ⟨⟩⟩
    · rw [prepare_of_refused hlookup htransformed] at h
      cases h
    · rw [prepare_of_transformed hlookup htransformed] at h
      split at h
      · cases h
      · rename_i hcheck
        cases h
        exact ⟨rfl, rfl, hcheck⟩

/-- A call whose new name finds nothing is not told so: it fails the check, or the old tool is run. -/
theorem prepare_ne_toolNotFound (hlookup : node.tools.lookup toolCall.name = some tool)
    (h : node.transformed toolCall = (toolCall', .ok ()))
    (hnew : node.tools.lookup toolCall'.name = none) (id name : String) :
    node.prepare toolCall ≠ .error (id, .toolNotFound name) := by
  rw [prepare_of_transformed hlookup h]
  cases node.validateInput with
  | false => simp
  | true => simp [validateToolCall, hnew]

/-! ### The tool that is run -/

theorem Dispatches.keepsTool (h : node.Dispatches toolCall) : node.KeepsTool toolCall := by
  intro toolCall' htransformed
  cases hnew : node.tools.lookup toolCall'.name with
  | none =>
    obtain ⟨id, name, hprepare⟩ := h.unknown toolCall' htransformed hnew
    cases hold : node.tools.lookup toolCall.name with
    | none => exact .inl rfl
    | some tool => exact absurd hprepare (prepare_ne_toolNotFound hold htransformed hnew id name)
  | some tool' =>
    by_cases haccepts : node.Accepts tool' toolCall'.arguments
    · obtain ⟨call, hcall⟩ := h.named toolCall' tool' htransformed hnew haccepts
      obtain ⟨htransformed', hlookup, -⟩ := h.executed call hcall
      rw [htransformed] at htransformed'
      obtain rfl : toolCall' = call.toolCall := congrArg Prod.fst htransformed'
      rw [(lookup_of_prepare hcall).2.1, ← hnew, hlookup]
      exact .inl rfl
    · exact .inr ⟨tool', rfl, haccepts⟩

theorem KeepsTool.dispatches (h : node.KeepsTool toolCall) : node.Dispatches toolCall := by
  refine ⟨fun call hcall => ?_, fun toolCall' tool htransformed hnew haccepts => ?_,
    fun toolCall' htransformed hnew => ?_⟩
  · obtain ⟨htransformed, hold, hcheck⟩ := lookup_of_prepare hcall
    obtain hsame | ⟨tool', hnew, hrefused⟩ := h _ htransformed
    · rw [hold] at hsame
      exact ⟨htransformed, hsame, (check_eq_ok_iff hsame).1 hcheck⟩
    · exact absurd ((check_eq_ok_iff hnew).1 hcheck) hrefused
  · obtain hsame | ⟨tool', hnew', hrefused⟩ := h _ htransformed
    · rw [hnew] at hsame
      rw [prepare_of_transformed hsame.symm htransformed, (check_eq_ok_iff hnew).2 haccepts]
      exact ⟨_, rfl⟩
    · rw [hnew, Option.some.injEq] at hnew'
      exact absurd (hnew' ▸ haccepts) hrefused
  · obtain hsame | ⟨tool', hnew', -⟩ := h _ htransformed
    · rw [hnew] at hsame
      exact ⟨_, _, prepare_of_lookup_none hsame.symm⟩
    · rw [hnew] at hnew'
      cases hnew'

/-- **Dispatch.**  The tool that is run is the one that the transformed call names, with arguments that
fit it, and a name that is not registered is reported as such, if and only if the new name finds what the
old one does, or the call is refused. -/
theorem dispatches_iff (node : ToolNode S W) (toolCall : ToolCall) :
    node.Dispatches toolCall ↔ node.KeepsTool toolCall :=
  ⟨Dispatches.keepsTool, KeepsTool.dispatches⟩

/-! ### A transformer that changes the name -/

/-- A node with two tools, and a transformer that calls the second for the first. -/
def redirectingNode : ToolNode Unit Unit where
  tools := Dict.ofList [
    ("search", .stateless ⟨"search", .obj [("type", .str "object")], fun _ _ => .ok "found"⟩),
    ("archive", .stateless ⟨"archive", .obj [("type", .str "object")], fun _ _ => .ok "archived"⟩)]
  callTransformer := some fun toolCall => ({ toolCall with name := "archive" }, .ok ())

/-- The first tool is run for the second. -/
theorem redirecting_not_dispatches :
    ¬ redirectingNode.Dispatches ⟨"call_1", "search", .obj []⟩ := by
  intro h
  obtain ⟨-, hlookup, -⟩ := h.executed
    ⟨⟨"call_1", "archive", .obj []⟩,
      .stateless ⟨"search", .obj [("type", .str "object")], fun _ _ => .ok "found"⟩⟩ rfl
  have hname : some "archive" = some "search" := congrArg (Option.map ToolEntry.name) hlookup
  exact absurd hname (by decide)

/-! ### A whole message -/

/-- Each call of a message that is run is the transformed form of a call of the message, and it is run by
the tool that its name finds. -/
theorem lookup_of_mem_spawned {ai : Message} (h : ∀ toolCall ∈ ai.toolCalls, node.KeepsTool toolCall)
    {i : ℕ} {call : SpawnedCall S W} (hcall : (i, call) ∈ node.spawned ai) :
    (∃ toolCall, (toolCall, i) ∈ ai.toolCalls.zipIdx ∧
      node.transformed toolCall = (call.toolCall, .ok ())) ∧
      node.tools.lookup call.toolCall.name = some call.tool ∧
      node.Accepts call.tool call.toolCall.arguments := by
  obtain ⟨toolCall, hmem, hprepare⟩ := mem_spawned.1 hcall
  have hkeeps := h toolCall (List.fst_mem_of_mem_zipIdx hmem)
  obtain ⟨htransformed, hlookup, haccepts⟩ := hkeeps.dispatches.executed call hprepare
  exact ⟨⟨toolCall, hmem, htransformed⟩, hlookup, haccepts⟩

end ToolNode

end Juncture
