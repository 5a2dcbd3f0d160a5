import Juncture.Llm.Messages

/-!
# `ToolNode`

`ToolNode` runs the tools that the last message of the assistant calls, all of them at once, and answers
with a tool message for each.

* `validateToolCall` : the check of the arguments against the schema of the tool.
* `executeSingleTool` : one call, in a task of its own.
* `ToolNode.executeWithState` : all of them.

What a tool or an interceptor does may depend on the outside world, which is a parameter `w : W` of each
task; either may panic.  A transformer and a condition run in the caller's own task.
-/

namespace Juncture

/-- `ToolError`. -/
inductive ToolError where
  | invalidInput (msg : String)
  | executionFailed (msg : String)
  | timeout
  | toolNotFound (name : String)
  | validationFailed (errors : List String)
  | intercepted (msg : String)
deriving DecidableEq

/-- `format_validation_errors`. -/
def formatValidationErrors : List String → String
  | [] => ": unknown error"
  | [e] => s!": {e}"
  | errors => errors.zipIdx.foldl (fun msg (e, i) => msg ++ s!"  {i + 1}. {e}\n") ":\n"

/-- The `Display` text of a `ToolError`. -/
def ToolError.display : ToolError → String
  | .invalidInput m => s!"invalid input: {m}"
  | .executionFailed m => s!"execution failed: {m}"
  | .timeout => "timeout"
  | .toolNotFound name => s!"tool not found: {name}"
  | .validationFailed errors => s!"validation failed{formatValidationErrors errors}"
  | .intercepted m => s!"execution intercepted: {m}"

/-- How a task fails: with an error of its own, or by a panic, with the text of the `JoinError`. -/
inductive TaskFailure where
  | err (e : ToolError)
  | panic (joinErr : String)
deriving DecidableEq

/-- What becomes of it when errors are not handled. -/
def TaskFailure.toError : TaskFailure → ToolError
  | .err e => e
  | .panic joinErr => .executionFailed s!"Tool execution panicked: {joinErr}"

/-- `ToolRuntime`; a `ToolNode` gives it no store and the default configuration. -/
structure ToolRuntime (S : Type) where
  /-- State of the graph. -/
  state : S
  /-- Identifier of the call. -/
  toolCallId : String

/-- `dyn Tool`. -/
structure Tool (W : Type) where
  /-- Name. -/
  name : String
  /-- Schema of its arguments. -/
  schema : Json
  /-- What it does. -/
  invoke : W → Json → Except TaskFailure String

/-- `dyn StatefulTool`. -/
structure StatefulTool (S W : Type) where
  /-- Name. -/
  name : String
  /-- Schema of its arguments. -/
  schema : Json
  /-- What it does. -/
  invokeWithRuntime : W → Json → ToolRuntime S → Except TaskFailure String

/-- `ToolEntry`. -/
inductive ToolEntry (S W : Type) where
  | stateless (tool : Tool W)
  | stateful (tool : StatefulTool S W)

namespace ToolEntry

variable {S W : Type}

/-- `name`. -/
def name : ToolEntry S W → String
  | .stateless tool => tool.name
  | .stateful tool => tool.name

/-- `schema`. -/
def schema : ToolEntry S W → Json
  | .stateless tool => tool.schema
  | .stateful tool => tool.schema

end ToolEntry

/-- `dyn ToolInterceptor`. -/
structure ToolInterceptor (W : Type) where
  /-- Before the tool, which it can keep from running. -/
  preExecute : W → ToolCall → Json → Except TaskFailure Unit
  /-- After the tool, whose result it can replace. -/
  postExecute : W → ToolCall → Except ToolError String → Except TaskFailure String

/-- `NopToolInterceptor`. -/
def nopToolInterceptor (W : Type) : ToolInterceptor W where
  preExecute _ _ _ := .ok ()
  postExecute _ _ result :=
    match result with
    | .ok s => .ok s
    | .error e => .error (.err (.executionFailed e.display))

/-- `dyn ToolCallTransformer`: the call as it is left, and whether it went well. -/
abbrev ToolCallTransformer := ToolCall → ToolCall × Except ToolError Unit

/-- `ToolsEvent`, without times. -/
inductive ToolsEvent where
  | toolStarted (toolName toolCallId node : String) (input : Json)
  | toolFinished (toolCallId : String) (output : Json) (success : Bool)

/-- `Message::tool_result`. -/
def Message.toolResult (id toolCallId content : String) : Message :=
  { id, role := .tool, content := .text content, toolCallId := some toolCallId }

/-- `has_tool_calls`. -/
def Message.hasToolCalls (m : Message) : Bool := !m.toolCalls.isEmpty

/-! ### Checking the arguments -/

/-- `value_type_name`. -/
def valueTypeName : Json → String
  | .null => "null"
  | .bool _ => "boolean"
  | .num _ => "number"
  | .str _ => "string"
  | .arr _ => "array"
  | .obj _ => "object"

/-- The value is of the kind that the name of a type asks for. -/
def matchesType (expected : String) (value : Json) : Bool :=
  match expected, value with
  | "object", .obj _ | "array", .arr _ | "string", .str _ | "number", .num _ | "boolean", .bool _
  | "null", .null => true
  | "integer", .num n => decide (-2 ^ 63 ≤ n) && decide (n < 2 ^ 64)
  | "object", _ | "array", _ | "string", _ | "number", _ | "boolean", _ | "null", _ | "integer", _ =>
    false
  | _, _ => true

/-- `validate_property_type`. -/
def validatePropertyType (value propSchema : Json) (propName : String) : Except ToolError Unit :=
  match (propSchema.get "type").bind Json.asStr with
  | none => .ok ()
  | some expected =>
    if matchesType expected value then .ok ()
    else .error (.validationFailed
      [s!"Field '{propName}' expected type '{expected}', got '{valueTypeName value}'"])

/-- The check of the required fields. -/
def validateRequired (obj : Json) (required : List Json) : Except ToolError Unit :=
  required.forM fun field =>
    match field.asStr with
    | none => .error (.validationFailed ["Invalid schema: required field name is not a string"])
    | some name =>
      if (obj.get name).isSome then .ok ()
      else .error (.validationFailed [s!"Missing required field: '{name}'"])

/-- `validate_object_arguments`. -/
def validateObjectArguments (arguments schema : Json) : Except ToolError Unit :=
  match arguments with
  | .obj _ => do
    match schema.get "required" with
    | some (.arr required) => validateRequired arguments required
    | _ => .ok ()
    match schema.get "properties" with
    | some (.obj properties) =>
      properties.forM fun (propName, propSchema) =>
        match arguments.get propName with
        | some value => validatePropertyType value propSchema propName
        | none => .ok ()
    | _ => .ok ()
  | _ => .error (.validationFailed [s!"Expected object arguments, got '{valueTypeName arguments}'"])

/-- Arguments that are not of the kind of the schema. -/
def wrongKind (kind : String) (arguments : Json) : Except ToolError Unit :=
  .error (.validationFailed [s!"Expected {kind} arguments, got '{valueTypeName arguments}'"])

/-- `validate_arguments_against_schema`. -/
def validateArgumentsAgainstSchema (arguments schema : Json) : Except ToolError Unit :=
  match (schema.get "type").bind Json.asStr with
  | some "object" => validateObjectArguments arguments schema
  | some "array" => if matchesType "array" arguments then .ok () else wrongKind "array" arguments
  | some "string" => if matchesType "string" arguments then .ok () else wrongKind "string" arguments
  | some "number" | some "integer" =>
    if matchesType "number" arguments then .ok () else wrongKind "number" arguments
  | some "boolean" =>
    if matchesType "boolean" arguments then .ok () else wrongKind "boolean" arguments
  | _ => .ok ()

/-! ### One call -/

section Single

variable {S W : Type}

/-- The result of the tool itself.  A stateful tool without a state is not run. -/
def ToolEntry.run (w : W) (toolCall : ToolCall) (state : Option S) :
    ToolEntry S W → Except TaskFailure (Except ToolError String)
  | .stateless tool => settle (tool.invoke w toolCall.arguments)
  | .stateful tool =>
    match state with
    | some state => settle (tool.invokeWithRuntime w toolCall.arguments ⟨state, toolCall.id⟩)
    | none => .error (.err (.executionFailed
        s!"Stateful tool '{tool.name}' called without state context"))
where
  /-- An error of the tool is a result that the interceptor sees; a panic is not. -/
  settle : Except TaskFailure String → Except TaskFailure (Except ToolError String)
    | .ok out => .ok (.ok out)
    | .error (.err e) => .ok (.error e)
    | .error (.panic joinErr) => .error (.panic joinErr)

/-- `execute_single_tool`, with the events it sends. -/
def executeSingleTool (w : W) (toolCall : ToolCall) (tool : ToolEntry S W)
    (interceptor : ToolInterceptor W) (state : Option S) :
    List ToolsEvent × Except TaskFailure (String × String) :=
  let started := ToolsEvent.toolStarted tool.name toolCall.id "tools" toolCall.arguments
  match interceptor.preExecute w toolCall .null with
  | .error e => ([started], .error e)
  | .ok () =>
    match tool.run w toolCall state with
    | .error e => ([started], .error e)
    | .ok result =>
      match interceptor.postExecute w toolCall result with
      | .ok out =>
        ([started, .toolFinished toolCall.id (.obj [("result", .str out)]) true],
          .ok (toolCall.id, out))
      | .error (.err e) =>
        ([started, .toolFinished toolCall.id (.obj [("error", .str e.display)]) false], .error (.err e))
      | .error (.panic joinErr) => ([started], .error (.panic joinErr))

end Single

/-! ### The node -/

/-- `ToolNode`, without the sender of its events. -/
structure ToolNode (S W : Type) where
  /-- Tools by name. -/
  tools : Dict (ToolEntry S W)
  /-- Errors become tool messages. -/
  handleErrors : Bool := true
  /-- Arguments are checked. -/
  validateInput : Bool := true
  /-- Changes calls before they are run. -/
  callTransformer : Option ToolCallTransformer := none
  /-- Hooks around a tool. -/
  interceptor : Option (ToolInterceptor W) := none
  /-- Whether to run tools at all. -/
  toolsCondition : Option (Message → Bool) := none

/-- A call that is run. -/
structure SpawnedCall (S W : Type) where
  /-- The call, as the transformer left it. -/
  toolCall : ToolCall
  /-- The tool. -/
  tool : ToolEntry S W

namespace ToolNode

variable {S W : Type} (node : ToolNode S W)

/-- `validate_tool_call`. -/
def validateToolCall (toolCall : ToolCall) : Except ToolError Unit :=
  match node.tools.lookup toolCall.name with
  | none => .error (.validationFailed
      [s!"Tool '{toolCall.name}' not found in registered tools"])
  | some tool => validateArgumentsAgainstSchema toolCall.arguments tool.schema

/-- What happens to a call before it is run: it fails, with the identifier it has by then, or it is
spawned. -/
def prepare (toolCall : ToolCall) : Except (String × ToolError) (SpawnedCall S W) :=
  match node.tools.lookup toolCall.name with
  | none => .error (toolCall.id, .toolNotFound toolCall.name)
  | some tool =>
    let (toolCall, transformed) :=
      match node.callTransformer with
      | some transform => transform toolCall
      | none => (toolCall, .ok ())
    match transformed with
    | .error e => .error (toolCall.id, e)
    | .ok () =>
      match if node.validateInput then node.validateToolCall toolCall else .ok () with
      | .error e => .error (toolCall.id, e)
      | .ok () => .ok ⟨toolCall, tool⟩

/-- The last message of the assistant with tool calls. -/
def lastAi (messages : List Message) : Option Message :=
  messages.reverse.find? fun m => m.role == .ai && m.hasToolCalls

/-- The condition lets the tools run. -/
def admits (ai : Message) : Bool :=
  match node.toolsCondition with
  | some condition => condition ai
  | none => true

/-- The result of a spawned call. -/
def result (state : Option S) (w : W) (call : SpawnedCall S W) :
    Except TaskFailure (String × String) :=
  (executeSingleTool w call.toolCall call.tool (node.interceptor.getD (nopToolInterceptor W)) state).2

/-- Identifier and text of the message for a result, when errors are handled. -/
def answer : Except TaskFailure (String × String) → String × String
  | .ok (toolCallId, out) => (toolCallId, out)
  | .error (.err e) => ("unknown", s!"Error: {e.display}")
  | .error (.panic joinErr) => ("unknown", s!"Tool execution panicked: {joinErr}")

/-- The calls of a message with their position, each failed or spawned. -/
def prepared (ai : Message) : List (ℕ × Except (String × ToolError) (SpawnedCall S W)) :=
  ai.toolCalls.zipIdx.map fun (toolCall, i) => (i, node.prepare toolCall)

/-- The calls that fail before they are run. -/
def early (ai : Message) : List (ℕ × String × ToolError) :=
  (node.prepared ai).filterMap fun (i, p) =>
    match p with
    | .error (id, e) => some (i, id, e)
    | .ok _ => none

/-- The calls that are run. -/
def spawned (ai : Message) : List (ℕ × SpawnedCall S W) :=
  (node.prepared ai).filterMap fun (i, p) =>
    match p with
    | .ok call => some (i, call)
    | .error _ => none

/-- What the node answers with, each answer with the position of the call it is about: first the calls
that failed before they were run, then the others in the order `joined` in which they complete.  Call `i`
meets the world `w i`. -/
def answers (state : Option S) (w : ℕ → W) (ai : Message) (joined : List (ℕ × SpawnedCall S W)) :
    List (ℕ × String × String) :=
  ((node.early ai).map fun (i, id, e) => (i, id, s!"Error: {e.display}")) ++
    joined.map fun (i, call) => (i, answer (node.result state (w i) call))

/-- The first error, when errors are not handled.  What has been spawned by then is aborted. -/
def firstError (state : Option S) (w : ℕ → W) (ai : Message) (joined : List (ℕ × SpawnedCall S W)) :
    Option ToolError :=
  match node.early ai with
  | (_, _, e) :: _ => some e
  | [] => joined.findSome? fun (i, call) =>
    match node.result state (w i) call with
    | .ok _ => none
    | .error e => some e.toError

/-- `execute_with_state`, when the spawned calls complete in the order `joined`; message `n` gets the
identifier `newId n`. -/
def executeWithState (newId : ℕ → String) (w : ℕ → W) (joined : List (ℕ × SpawnedCall S W))
    (messages : List Message) (state : Option S) : Except ToolError (List Message) :=
  match lastAi messages with
  | none => .error (.validationFailed ["No AI message with tool calls found"])
  | some ai =>
    if ai.toolCalls.isEmpty || !node.admits ai then .ok []
    else
      match if node.handleErrors then none else node.firstError state w ai joined with
      | some e => .error e
      | none => .ok ((node.answers state w ai joined).zipIdx.map fun ((_, id, content), n) =>
          Message.toolResult (newId n) id content)

end ToolNode

end Juncture
