import Mathlib.Data.Nat.Notation

/-!
# Errors

The error kinds of `juncture-core` with their `Display` texts.  Backtraces are left out.

`JunctureError.display` matters to the engine: a `TaskOutput` is cloned before it is merged and
scheduled, and the clone carries `JunctureError::execution(e.to_string())` in place of `e`.
-/

namespace Juncture

/-- `str::escape_debug` for one printable character. -/
def escapeDebugChar (c : Char) : List Char :=
  match c with
  | '"' => ['\\', '"']
  | '\\' => ['\\', '\\']
  | '\n' => ['\\', 'n']
  | '\r' => ['\\', 'r']
  | '\t' => ['\\', 't']
  | c => [c]

/-- The `{:?}` text of a string. -/
def debugStr (s : String) : String :=
  "\"" ++ String.ofList (s.toList.flatMap escapeDebugChar) ++ "\""

/-- The `{:?}` text of a `Vec<String>`. -/
def debugStrs (xs : List String) : String :=
  "[" ++ String.intercalate ", " (xs.map debugStr) ++ "]"

/-- `InvalidUpdateError`: why `State::try_apply` rejects an update. -/
inductive InvalidUpdateError where
  | multipleWriters (field : String) (conflictingNodes : List String)
  | multipleOverwrite (field : String)
  | invalidValue (field reason : String)
deriving DecidableEq, Repr

/-- The `Display` text of an `InvalidUpdateError`. -/
def InvalidUpdateError.display : InvalidUpdateError → String
  | .multipleWriters field nodes => s!"multiple writers for field '{field}': {debugStrs nodes}"
  | .multipleOverwrite field => s!"multiple overwrite attempts for field '{field}'"
  | .invalidValue field reason => s!"invalid value for field '{field}': {reason}"

/-- `NodeTimeoutError`. -/
inductive NodeTimeoutError where
  | runTimeout (node : String) (timeout : ℕ)
  | idleTimeout (node : String) (timeout : ℕ)
deriving DecidableEq, Repr

/-- The `Display` text of a `NodeTimeoutError`. -/
def NodeTimeoutError.display : NodeTimeoutError → String
  | .runTimeout node t => s!"node '{node}' run timeout after {t}ms"
  | .idleTimeout node t => s!"node '{node}' idle timeout after {t}ms"

/-- `CheckpointError`, as savers return it. -/
inductive CheckpointError where
  | serialize (msg : String)
  | deserialize (msg : String)
  | notFound (threadId checkpointId : String)
  | storage (msg : String)
  | other (msg : String)
deriving DecidableEq, Repr

/-- The `Display` text of a `CheckpointError`. -/
def CheckpointError.display : CheckpointError → String
  | .serialize m => s!"Serialization failed: {m}"
  | .deserialize m => s!"Deserialization failed: {m}"
  | .notFound t c => s!"Checkpoint not found: thread={t}, id={c}"
  | .storage m => s!"Storage error: {m}"
  | .other m => s!"Checkpoint error: {m}"

/-- `ErrorKind`. -/
inductive JunctureError where
  | graph (msg : String)
  | execution (msg : String)
  | checkpoint (msg : String)
  | interrupt (msg : String)
  | interrupted (index : ℕ)
  | subgraph (msg : String)
  | invalidUpdate (msg : String)
  | emptyChannel
  | emptyInput
  | taskNotFound (id : String)
  | timeout (msg : String)
  | recursionLimit (step limit : ℕ)
  | cancelled
  | multipleWriters (fieldIndex : ℕ) (writers : List String)
  | taskPanicked (msg : String)
  | nodeTimeout (err : NodeTimeoutError)
  | parentCommand (target : String)
  | missingResumeValue (interruptIds : List String)
deriving DecidableEq, Repr

namespace JunctureError

/-- The `Display` text of a `JunctureError`. -/
def display : JunctureError → String
  | graph m => s!"Graph error: {m}"
  | execution m => s!"Execution error: {m}"
  | checkpoint m => s!"Checkpoint error: {m}"
  | interrupt m => s!"Interrupt: {m}"
  | interrupted i => s!"Interrupted at index {i}"
  | subgraph m => s!"Subgraph error: {m}"
  | invalidUpdate m => s!"Invalid update: {m}"
  | emptyChannel => "Empty channel"
  | emptyInput => "Empty input"
  | taskNotFound id => s!"Task not found: {id}"
  | timeout m => s!"Timeout: {m}"
  | recursionLimit step limit => s!"Recursion limit exceeded: step {step} > limit {limit}"
  | cancelled => "Execution cancelled"
  | multipleWriters i ws =>
    s!"Multiple writers for replace channel: field {i} written by {debugStrs ws}"
  | taskPanicked m => s!"Task panicked: {m}"
  | nodeTimeout e => s!"Node timeout: {e.display}"
  | parentCommand t => s!"Parent command: route to '{t}'"
  | missingResumeValue ids => s!"Missing resume value for interrupts {debugStrs ids}"

/-- `is_interrupt`. -/
def isInterrupt : JunctureError → Bool
  | interrupt _ | interrupted _ => true
  | _ => false

/-- `is_cancelled`. -/
def isCancelled : JunctureError → Bool
  | cancelled => true
  | _ => false

/-- `is_recursion_limit`. -/
def isRecursionLimit : JunctureError → Bool
  | recursionLimit _ _ => true
  | _ => false

/-- `From<CheckpointError>`: a failed checkpoint write fails the run with its text. -/
def ofCheckpointError (e : CheckpointError) : JunctureError := .checkpoint e.display

end JunctureError

end Juncture
