import Juncture.Core.Interrupt

/-!
# Tasks, outputs and loop status

The data the engine passes between the scheduler, the runner and the loop.  Durations and the
`triggered_fields` vectors (which the engine fills with nothing and never reads) are left out.
-/

namespace Juncture

variable {S : Type} [State S]

/-- `LoopStatus`. -/
inductive LoopStatus where
  | running
  | done
  | outOfSteps
  | interruptBefore (signals : List InterruptSignal)
  | interruptAfter (signals : List InterruptSignal)
  | budgetExceeded
  | cancelled
  | drained
deriving DecidableEq

namespace LoopStatus

/-- `is_interrupted`. -/
def isInterrupted : LoopStatus → Bool
  | interruptBefore _ | interruptAfter _ => true
  | _ => false

end LoopStatus

/-- `TaskTrigger`: how a task was scheduled. -/
inductive TaskTrigger where
  | pull
  | push (index : ℕ)
deriving DecidableEq

/-- `PendingTask<S>`. -/
structure PendingTask (S : Type) where
  /-- Task identifier. -/
  id : Uuid
  /-- Node to execute. -/
  nodeName : String
  /-- What scheduled the task. -/
  trigger : TaskTrigger
  /-- State of a `Send` task, once deserialized. -/
  stateOverride : Option S := none
  /-- State of a `Send` task, as it was sent. -/
  stateJson : Option Json := none

namespace PendingTask

/-- `PendingTask::pull`. -/
def pull (id : Uuid) (nodeName : String) : PendingTask S :=
  { id, nodeName, trigger := .pull }

/-- `PendingTask::push`. -/
def push (id : Uuid) (nodeName : String) (index : ℕ) (stateJson : Json) : PendingTask S :=
  { id, nodeName, trigger := .push index, stateJson := some stateJson }

end PendingTask

/-- `TaskOutput<S>`. -/
structure TaskOutput (S : Type) [State S] where
  /-- Task identifier. -/
  taskId : Uuid
  /-- Node that was executed. -/
  nodeName : String
  /-- Command it returned; the default command when it failed. -/
  command : Command S
  /-- What scheduled the task. -/
  trigger : TaskTrigger
  /-- The failure, when a handler or a fallback is registered for the node. -/
  error : Option JunctureError := none
  /-- The task was not run because its circuit breaker was open. -/
  circuitBlocked : Bool := false

namespace TaskOutput

/-- `TaskOutput::clone`: the error survives as its text only. -/
def clone (o : TaskOutput S) : TaskOutput S :=
  { o with error := o.error.map fun e => .execution e.display }

@[simp] theorem clone_nodeName (o : TaskOutput S) : o.clone.nodeName = o.nodeName := rfl

@[simp] theorem clone_command (o : TaskOutput S) : o.clone.command = o.command := rfl

@[simp] theorem clone_trigger (o : TaskOutput S) : o.clone.trigger = o.trigger := rfl

@[simp] theorem clone_circuitBlocked (o : TaskOutput S) :
    o.clone.circuitBlocked = o.circuitBlocked := rfl

@[simp] theorem clone_error_isSome (o : TaskOutput S) :
    o.clone.error.isSome = o.error.isSome := by
  simp [clone]

end TaskOutput

/-- `GraphInterrupt`: the interrupt of a subgraph. -/
structure GraphInterrupt where
  /-- Its signals. -/
  interrupts : List InterruptSignal
  /-- Step of the subgraph. -/
  step : ℕ
  /-- Namespace of the subgraph. -/
  namespace_ : List String

/-- `GraphDrained`. -/
structure GraphDrained where
  /-- Why the subgraph was drained. -/
  reason : String

/-- `BubbleUp<S>`: what a subgraph reports to its parent. -/
inductive BubbleUp (S : Type) [State S] where
  | interrupt (i : GraphInterrupt)
  | drained (d : GraphDrained)
  | parentCommand (c : ParentCommand S)

/-- `SuperstepResult<S>`. -/
structure SuperstepResult (S : Type) [State S] where
  /-- Outputs of the tasks, in completion order. -/
  taskOutputs : List (TaskOutput S) := []
  /-- Reports of subgraphs. -/
  bubbleUps : List (BubbleUp S) := []

/-- The outputs that take part in merging and scheduling: circuit-blocked tasks never ran. -/
def executedOutputs (outputs : List (TaskOutput S)) : List (TaskOutput S) :=
  (outputs.filter fun o => !o.circuitBlocked).map TaskOutput.clone

end Juncture
