import Juncture.Core.State
import Mathlib.Data.Rat.Defs

/-!
# Commands and run configuration

What a node returns (`Command`), how it routes (`Goto`, `SendTarget`), what the caller resumes
with (`ResumeValue`), and the part of `RunnableConfig` the engine reads.
-/

namespace Juncture

/-- An identifier made by the `uuid` crate (of a task, a checkpoint or a run).  The engine only
compares identifiers; the model draws fresh ones from a counter. -/
abbrev Uuid := ℕ

/-- `SendTarget`: one task of a dynamic fan-out, with its own state. -/
structure SendTarget where
  /-- Target node name. -/
  node : String
  /-- The task's state, as JSON. -/
  state : Json
  /-- Timeout in milliseconds. -/
  timeout : Option ℕ := none
deriving DecidableEq

/-- `Goto`: the routing of a command. -/
inductive Goto where
  | none
  | next (target : String)
  | multiple (targets : List String)
  | send (targets : List SendTarget)
  | end
deriving DecidableEq

/-- `GraphTarget`. -/
inductive GraphTarget where
  | current
  | parent
deriving DecidableEq

/-- `ResumeValue`. -/
inductive ResumeValue where
  | single (v : Json)
  | byId (m : Dict Json)
  | byNamespace (m : Dict Json)
deriving DecidableEq

/-- `Command<S>`: what a node returns. -/
structure Command (S : Type) [State S] where
  /-- State update. -/
  update : Option (Update S) := .none
  /-- Routing. -/
  goto : Goto := .none
  /-- Graph the routing is for. -/
  graph : GraphTarget := .current
  /-- Resume value. -/
  resume : Option ResumeValue := .none
  /-- Custom stream events. -/
  streamData : List Json := []

namespace Command

variable {S : Type} [State S]

/-- `Command::default()`: no update, no routing. -/
def default : Command S := {}

/-- `Command::update`. -/
def ofUpdate (u : Update S) : Command S := { update := some u }

/-- `Command::send`. -/
def send (targets : List SendTarget) : Command S := { goto := .send targets }

@[simp] theorem default_update : (default : Command S).update = .none := rfl

@[simp] theorem default_goto : (default : Command S).goto = .none := rfl

end Command

/-- `ParentCommand<S>`: a command of a subgraph for its parent graph. -/
structure ParentCommand (S : Type) [State S] where
  /-- The command. -/
  command : Command S
  /-- The node of the subgraph that returned it. -/
  sourceNode : String
  /-- Namespace of the subgraph. -/
  namespace_ : String

/-! ### Run configuration -/

/-- `Durability`. -/
inductive Durability where
  | sync
  | async
  | exit
deriving DecidableEq, Repr

/-- `BudgetConfig`: the limits of a run.  Costs are exact rationals, durations milliseconds. -/
structure BudgetConfig where
  /-- Token limit. -/
  maxTokens : Option ℕ := none
  /-- Cost limit. -/
  maxCostUsd : Option ℚ := none
  /-- Duration limit. -/
  maxDuration : Option ℕ := none
  /-- Step limit. -/
  maxSteps : Option ℕ := none
deriving DecidableEq, Repr

/-- `CachePolicy` (of tasks and of LLM calls), as the nodes see it. -/
structure CachePolicy where
  /-- Time to live in milliseconds. -/
  ttl : Option ℕ := none
  /-- Bound on the entries. -/
  maxEntries : Option ℕ := none
deriving DecidableEq, Repr

/-- `ResourceLimits`. -/
structure ResourceLimits where
  /-- Bound on the serialized state. -/
  maxStateSizeBytes : Option ℕ := none
deriving DecidableEq, Repr

/-- The fields of `RunnableConfig` that the engine reads. -/
structure RunnableConfig where
  /-- Thread of the conversation. -/
  threadId : Option String := none
  /-- Checkpoint the run is at. -/
  checkpointId : Option Uuid := none
  /-- Serialized namespace of a subgraph run. -/
  checkpointNs : Option String := none
  /-- Maximum superstep count. -/
  recursionLimit : ℕ := 25
  /-- Tasks that may run at once. -/
  maxParallelTasks : ℕ := 100
  /-- Result of the previous run, readable by the nodes. -/
  previous : Option Json := none
  /-- Task cache. -/
  taskCachePolicy : Option CachePolicy := none
  /-- LLM cache. -/
  llmCachePolicy : Option CachePolicy := none
  /-- Limits of the run. -/
  budget : Option BudgetConfig := none
  /-- How checkpoints are written. -/
  durability : Option Durability := none
  /-- The value the run is resumed with. -/
  resumeValue : Option ResumeValue := none
  /-- Nodes to stop before. -/
  interruptBefore : Option (List String) := none
  /-- Nodes to stop after. -/
  interruptAfter : Option (List String) := none
  /-- Resource limits. -/
  resourceLimits : Option ResourceLimits := none
deriving DecidableEq

end Juncture
