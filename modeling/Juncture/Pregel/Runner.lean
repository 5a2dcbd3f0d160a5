import Juncture.Lib.Machine
import Juncture.Core.Checkpoint
import Juncture.Pregel.Types

/-!
# Running the tasks of a superstep

`executeSuperstep` runs the pending tasks and collects their outputs.  A superstep of one plain task
(no retry, timeout, error handler or fallback) runs inline; any other spawns its tasks, which then
run concurrently, share one interrupt context and are joined as they complete.

The spawned path is a machine: `Superstep` is what the tasks and the collector share, and a
`Choice` is one move of a task, of the collector or of the outside world.  A task moves in steps as
small as its accesses to the shared context: taking an index and sending a signal are two moves.
When a schedule is used up, `drain` lets the tasks that are left run to their end.

Metrics, callbacks and panics are left out, and the scope of the budget tracker, which nodes only
write to.
-/

namespace Juncture

variable {S σ : Type} [State S]

/-- What the runner is given. -/
structure RunnerEnv (S σ : Type) [State S] where
  /-- Nodes of the graph. -/
  nodes : Dict (Node S)
  /-- Configuration of the run. -/
  config : RunnableConfig
  /-- Where writes are persisted. -/
  checkpointer : Option (CheckpointSaver σ)
  /-- Error handler of each node. -/
  errorHandlerMap : Dict String
  /-- Retry policies. -/
  retryPolicies : Dict RetryPolicy
  /-- Timeout policies. -/
  timeoutPolicies : Dict TimeoutPolicy
  /-- Fallback of each node. -/
  fallbackMap : Dict String

namespace RunnerEnv

variable (env : RunnerEnv S σ)

/-- The task-local scopes of a spawned task. -/
def locals : TaskLocals where
  previous := some env.config.previous
  taskCachePolicy := some env.config.taskCachePolicy
  llmCachePolicy := some env.config.llmCachePolicy

/-- A failure of the node is recorded in its output and does not fail the superstep. -/
def recovers (nodeName : String) : Bool :=
  env.errorHandlerMap.containsKey nodeName || env.fallbackMap.containsKey nodeName

/-- The node needs the spawned path. -/
def needsSpawn (nodeName : String) : Bool :=
  env.recovers nodeName || env.retryPolicies.containsKey nodeName ||
    env.timeoutPolicies.containsKey nodeName

/-- The call of a task's node, on the task's own state or on the shared one. -/
def nodeCall (state : S) (task : PendingTask S) : Except JunctureError (NodeProg S) :=
  match env.nodes.lookup task.nodeName with
  | none => .error (.execution s!"Node '{task.nodeName}' not found")
  | some node => .ok (node.call (task.stateOverride.getD state) env.config)

/-- What a spawned task executes: the call, wrapped in the node's retry policy. -/
def taskProg (state : S) (task : PendingTask S) : Except JunctureError (NodeProg S) :=
  match env.nodeCall state task, env.retryPolicies.lookup task.nodeName with
  | .ok call, some policy => .ok (executeWithRetry task.nodeName policy call)
  | r, _ => r

end RunnerEnv

/-- The error of a task that is cancelled. -/
def taskCancelled : JunctureError := .execution "Task cancelled"

/-! ### Persisting what a task wrote -/

/-- `serialize_pending_writes`: one write for each field that is not null; nothing when the update
does not serialize to an object. -/
def serializePendingWrites (taskId : Uuid) (update : Update S) : List PendingWrite :=
  match State.updateToValue update with
  | .ok (.obj members) =>
    (members.filter fun m => m.2 != .null).map fun m => ⟨taskId, m.1, m.2⟩
  | _ => []

/-- The writes of a completed task go to the checkpointer. -/
def persistWrites (env : RunnerEnv S σ) (output : TaskOutput S) (store : σ) :
    σ × Except CheckpointError Unit :=
  match env.checkpointer, output.command.update with
  | some cp, some update =>
    let writes := serializePendingWrites output.taskId update
    if writes.isEmpty then (store, .ok ()) else cp.putWrites store env.config writes output.taskId
  | _, _ => (store, .ok ())

/-- The markers of a failure go to the checkpointer, for a run that resumes after a crash. -/
def persistMarkers (env : RunnerEnv S σ) (nodeName : String) (error : JunctureError)
    (markerId : Uuid) (store : σ) : σ × Except CheckpointError Unit :=
  match env.checkpointer with
  | some cp => cp.putWrites store env.config
      [⟨markerId, ERROR_SOURCE_NODE, .str nodeName⟩, ⟨markerId, ERROR, .str error.display⟩] markerId
  | none => (store, .ok ())

/-- The output of a task that returned a command. -/
def successOutput (task : PendingTask S) (command : Command S) : TaskOutput S :=
  { taskId := task.id, nodeName := task.nodeName, command, trigger := task.trigger }

/-- The output of a task that failed and has a recovery node. -/
def failedOutput (id : Uuid) (nodeName : String) (error : JunctureError) : TaskOutput S :=
  { taskId := id, nodeName, command := .default, trigger := .pull, error := some error }

/-! ### The inline path -/

/-- A record of one `interrupt!()` call. -/
structure InterruptCall where
  /-- Position of the task that made it. -/
  task : ℕ
  /-- How many calls the task had made before. -/
  ordinal : ℕ
  /-- The index it took from the shared counter. -/
  index : ℕ
deriving DecidableEq, Repr

/-- What the runner hands to the loop, with the state it leaves behind. -/
structure RunnerOutcome (S σ : Type) [State S] where
  /-- Result of the superstep. -/
  result : Except JunctureError (SuperstepResult S)
  /-- Signals waiting in the interrupt channel. -/
  signals : List InterruptSignal := []
  /-- The `interrupt!()` calls the interrupt context has seen. -/
  calls : List InterruptCall := []
  /-- The resume values they returned. -/
  delivered : List Json := []
  /-- The store. -/
  store : σ
  /-- Next fresh identifier. -/
  nextUuid : Uuid
  /-- The cancellation token. -/
  cancelled : Bool

/-- The inline path sets no task-local scope, so every `interrupt!()` call fails. -/
def NodeProg.runInline : NodeProg S → Except JunctureError (Command S)
  | done r => r
  | interrupt _ _ k => (k (.error (.execution "interrupt context not set in task-local"))).runInline
  | readLocals k => (k {}).runInline
  | backoff _ k => k.runInline

/-- What the inline path makes of the result of its node. -/
def settleInline (env : RunnerEnv S σ) (task : PendingTask S) (store : σ) (nextUuid : Uuid) :
    Except JunctureError (Command S) → RunnerOutcome S σ
  | .error e => { result := .error e, store, nextUuid, cancelled := true }
  | .ok command =>
    let output := successOutput task command
    match persistWrites env output store with
    | (store, .error e) =>
      { result := .error (.ofCheckpointError e), store, nextUuid, cancelled := false }
    | (store, .ok ()) =>
      { result := .ok { taskOutputs := [output] }, store, nextUuid, cancelled := false }

/-- `try_execute_single_task_inline`, once it has decided to run the task. -/
def executeInline (env : RunnerEnv S σ) (state : S) (task : PendingTask S) (store : σ)
    (nextUuid : Uuid) (cancelled : Bool) : RunnerOutcome S σ :=
  match env.nodeCall state task with
  | .error e => { result := .error e, store, nextUuid, cancelled }
  | .ok p =>
    if cancelled then { result := .error taskCancelled, store, nextUuid, cancelled }
    else settleInline env task store nextUuid p.runInline

/-! ### The spawned path -/

/-- Where a spawned task is. -/
inductive TaskPhase (S : Type) [State S] where
  /-- Waiting for a concurrency permit. -/
  | waiting (p : NodeProg S)
  /-- Inside its node. -/
  | running (p : NodeProg S)
  /-- Inside an `interrupt!()` call that found no resume value. -/
  | sending (signal : InterruptSignal) (p : NodeProg S)
  /-- Returned, or dropped. -/
  | finished

/-- The task holds a permit. -/
def TaskPhase.active : TaskPhase S → Bool
  | running _ | sending _ _ => true
  | _ => false

/-- A superstep in progress. -/
structure Superstep (S σ : Type) [State S] where
  /-- Where each task is, by position. -/
  phase : ℕ → TaskPhase S
  /-- A task whose node does not exist: spawning stopped there. -/
  spawnError : Option JunctureError
  /-- `current_index`. -/
  currentIndex : ℕ := 0
  /-- What has been sent on the interrupt channel. -/
  signals : List InterruptSignal := []
  /-- The `interrupt!()` calls so far. -/
  calls : List InterruptCall := []
  /-- The tasks that went into another attempt, each with the error of the last one. -/
  retried : List (ℕ × JunctureError) := []
  /-- What the tasks returned, in completion order. -/
  completed : List (ℕ × Except JunctureError (Command S)) := []
  /-- How many of them have been joined. -/
  joined : ℕ := 0
  /-- `task_outputs`. -/
  outputs : List (TaskOutput S) := []
  /-- The store. -/
  store : σ
  /-- Next fresh identifier. -/
  nextUuid : Uuid
  /-- The cancellation token. -/
  cancelled : Bool
  /-- The error the superstep ends with. -/
  failure : Option JunctureError := none

/-- One move. -/
inductive Choice where
  /-- The task at a position moves on. -/
  | step (i : ℕ)
  /-- The task sees the cancellation. -/
  | abort (i : ℕ)
  /-- The run timeout of the task expires. -/
  | runTimeout (i : ℕ)
  /-- The idle timeout of the task expires. -/
  | idleTimeout (i : ℕ)
  /-- The collector joins the next completed task. -/
  | join
  /-- The run is cancelled from outside. -/
  | cancel
deriving DecidableEq

/-- What the tasks of one superstep are run with. -/
structure SpawnEnv (S σ : Type) [State S] extends RunnerEnv S σ where
  /-- The pending tasks. -/
  tasks : List (PendingTask S)
  /-- The resume vector. -/
  resumeValues : List (Option Json)

namespace Superstep

/-- Move task `i` to another phase. -/
def setPhase (e : Superstep S σ) (i : ℕ) (ph : TaskPhase S) : Superstep S σ :=
  { e with phase := fun j => if j = i then ph else e.phase j }

/-- Task `i` returns. -/
def complete (e : Superstep S σ) (i : ℕ) (r : Except JunctureError (Command S)) :
    Superstep S σ :=
  { e.setPhase i .finished with completed := e.completed ++ [(i, r)] }

/-- The superstep fails: the token is cancelled and the other tasks are shut down. -/
def fail (e : Superstep S σ) (store : σ) (err : JunctureError) : Superstep S σ :=
  { e with store, cancelled := true, failure := some err }

/-- The number of permits in use. -/
def activeCount (e : Superstep S σ) (n : ℕ) : ℕ := (List.range n).countP fun i => (e.phase i).active

/-- How many calls task `i` has made. -/
def made (e : Superstep S σ) (i : ℕ) : ℕ := e.calls.countP fun c => c.task == i

/-- `next_index`, called by task `i`. -/
def nextIndex (e : Superstep S σ) (i : ℕ) : Superstep S σ :=
  { e with
    currentIndex := e.currentIndex + 1
    calls := e.calls ++ [{ task := i, ordinal := e.made i, index := e.currentIndex }] }

/-- The signal of an `interrupt!()` call that finds no resume value. -/
def unansweredSignal [InterruptHash] (index : ℕ) (payload : Json) (id : Option String) :
    InterruptSignal :=
  { index, id := some (id.getD (generateInterruptId "current_node" index)), payload }

/-- `send_interrupt`, called by task `i`, which then moves on with `p`. -/
def sendInterrupt (e : Superstep S σ) (i : ℕ) (signal : InterruptSignal) (p : NodeProg S) :
    Superstep S σ :=
  { e.setPhase i (.running p) with signals := e.signals ++ [signal] }

/-- Task `i` goes into another attempt. -/
def nextAttempt (e : Superstep S σ) (i : ℕ) (error : JunctureError) (p : NodeProg S) :
    Superstep S σ :=
  { e.setPhase i (.running p) with retried := e.retried ++ [(i, error)] }

variable [InterruptHash] (env : SpawnEnv S σ)

/-- `__interrupt_impl`, up to the point where the signal is sent. -/
def interruptCall (e : Superstep S σ) (i : ℕ) (payload : Json) (id : Option String)
    (k : Except JunctureError Json → NodeProg S) : Superstep S σ :=
  let index := e.currentIndex
  match getResumeValue env.resumeValues index with
  | some value => (e.nextIndex i).setPhase i (.running (k (.ok value)))
  | none => (e.nextIndex i).setPhase i
      (.sending (unansweredSignal index payload id) (k (.error (.interrupted index))))

/-- Task `i`, which is inside its node, moves on. -/
def advance (e : Superstep S σ) (i : ℕ) : NodeProg S → Superstep S σ
  | .done r => e.complete i r
  | .readLocals k => e.setPhase i (.running (k env.locals))
  | .backoff error k => e.nextAttempt i error k
  | .interrupt payload id k => e.interruptCall env i payload id k

/-- Task `i` moves on. -/
def stepTask (e : Superstep S σ) (i : ℕ) : Superstep S σ :=
  match e.phase i with
  | .waiting p =>
    if e.activeCount env.tasks.length < max env.config.maxParallelTasks 1 then
      if e.cancelled then e.complete i (.error taskCancelled) else e.setPhase i (.running p)
    else e
  | .running p => e.advance env i p
  | .sending signal p => e.sendInterrupt i signal p
  | .finished => e

/-- Task `i` is dropped inside its node and returns an error instead; not while it is inside an
`interrupt!()` call, which has no await point. -/
def cutShort (e : Superstep S σ) (i : ℕ) (error : Option JunctureError) : Superstep S σ :=
  match e.phase i, error with
  | .running _, some error => e.complete i (.error error)
  | _, _ => e

/-- The timeout policy of task `i`. -/
def timeoutPolicy (i : ℕ) : Option (String × TimeoutPolicy) :=
  env.tasks[i]?.bind fun t => (env.timeoutPolicies.lookup t.nodeName).map fun p => (t.nodeName, p)

/-- The collector handles what a task returned. -/
def collect (e : Superstep S σ) (task : PendingTask S) :
    Except JunctureError (Command S) → Superstep S σ
  | .ok command =>
    let output := successOutput task command
    match persistWrites env.toRunnerEnv output e.store with
    | (store, .ok ()) => { e with store, outputs := e.outputs ++ [output] }
    | (store, .error err) => e.fail store (.ofCheckpointError err)
  | .error error =>
    if env.recovers task.nodeName then
      let fresh := if env.checkpointer.isSome then e.nextUuid + 1 else e.nextUuid
      match persistMarkers env.toRunnerEnv task.nodeName error e.nextUuid e.store with
      | (store, .ok ()) =>
        { e with
          store
          nextUuid := fresh + 1
          outputs := e.outputs ++ [failedOutput fresh task.nodeName error] }
      | (store, .error err) => e.fail store (.ofCheckpointError err)
    else e.fail e.store error

/-- The collector's next move.  A task that could not be spawned ends the superstep before anything
is joined; dropping the `JoinSet` aborts the tasks that were. -/
def joinNext (e : Superstep S σ) : Superstep S σ :=
  match e.spawnError, e.completed[e.joined]? with
  | some err, _ => { e with failure := some err }
  | none, some (i, r) =>
    match env.tasks[i]? with
    | some task => { e with joined := e.joined + 1 }.collect env task r
    | none => e
  | none, none => e

/-- One move of the superstep; none after it has failed. -/
def step (e : Superstep S σ) (c : Choice) : Superstep S σ :=
  if e.failure.isSome then e
  else match c with
    | .step i => e.stepTask env i
    | .abort i => e.cutShort i (if e.cancelled then some taskCancelled else none)
    | .runTimeout i => e.cutShort i ((timeoutPolicy env i).map fun p =>
        .nodeTimeout (.runTimeout p.1 p.2.runTimeout))
    | .idleTimeout i => e.cutShort i ((timeoutPolicy env i).bind fun p =>
        p.2.idleTimeout.map fun t => .nodeTimeout (.idleTimeout p.1 t))
    | .join => e.joinNext env
    | .cancel => { e with cancelled := true }

/-! ### Letting the superstep end -/

/-- Task `i` moves until its program `p` returns. -/
def driveTask (i : ℕ) : NodeProg S → Superstep S σ → Superstep S σ
  | .done _, e => e.step env (.step i)
  | .readLocals k, e => driveTask i (k env.locals) (e.step env (.step i))
  | .backoff _ k, e => driveTask i k (e.step env (.step i))
  | .interrupt _ _ k, e =>
    match getResumeValue env.resumeValues e.currentIndex with
    | some value => driveTask i (k (.ok value)) (e.step env (.step i))
    | none => driveTask i (k (.error (.interrupted e.currentIndex)))
        ((e.step env (.step i)).step env (.step i))

/-- Task `i`, which is inside its node, moves until it has returned. -/
def leaveNode (e : Superstep S σ) (i : ℕ) : Superstep S σ :=
  match e.phase i with
  | .running p => if e.cancelled then e.step env (.abort i) else driveTask env i p e
  | _ => e

/-- Task `i` moves until it has returned.  One move gets a waiting or sending task (back) into its
node. -/
def finishTask (e : Superstep S σ) (i : ℕ) : Superstep S σ :=
  match e.phase i with
  | .waiting _ | .sending _ _ => (e.step env (.step i)).leaveNode env i
  | _ => e.leaveNode env i

/-- The collector joins every completed task. -/
def joinAll (e : Superstep S σ) : Superstep S σ :=
  (fun e => e.step env .join)^[e.completed.length - e.joined] e

/-- Task `i` returns, and the collector joins it. -/
def settleTask (e : Superstep S σ) (i : ℕ) : Superstep S σ := (e.finishTask env i).joinAll env

/-- Task `i` returns if it holds a permit. -/
def settleActive (e : Superstep S σ) (i : ℕ) : Superstep S σ :=
  if (e.phase i).active then e.settleTask env i else e

/-- What is left to do after a schedule: the tasks that hold a permit return, then the others. -/
def drain (e : Superstep S σ) : Superstep S σ :=
  let positions := List.range env.tasks.length
  let e := (e.step env .join).joinAll env
  positions.foldl (settleTask env) (positions.foldl (settleActive env) e)

end Superstep

/-- The programs of the tasks that can be spawned, and the error that stops the spawning. -/
def spawnTasks (env : RunnerEnv S σ) (state : S) :
    List (PendingTask S) → List (NodeProg S) × Option JunctureError
  | [] => ([], none)
  | task :: tasks =>
    match env.taskProg state task with
    | .error e => ([], some e)
    | .ok p => (p :: (spawnTasks env state tasks).1, (spawnTasks env state tasks).2)

/-- The superstep right after its tasks were spawned. -/
def Superstep.init (env : SpawnEnv S σ) (state : S) (store : σ) (nextUuid : Uuid)
    (cancelled : Bool) : Superstep S σ where
  phase i := match (spawnTasks env.toRunnerEnv state env.tasks).1[i]? with
    | some p => .waiting p
    | none => .finished
  spawnError := (spawnTasks env.toRunnerEnv state env.tasks).2
  store := store
  nextUuid := nextUuid
  cancelled := cancelled

section Run

variable [InterruptHash]

/-- The superstep after the given schedule, up to its end. -/
def runSpawned (env : SpawnEnv S σ) (state : S) (store : σ) (nextUuid : Uuid) (cancelled : Bool)
    (schedule : List Choice) : Superstep S σ :=
  (schedule.foldl (Superstep.step env) (.init env state store nextUuid cancelled)).drain env

/-- The resume values that the calls so far returned. -/
def Superstep.delivered (resumeValues : List (Option Json)) (e : Superstep S σ) : List Json :=
  e.calls.filterMap fun c => getResumeValue resumeValues c.index

/-- What the runner returns; a superstep that fails drops the interrupt channel. -/
def Superstep.outcome (resumeValues : List (Option Json)) (e : Superstep S σ) :
    RunnerOutcome S σ where
  result := match e.failure with
    | some err => .error err
    | none => .ok { taskOutputs := e.outputs }
  signals := if e.failure.isSome then [] else e.signals
  calls := e.calls
  delivered := e.delivered resumeValues
  store := e.store
  nextUuid := e.nextUuid
  cancelled := e.cancelled

/-- The spawned path of `execute_superstep`. -/
def executeSpawned (env : SpawnEnv S σ) (state : S) (store : σ) (nextUuid : Uuid)
    (cancelled : Bool) (schedule : List Choice) : RunnerOutcome S σ :=
  (runSpawned env state store nextUuid cancelled schedule).outcome env.resumeValues

/-- The task of a superstep that runs inline. -/
def inlineTask (env : RunnerEnv S σ) (tasks : List (PendingTask S)) : Option (PendingTask S) :=
  match tasks with
  | [task] => if env.needsSpawn task.nodeName then none else some task
  | _ => none

/-- `execute_superstep`. -/
def executeSuperstep (env : RunnerEnv S σ) (tasks : List (PendingTask S)) (state : S)
    (pendingInterrupts : List InterruptSignal) (scratchpad : Scratchpad) (store : σ)
    (nextUuid : Uuid) (cancelled : Bool) (schedule : List Choice) : RunnerOutcome S σ :=
  if tasks.isEmpty then { result := .ok {}, store, nextUuid, cancelled }
  else match inlineTask env tasks with
    | some task => executeInline env state task store nextUuid cancelled
    | none =>
      let resumeValues :=
        matchResumeToInterrupts env.config.resumeValue pendingInterrupts scratchpad
      executeSpawned { env with tasks, resumeValues } state store nextUuid cancelled schedule

end Run

end Juncture
