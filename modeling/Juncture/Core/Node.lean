import Juncture.Core.Command

/-!
# Nodes as programs

A node is an async function `&S -> Result<Command<S>, JunctureError>`.  The engine sees of it only
the points where it touches something shared: an `interrupt!()` call, which goes through the
interrupt context of the superstep, and a read of the task-local scopes the runner sets up.  Between
two such points the node is its own affair, so a node behaviour is an interaction tree.

`executeWithRetry` is the retry wrapper of the builder: it runs the same program again, in the same
scopes, so that the interrupt counter of the superstep keeps counting across attempts.
-/

namespace Juncture

/-- The task-local scopes a node can read.  The outer `none` means that the scope is not set. -/
structure TaskLocals where
  /-- `PREVIOUS`. -/
  previous : Option (Option Json) := none
  /-- `TASK_CACHE_POLICY`. -/
  taskCachePolicy : Option (Option CachePolicy) := none
  /-- `LLM_CACHE_POLICY`. -/
  llmCachePolicy : Option (Option CachePolicy) := none
deriving DecidableEq

/-- The behaviour of a node on a given state. -/
inductive NodeProg (S : Type) [State S] where
  /-- Return a command or an error. -/
  | done (r : Except JunctureError (Command S))
  /-- `interrupt!(id, payload).await`; the continuation receives the call's result. -/
  | interrupt (payload : Json) (id : Option String) (k : Except JunctureError Json → NodeProg S)
  /-- Read the task-locals. -/
  | readLocals (k : TaskLocals → NodeProg S)
  /-- The pause of the retry wrapper before another attempt, after the error of the last one. -/
  | backoff (error : JunctureError) (k : NodeProg S)

namespace NodeProg

variable {S : Type} [State S]

/-- Run `p`, then continue with its result. -/
def bind (p : NodeProg S) (f : Except JunctureError (Command S) → NodeProg S) : NodeProg S :=
  match p with
  | done r => f r
  | interrupt payload id k => interrupt payload id fun v => (k v).bind f
  | readLocals k => readLocals fun l => (k l).bind f
  | backoff error k => backoff error (k.bind f)

/-- `interrupt!(..).await?`: an error of the call is returned by the node. -/
def interruptTry (payload : Json) (id : Option String) (k : Json → NodeProg S) : NodeProg S :=
  interrupt payload id fun r =>
    match r with
    | .ok v => k v
    | .error e => done (.error e)

end NodeProg

/-- `Node<S>`. -/
structure Node (S : Type) [State S] where
  /-- `call(state, config)`. -/
  call : S → RunnableConfig → NodeProg S

/-! ### Retry -/

/-- `RetryPolicy`, without the delays between attempts. -/
structure RetryPolicy where
  /-- Attempts, the first one included. -/
  maxAttempts : ℕ := 3
  /-- Custom predicate on the error. -/
  retryOn : Option (JunctureError → Bool) := none

/-- `RetryPolicy::should_retry`: cancellations and interrupts are not retried by default. -/
def RetryPolicy.shouldRetry (p : RetryPolicy) (e : JunctureError) : Bool :=
  match p.retryOn with
  | none => !e.isCancelled && !e.isInterrupt
  | some predicate => predicate e

/-- The attempts of `execute_with_retry` that are left; `lastError` is the error of the previous
attempt. -/
def retryAttempts {S : Type} [State S] (nodeName : String) (policy : RetryPolicy)
    (operation : NodeProg S) : ℕ → Option JunctureError → NodeProg S
  | 0, lastError => .done (.error (lastError.getD
      (.execution s!"node '{nodeName}': retry policy exhausted with no error recorded")))
  | left + 1, _ => operation.bind fun r =>
    match r with
    | .ok command => .done (.ok command)
    | .error e =>
      if !policy.shouldRetry e || left == 0 then .done (.error e)
      else .backoff e (retryAttempts nodeName policy operation left (some e))

/-- `execute_with_retry`. -/
def executeWithRetry {S : Type} [State S] (nodeName : String) (policy : RetryPolicy)
    (operation : NodeProg S) : NodeProg S :=
  retryAttempts nodeName policy operation policy.maxAttempts none

/-- `TimeoutPolicy`, in milliseconds. -/
structure TimeoutPolicy where
  /-- Bound on the whole execution, retries included. -/
  runTimeout : ℕ
  /-- Bound on the time between two heartbeats. -/
  idleTimeout : Option ℕ := none
deriving DecidableEq, Repr

end Juncture
