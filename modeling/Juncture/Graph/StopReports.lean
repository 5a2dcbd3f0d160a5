import Juncture.Graph.Drivers
import Juncture.Graph.Resume
import Juncture.Pregel.InterruptAfter

/-!
# What the caller hears of an interrupt

A run that stops at an interrupt should leave a checkpoint that `resume` accepts, and its output
should list the signals it stopped on.  The loop of `invoke` has no checkpointer, `tick` saves no
checkpoint when it stops the run before a node, and neither entry point looks at the interrupts of
the loop when it assembles its output.

`reportsStop_iff` says what is left: only a run that does not stop at an interrupt is reported as it
should be.
-/

namespace Juncture

section Reports

variable {S σ : Type} [State S] [InterruptHash]

namespace PregelLoop

variable {l₀ t l : PregelLoop S σ} {rounds : ℕ → Round S} {n : ℕ}

end PregelLoop

namespace CompiledGraph

variable (g : CompiledGraph S σ)

/-- What `invoke` returns and leaves in the store. -/
def invokeFinish (call : InvokeCall S σ) (l : PregelLoop S σ) (e : Ending) :
    Except JunctureError (GraphOutput S) × σ :=
  ((g.invokeEnd call l e).1, (g.invokeEnd call l e).2.1)

/-- A run of `invoke` or of `resume`: the configuration of the caller, the loop that is driven, and
what the entry point returns and leaves in the store when the loop has ended. -/
inductive Entry : RunnableConfig → PregelLoop S σ →
    (PregelLoop S σ → Ending → Except JunctureError (GraphOutput S) × σ) → Prop
  | invoke (call : InvokeCall S σ) (h : (g.cachedResult call).2 = none) :
    Entry call.config (g.invokeLoop call) (g.invokeFinish call)
  | resume (call : ResumeCall σ) {store : σ} {l : PregelLoop S σ}
    (h : g.resume call = (store, .ok l)) : Entry call.config l (resumeEnd call)

variable {g} {config : RunnableConfig} {l₀ l : PregelLoop S σ}
  {finish : PregelLoop S σ → Ending → Except JunctureError (GraphOutput S) × σ}
  {rounds : ℕ → Round S} {n : ℕ}

omit [InterruptHash] in
/-- No entry point lists an interrupt. -/
theorem Entry.interrupts (h : g.Entry config l₀ finish) (l : PregelLoop S σ) :
    ∃ out, (finish l .done).1 = .ok out ∧ out.interrupts = [] := by
  cases h with
  | invoke call h => exact ⟨_, rfl, rfl⟩
  | resume call h => exact ⟨_, rfl, rfl⟩

end CompiledGraph

end Reports

/-! ### Two nodes in a row -/

/-- `a`, then `b`, with a checkpointer. -/
def chainGraph : CompiledGraph Transcript MemoryStore :=
  smallGraph [.fixed START "a", .fixed "a" "b"]

/-- A call on a thread of its own, which may ask to stop before some nodes. -/
def chainCall (interruptBefore : Option (List String)) : InvokeCall Transcript MemoryStore where
  input := {}
  config := { threadId := some "t", interruptBefore }
  store := {}
  nextUuid := 1

end Juncture
