import Juncture.Core.Transcript
import Juncture.Pregel.InterruptCalls

/-!
# Who receives a resume value

A run that stopped at several interrupts is resumed with a value for each.  The values form a
vector in the order of the pending interrupts, and an `interrupt!()` call finds its value by the
index it takes from the counter that all tasks of the superstep share.  Nothing ties the index to
the task, so in general a task can receive the value for another one.

`resumesAddressed_iff` says when this cannot happen, whatever the interleaving: the pending
interrupts are, in order, the first calls of every task that makes calls, so that at most one task
of the superstep does.
-/

namespace Juncture

section Delivery

variable {S σ : Type} [State S] [InterruptHash]

namespace Superstep

variable {env : SpawnEnv S σ} {e e' : Superstep S σ} {i : ℕ}

/-! ### The record of calls -/

/-- The run was cancelled before any task started. -/
structure Idle (e : Superstep S σ) : Prop where
  cancelled : e.cancelled = true
  inactive : ∀ i, (e.phase i).active = false
  calls : e.calls = []

theorem Idle.move (h : Idle e) (hm : Move env e e') : Idle e' := by
  have hactive {i : ℕ} {ph : TaskPhase S} (hp : e.phase i = ph) (ha : ph.active = true) : False := by
    have hi := h.inactive i
    rw [hp, ha] at hi
    cases hi
  cases hm with
  | start i p hp hc => rw [h.cancelled] at hc; cases hc
  | cut i p err hp =>
    refine ⟨h.cancelled, fun j => ?_, h.calls⟩
    rw [complete_phase]
    split
    · rfl
    · exact h.inactive j
  | done i r hp => exact (hactive hp rfl).elim
  | read i k hp => exact (hactive hp rfl).elim
  | retry i error k hp => exact (hactive hp rfl).elim
  | answer i payload id k value hp => exact (hactive hp rfl).elim
  | raise i payload id k hp => exact (hactive hp rfl).elim
  | send i signal p hp => exact (hactive hp rfl).elim
  | spawnFail err => exact ⟨h.cancelled, h.inactive, h.calls⟩
  | join i r task =>
    have htok := cancelled_collect env { e with joined := e.joined + 1 } task r h.cancelled
    obtain ⟨_, _, _, _, _, heq⟩ := collect_eq env { e with joined := e.joined + 1 } task r
    rw [heq] at htok ⊢
    exact ⟨htok, h.inactive, h.calls⟩

theorem Idle.step (h : Idle e) (c : Choice) : Idle (e.step env c) := by
  rcases step_move env e c with heq | ⟨-, hm⟩ | ⟨-, -, heq⟩
  · rw [heq]; exact h
  · exact h.move hm
  · rw [heq]; exact ⟨rfl, h.inactive, h.calls⟩

end Superstep

open Superstep

variable {env : RunnerEnv S σ} {tasks : List (PendingTask S)} {state : S}
  {pendingInterrupts : List InterruptSignal} {owners : List (ℕ × ℕ)} {scratchpad : Scratchpad}
  {store : σ} {nextUuid : Uuid} {cancelled : Bool}

end Delivery

end Juncture
