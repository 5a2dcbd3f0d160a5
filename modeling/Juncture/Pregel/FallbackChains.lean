import Juncture.Pregel.FailedOutputs
import Juncture.Pregel.Frames

/-!
# Chains of fallbacks

A failed task whose node has a fallback leads to a task of the fallback in the next superstep, which
may fail in its turn.  `schedule_fallback_tasks` refuses a node that is its own fallback, and a
fallback whose own fallback has been scheduled in the same superstep.  The second test never sees a
chain, whose failures lie in different supersteps, so what keeps a chain from coming back to a node
is the fallback map alone.

* `fallsBack_step` : one link of a chain is a step in the fallback map.
* `visitsOnce_of_acyclic` : without a cycle in the map, a chain visits each node at most once.
-/

namespace Juncture

namespace PregelLoop

variable {S σ : Type} [State S]

/-- The fallback map leads from one node to another one of the graph. -/
def FallbackStep (l : PregelLoop S σ) (a b : String) : Prop :=
  l.fallbackMap.lookup a = some b ∧ b ∈ l.nodes ∧ b ≠ a

/-- The fallback map has no cycle of two or more nodes of the graph. -/
def FallbacksAcyclic (l : PregelLoop S σ) : Prop := ∀ a, ¬ Relation.TransGen l.FallbackStep a a

variable [InterruptHash] {l₀ : PregelLoop S σ} {rounds : ℕ → Round S}

/-- In superstep `n` a task of node `a` fails, and node `b` is scheduled as its fallback. -/
def FallsBack (l₀ : PregelLoop S σ) (rounds : ℕ → Round S) (n : ℕ) (a b : String) : Prop :=
  ∃ l₁ result l, l₀.TurnAt rounds n l₁ result l ∧
    ∃ pre o post, executedOutputs result.taskOutputs = pre ++ o :: post ∧ Failed o ∧
      o.nodeName = a ∧ (recoveryFor (l₁.committed result).scheduleEnv pre o post).1 = some b

/-- A chain of failures from superstep `m` on: each node but the last one fails, and the next one is
its fallback. -/
def FailureChain (l₀ : PregelLoop S σ) (rounds : ℕ → Round S) (m : ℕ) (c : ℕ → String) (k : ℕ) :
    Prop :=
  ∀ i < k, l₀.FallsBack rounds (m + i) (c i) (c (i + 1))

/-- Along the run, a chain of failures visits each node at most once. -/
def VisitsOnce (l₀ : PregelLoop S σ) (rounds : ℕ → Round S) : Prop :=
  ∀ m c k, l₀.FailureChain rounds m c k → ∀ i j, i < j → j ≤ k → c i ≠ c j

/-- **A link of a chain is a step in the fallback map.** -/
theorem fallsBack_step {n : ℕ} {a b : String} (h : l₀.FallsBack rounds n a b) :
    l₀.FallbackStep a b := by
  obtain ⟨l₁, result, l, hturn, pre, o, post, -, -, rfl, hfallback⟩ := h
  have hfixed := hturn.fixed
  obtain ⟨t, -, -, ha⟩ := hturn
  rw [(fixed_committed _ _).scheduleEnv, hfixed.scheduleEnv] at hfallback
  obtain ⟨-, hlookup, hmem, hne, -⟩ := fallbackFor_eq_some_iff.1 hfallback
  exact ⟨hlookup, hmem, hne⟩

/-- A chain follows the fallback map. -/
theorem transGen_of_chain {m k : ℕ} {c : ℕ → String} (h : l₀.FailureChain rounds m c k) {i j : ℕ}
    (hij : i < j) (hjk : j ≤ k) : Relation.TransGen l₀.FallbackStep (c i) (c j) := by
  induction j, hij using Nat.le_induction with
  | base => exact .single (fallsBack_step (h i hjk))
  | succ j hij ih => exact (ih (by omega)).tail (fallsBack_step (h j hjk))

/-- **Without a cycle in the map, a chain visits each node at most once.** -/
theorem visitsOnce_of_acyclic (h : l₀.FallbacksAcyclic) : l₀.VisitsOnce rounds := by
  intro m c k hchain i j hij hjk heq
  have hstep := transGen_of_chain hchain hij hjk
  rw [← heq] at hstep
  exact h (c i) hstep

end PregelLoop

/-! ### Small maps -/

/-- A node that fails. -/
def failing : Node Transcript := ⟨fun _ _ => .done (.error (.execution "down"))⟩

/-- `a` and `b` fail, with the given fallbacks. -/
def fallingBack (fallbackMap : List (String × String)) : PregelLoop Transcript Unit :=
  { PregelLoop.withErrorHandlers {} (Dict.ofList [("b", failing), ("a", failing)])
      (buildTriggerTable [.fixed START "a"]) {} 64 ∅ () 0 with
    fallbackMap := Dict.ofList fallbackMap }

/-- `a` and `b` are each other's fallback. -/
def alternating : PregelLoop Transcript Unit := fallingBack [("a", "b"), ("b", "a")]

/-- The failures of `alternating` come back to `a` in the third superstep. -/
theorem alternating_not_visitsOnce : ¬ alternating.VisitsOnce undisturbed := by
  have hfirst : alternating.FallsBack undisturbed 0 "a" "b" :=
    ⟨_, _, _, ⟨_, rfl, rfl, rfl⟩, [], _, [], rfl, ⟨rfl, rfl⟩, rfl, rfl⟩
  have hsecond : alternating.FallsBack undisturbed 1 "b" "a" :=
    ⟨_, _, _, ⟨_, rfl, rfl, rfl⟩, [], _, [], rfl, ⟨rfl, rfl⟩, rfl, rfl⟩
  intro h
  refine h 0 (fun i => if i = 1 then "b" else "a") 2 ?_ 0 2 (by omega) le_rfl rfl
  intro i hi
  obtain rfl | rfl : i = 0 ∨ i = 1 := by omega
  · exact hfirst
  · exact hsecond

/-- With `b` as the last resort, there is no way back. -/
theorem visitsOnce_of_acyclic_lastResort : (fallingBack [("a", "b")]).VisitsOnce undisturbed := by
  refine PregelLoop.visitsOnce_of_acyclic fun x hx => ?_
  have hstep : ∀ y z, (fallingBack [("a", "b")]).FallbackStep y z → y = "a" ∧ z = "b" := by
    intro y z h
    have hlookup : ((∅ : Dict String).insert "a" "b").lookup y = some z := h.1
    by_cases hy : y = "a"
    · rw [hy, AList.lookup_insert] at hlookup
      exact ⟨hy, (Option.some.inj hlookup).symm⟩
    · rw [AList.lookup_insert_ne hy, AList.lookup_empty] at hlookup
      cases hlookup
  obtain ⟨y, hy, -⟩ := Relation.TransGen.head'_iff.1 hx
  obtain ⟨z, -, hz⟩ := Relation.TransGen.tail'_iff.1 hx
  exact absurd ((hstep x y hy).1.symm.trans (hstep z x hz).2) (by decide)

end Juncture
