import Juncture.Graph.Resume
import Juncture.Pregel.Frames

/-!
# The step budget

A budget with `max_steps = N` should let a run execute at most `N` supersteps.  `tick` asks the
tracker before each superstep, and the tracker compares strictly: with `N` steps completed the
budget is not exceeded yet.  Moreover, a superstep that halts the run is not reported.

So the limit itself never keeps superstep `N` (counted from `0`) from being executed
(`stepBudget_iff`): either something else ends the run by then, or one superstep too many is run.

* `tally_turn` : a turn reports at most one step.
* `stepsCompleted_le` : after `n` supersteps, at most `n` steps are reported.
-/

namespace Juncture

/-! ### The tracker -/

/-- The tracker without its step limit. -/
def BudgetTracker.withoutSteps (t : BudgetTracker) : BudgetTracker :=
  { t with config := { t.config with maxSteps := none } }

/-- The step limit is checked after the others, and is exceeded only by more steps than it allows. -/
theorem BudgetTracker.check_eq_none_iff (t : BudgetTracker) (now : ℕ) :
    t.check now = none ↔ t.withoutSteps.check now = none ∧
      ∀ m, t.config.maxSteps = some m → t.stepsCompleted ≤ m := by
  have hsteps : ∀ limit : Option ℕ, (limit.bind fun m =>
      if m < t.stepsCompleted then some (BudgetExceededReason.steps t.stepsCompleted m)
      else none) = none ↔ ∀ m, limit = some m → t.stepsCompleted ≤ m := by
    intro limit
    cases limit with
    | none => simp
    | some m =>
      by_cases h : m < t.stepsCompleted
      · simp [h]
      · simp [h, Nat.not_lt.1 h]
  simp only [check, withoutSteps, Option.or_eq_none_iff, hsteps, Option.bind_none]
  tauto

namespace PregelLoop

section Steps

variable {S σ : Type} [State S] {l l' k : PregelLoop S σ}

/-- The limit on steps and the number of steps reported. -/
def tally (l : PregelLoop S σ) : Option (Option ℕ × ℕ) :=
  l.budgetTracker.map fun t => (t.config.maxSteps, t.stepsCompleted)

/-- One more step. -/
def oneMore (t : Option (Option ℕ × ℕ)) : Option (Option ℕ × ℕ) := t.map fun p => (p.1, p.2 + 1)

theorem tally_outside (l : PregelLoop S σ) (round : Round S) :
    (l.outside round).tally = l.tally := by
  obtain ⟨_, _, h⟩ := l.outside_eq round
  rw [h]
  rfl

theorem tally_prepare (l : PregelLoop S σ) : l.prepare.1.tally = l.tally := by
  unfold prepare
  split
  · rfl
  · dsimp only [checkCircuitBreakers]
    split_ifs <;> rfl

theorem Saved.tally (h : l.Saved l') : l'.tally = l.tally := by
  obtain ⟨_, _, _, _, _, _, rfl⟩ := h
  rfl

theorem tally_finishAllChannels (l : PregelLoop S σ) : l.finishAllChannels.tally = l.tally := by
  unfold finishAllChannels
  split <;> rfl

/-- The exits that stop the run report no step. -/
theorem tally_stop (h : l.stop = (l', .ok ())) : l'.tally = l.tally := by
  obtain ⟨k, hk, rfl⟩ := saved_of_stop h
  rw [tally_finishAllChannels, hk.tally]

/-- The other exit reports one. -/
theorem tally_countStep (l : PregelLoop S σ) : l.countStep.tally = oneMore l.tally := by
  obtain ⟨k, hk, heq⟩ := l.saved_of_countStep
  have htally : k.tally = l.tally := by
    obtain rfl | hk := hk
    · rfl
    · rw [hk.tally, tally_finishAllChannels]
  rw [heq, ← htally]
  cases ht : k.budgetTracker with
  | none => simp [PregelLoop.tally, oneMore, ht]
  | some t => simp [PregelLoop.tally, oneMore, ht, BudgetTracker.reportStep]

theorem tally_reported (l : PregelLoop S σ) (bubbleUps : List (BubbleUp S)) :
    (l.reported bubbleUps).1.tally = l.tally := by
  obtain ⟨_, _, _, _, heq⟩ := l.reported_eq bubbleUps
  rw [heq]
  rfl

variable [InterruptHash] {round : Round S} {result : SuperstepResult S}

theorem tally_executeSuperstep (l : PregelLoop S σ) (round : Round S) :
    (l.executeSuperstep round).1.tally = l.tally := by
  -- The nodes report tokens and costs, not steps.
  have hreport : ∀ k : PregelLoop S σ, (k.report round).tally = k.tally := by
    intro k
    simp [PregelLoop.tally, report, Option.map_map, Function.comp_def]
  have hrun : ∀ (k : PregelLoop S σ) (blocked : List (TaskOutput S)),
      (k.runPrepared round blocked).1.tally = k.tally := by
    intro k blocked
    unfold runPrepared
    dsimp only
    split
    · exact hreport (k.absorb (k.runTasks round))
    · exact hreport (k.absorb (k.runTasks round))
  have hprep := l.tally_prepare
  unfold executeSuperstep andThen
  split
  · rename_i k blocked hk
    rw [hk] at hprep
    exact (hrun k blocked).trans hprep
  · rename_i k e hk
    rw [hk] at hprep
    exact hprep

/-- `after_tick` reports the step or stops the run. -/
theorem tally_afterTick (h : l.afterTick result = (l', .ok ())) :
    l'.tally = l.tally ∨ l'.tally = oneMore l.tally := by
  obtain ⟨tasks, k, -, hk, hf⟩ := afterTick_advanced h
  have hk : k.tally = l.tally := by
    obtain ⟨_, _, _, _, _, _, rfl⟩ := hk
    rfl
  rw [← hk]
  have hrep := k.tally_reported result.bubbleUps
  obtain ⟨signals, -, -, hstop⟩ | ⟨-, ⟨-, hstop⟩ | ⟨-, ⟨signals, -, hstop⟩ | ⟨-, rfl⟩⟩⟩ :=
    finishTick_cases hf
  · exact .inl ((tally_stop hstop).trans rfl)
  · exact .inl ((tally_stop hstop).trans hrep)
  · exact .inl ((tally_stop hstop).trans hrep)
  · exact .inr ((tally_countStep _).trans (by rw [hrep]))

/-- **A turn reports at most one step.** -/
theorem tally_turn (h : l.turn round = some l') :
    l'.tally = l.tally ∨ l'.tally = oneMore l.tally := by
  obtain ⟨l₁, result, hs, ha⟩ := turn_eq_some_iff.1 h
  obtain ⟨-, r, hexec, -⟩ := superstep_eq_some_iff.1 hs
  have hran := (l.outside round).tally_executeSuperstep round
  rw [hexec, tally_outside] at hran
  rw [← hran]
  exact tally_afterTick ha

/-! ### Runs -/

variable {l₀ t : PregelLoop S σ} {rounds : ℕ → Round S} {tracker : BudgetTracker} {N n : ℕ}

/-- **After `n` supersteps at most `n` steps are reported.** -/
theorem stepsCompleted_le (ht : l₀.budgetTracker = some tracker)
    (hfresh : tracker.stepsCompleted = 0) (hmax : tracker.config.maxSteps = some N)
    (h : l₀.head rounds n = some t) :
    ∃ m ≤ n, t.tally = some (some N, m) := by
  refine Machine.trace_invariant (I := fun n t => ∃ m ≤ n, t.tally = some (some N, m)) ?_ ?_ h
  · exact ⟨0, le_rfl, by simp [tally, ht, hfresh, hmax]⟩
  · rintro n t u _ ⟨m, hm, htally⟩ hturn
    obtain heq | heq := tally_turn hturn
    · exact ⟨m, by omega, heq.trans htally⟩
    · exact ⟨m + 1, by omega, by rw [heq, htally]; rfl⟩

/-- Superstep `n` of the run, counted from `0`, is executed: `tick` lets the driver go on. -/
def Executes (l₀ : PregelLoop S σ) (rounds : ℕ → Round S) (n : ℕ) : Prop :=
  ∃ t, l₀.head rounds n = some t ∧ (t.outside (rounds n)).tick.2 = .ok true

/-- Something else than the step budget ends the run at the tick: the recursion limit, a
cancellation, another limit of the budget, nothing left to do, or an interrupt. -/
def StopsAnyway (l : PregelLoop S σ) : Prop :=
  l.runnableConfig.recursionLimit ≤ l.step ∨ l.cancelled = true ∨
    (∃ t, l.budgetTracker = some t ∧ t.withoutSteps.check l.now ≠ none) ∨
    l.pendingTasks = [] ∨ l.interruptBefore ≠ none

/-- As long as no more steps are reported than allowed, the tick goes on unless something else stops
the run. -/
theorem tick_eq_true_iff {m : ℕ} (htally : l.tally = some (some N, m)) (hm : m ≤ N) :
    l.tick.2 = .ok true ↔ ¬ l.StopsAnyway := by
  obtain ⟨tracker, ht, hpair⟩ := Option.map_eq_some_iff.1 htally
  simp only [Prod.mk.injEq] at hpair
  obtain ⟨hmax, rfl⟩ := hpair
  have hbudget : l.budgetExceeded = none ↔ tracker.withoutSteps.check l.now = none := by
    unfold budgetExceeded
    rw [ht, Option.bind_some, BudgetTracker.check_eq_none_iff]
    refine and_iff_left fun m hm' => ?_
    rw [hmax, Option.some.injEq] at hm'
    omega
  have hgo : l.GoesOn ↔ ¬ l.StopsAnyway := by
    unfold StopsAnyway
    rw [ht]
    simp only [Option.some.injEq, exists_eq_left', not_or, not_not, Nat.not_le, Bool.not_eq_true,
      ← hbudget]
    constructor
    · exact fun h => ⟨h.limit, h.cancelled, h.budget, h.pending, h.interrupt⟩
    · exact fun ⟨hl, hc, hb, hp, hi⟩ => ⟨hl, hc, hb, hp, hi⟩
  rw [← hgo]
  exact ⟨goesOn_of_tick, fun h => by rw [tick_of_goesOn h]⟩

/-- A superstep is executed only after all the earlier ones. -/
theorem Executes.of_le {m : ℕ} (h : l₀.Executes rounds m) (hn : n ≤ m) : l₀.Executes rounds n := by
  obtain rfl | hlt := Nat.eq_or_lt_of_le hn
  · exact h
  obtain ⟨t, ht, -⟩ := h
  obtain ⟨u, hu⟩ := Machine.exists_of_le ht hlt
  obtain ⟨s, hs, hturn⟩ := Machine.trace_succ_eq_some_iff.1 hu
  obtain ⟨l₁, result, hsuper, -⟩ := turn_eq_some_iff.1 hturn
  refine ⟨s, hs, ?_⟩
  rw [tick_of_goesOn (superstep_eq_some_iff.1 hsuper).1]

/-- **When the step budget is kept**: a run executes at most `N` supersteps exactly when, after `N`
of them, something else than the budget of steps ends it. -/
theorem stepBudget_iff (ht : l₀.budgetTracker = some tracker) (hfresh : tracker.stepsCompleted = 0)
    (hmax : tracker.config.maxSteps = some N) :
    (∀ n, l₀.Executes rounds n → n < N) ↔
      ∀ t, l₀.head rounds N = some t → (t.outside (rounds N)).StopsAnyway := by
  have htick : ∀ t, l₀.head rounds N = some t →
      ((t.outside (rounds N)).tick.2 = .ok true ↔ ¬ (t.outside (rounds N)).StopsAnyway) := by
    intro t hN
    obtain ⟨m, hm, htally⟩ := stepsCompleted_le ht hfresh hmax hN
    exact tick_eq_true_iff ((t.tally_outside _).trans htally) hm
  constructor
  · intro h t hN
    by_contra hstop
    exact absurd (h N ⟨t, hN, (htick t hN).2 hstop⟩) (Nat.lt_irrefl N)
  · intro h n hn
    by_contra hle
    obtain ⟨t, hN, htrue⟩ := hn.of_le (Nat.not_lt.1 hle)
    exact (htick t hN).1 htrue (h t hN)

end Steps

/-! ### A chain of two nodes -/

/-- `a`, then `b`, with a budget of so many steps. -/
def budgetChain (maxSteps : ℕ) : PregelLoop Transcript MemoryStore :=
  (smallGraph [.fixed START "a", .fixed "a" "b"]).newLoop {}
    { budget := some { maxSteps := some maxSteps } } {} 1

theorem stepBudget_iff_chain :
    (∀ n, (budgetChain 2).Executes undisturbed n → n < 2) ↔
      ∀ t, (budgetChain 2).head undisturbed 2 = some t → (t.outside {}).StopsAnyway :=
  stepBudget_iff rfl rfl rfl

/-- A budget of one step lets both nodes run. -/
theorem budgetChain_overruns : ¬ ∀ n, (budgetChain 1).Executes undisturbed n → n < 1 := by
  intro h
  have hrun : ((budgetChain 1).head undisturbed 1).map
      (fun t => decide ((t.outside {}).tick.2 = .ok true)) = some true := by decide
  obtain ⟨t, ht, htick⟩ := Option.map_eq_some_iff.1 hrun
  exact absurd (h 1 ⟨t, ht, of_decide_eq_true htick⟩) (Nat.lt_irrefl 1)

end PregelLoop

end Juncture
