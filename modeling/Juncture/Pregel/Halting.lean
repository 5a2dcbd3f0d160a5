import Juncture.Core.Transcript
import Juncture.Pregel.Run

/-!
# Halting and the step limit

Two properties of whole runs hang on what `tick` does at the head of a turn.

A halted loop should not go on.  `tick` does not look at the status, so it is the pending tasks that
decide (`haltsRun_iff`): the run ends there exactly when nothing follows the superstep that halted
the loop, or when one of the other tests of `tick` returns `false`.

A run should execute at most `recursion_limit` supersteps.  A halting superstep is not counted, and
the limit is tested before the pending tasks are, so this needs (`withinLimit_of_safe`) that no run
goes on past a halt and that no run gets done exactly at its limit.
-/

namespace Juncture

namespace PregelLoop

variable {S σ : Type} [State S] [InterruptHash]

/-- Along the run, the tick after a halt returns `false`, and no superstep is executed any more. -/
def HaltsRun (l₀ : PregelLoop S σ) (rounds : ℕ → Round S) : Prop :=
  ∀ n l, l₀.head rounds n = some l → l.status.halted = true →
    (l.outside (rounds n)).tick.2 = .ok false ∧ ∀ m, n < m → l₀.head rounds m = none

/-- The superstep in round `n` is executed, merged and scheduled without an error: `after_tick` is
called on `l₁` and `result` and leaves `l`. -/
def TurnAt (l₀ : PregelLoop S σ) (rounds : ℕ → Round S) (n : ℕ) (l₁ : PregelLoop S σ)
    (result : SuperstepResult S) (l : PregelLoop S σ) : Prop :=
  ∃ t, l₀.head rounds n = some t ∧ t.superstep (rounds n) = some (l₁, result) ∧
    l₁.afterTick result = (l, .ok ())

/-- After every halt of the run, before the next tick: the run is cancelled, or it is within its
budget and either nothing follows the superstep or there is a static interrupt before what does. -/
def RestsWhenHalted (l₀ : PregelLoop S σ) (rounds : ℕ → Round S) : Prop :=
  ∀ n l₁ result l, l₀.TurnAt rounds n l₁ result l → l.status.halted = true →
    let next := l.outside (rounds (n + 1))
    next.cancelled = true ∨ next.budgetExceeded = none ∧
      (l₁.LeadsNowhere result ∨ next.interruptBefore.isSome = true)

variable {l₀ l l₁ : PregelLoop S σ} {rounds : ℕ → Round S} {result : SuperstepResult S} {n : ℕ}

theorem head_succ_eq_some_iff :
    l₀.head rounds (n + 1) = some l ↔ ∃ l₁ result, l₀.TurnAt rounds n l₁ result l := by
  unfold head
  rw [Machine.trace_succ_eq_some_iff]
  simp only [turn_eq_some_iff]
  constructor
  · rintro ⟨t, ht, l₁, result, hs, ha⟩
    exact ⟨l₁, result, t, ht, hs, ha⟩
  · rintro ⟨l₁, result, t, ht, hs, ha⟩
    exact ⟨t, ht, l₁, result, hs, ha⟩

theorem turn_eq_none {round : Round S} (h : (l.outside round).tick.2 = .ok false) :
    l.turn round = none := by
  rw [Option.eq_none_iff_forall_ne_some]
  intro l' hturn
  obtain ⟨l₁, result, hs, -⟩ := turn_eq_some_iff.1 hturn
  obtain ⟨hgo, -⟩ := superstep_eq_some_iff.1 hs
  rw [tick_of_goesOn hgo] at h
  cases h

/-- Under the condition, a halted head has not reached the step limit: either the last turn halted
the loop, and did not count, or the run went on past an earlier halt. -/
theorem tick_of_halted (h₀ : l₀.status = .running) (hrest : l₀.RestsWhenHalted rounds) :
    ∀ n l, l₀.head rounds n = some l → l.status.halted = true →
      (l.outside (rounds n)).tick.2 = .ok false := by
  intro n
  induction n with
  | zero =>
    intro l hl hhalt
    cases hl
    rw [h₀] at hhalt
    cases hhalt
  | succ n ih =>
    intro l hl hhalt
    obtain ⟨l₁, result, t, ht, hs, ha⟩ := head_succ_eq_some_iff.1 hl
    obtain ⟨hpending, hlimit, hlt, hend⟩ := turn_course hs ha
    have hstep : l.step < l.runnableConfig.recursionLimit := by
      obtain ⟨-, hstep⟩ | ⟨hstatus, -⟩ := hend
      · omega
      · obtain ⟨hgo, -⟩ := superstep_eq_some_iff.1 hs
        have hfalse := ih t ht (by rw [← hstatus]; exact hhalt)
        rw [tick_of_goesOn hgo] at hfalse
        cases hfalse
    refine tick_eq_false_iff.2 ⟨?_, ?_⟩
    · rw [step_outside, recursionLimit_outside]
      exact hstep
    · rw [pendingTasks_outside, hpending]
      exact hrest n l₁ result l ⟨t, ht, hs, ha⟩ hhalt

/-- **A halted run ends exactly when nothing follows the halt.** -/
theorem haltsRun_iff (h₀ : l₀.status = .running) :
    l₀.HaltsRun rounds ↔ l₀.RestsWhenHalted rounds := by
  constructor
  · intro h n l₁ result l hturn hhalt
    have hl := head_succ_eq_some_iff.2 ⟨l₁, result, hturn⟩
    obtain ⟨t, -, hs, ha⟩ := hturn
    have htick := (tick_eq_false_iff.1 (h (n + 1) l hl hhalt).1).2
    rwa [pendingTasks_outside, (turn_course hs ha).1] at htick
  · intro hrest n l hl hhalt
    have htick := tick_of_halted h₀ hrest n l hl hhalt
    exact ⟨htick, fun m hm => Machine.trace_eq_none_of_lt hl (turn_eq_none htick) hm⟩

/-! ### The step limit -/

/-- Along the run, with `L` the recursion limit: at most `L` supersteps are executed; the limit error
is returned only after `L` of them, with tasks pending; and a run that has no task pending after `L`
supersteps ends well. -/
structure WithinLimit (l₀ : PregelLoop S σ) (rounds : ℕ → Round S) : Prop where
  /-- The superstep after `n` others is executed only if `n < L`. -/
  supersteps : ∀ n l, l₀.head rounds n = some l → (l.outside (rounds n)).tick.2 = .ok true →
    n < l₀.runnableConfig.recursionLimit
  /-- The limit error. -/
  exceeded : ∀ n l step limit, l₀.head rounds n = some l →
    (l.outside (rounds n)).tick.2 = .error (.recursionLimit step limit) →
    n = l₀.runnableConfig.recursionLimit ∧ l.pendingTasks ≠ []
  /-- The run that needs exactly `L` supersteps. -/
  exact : ∀ l, l₀.head rounds l₀.runnableConfig.recursionLimit = some l → l.pendingTasks = [] →
    (l.outside (rounds l₀.runnableConfig.recursionLimit)).tick.2 = .ok false ∧
      (l.outside (rounds l₀.runnableConfig.recursionLimit)).tick.1.status = .done

/-- The run does not go on past a halt, and does not get done exactly at its limit. -/
structure LimitSafe (l₀ : PregelLoop S σ) (rounds : ℕ → Round S) : Prop where
  /-- After a halt: the run is cancelled or out of budget, nothing follows the superstep, or there is
  a static interrupt before what does. -/
  halts : ∀ n l₁ result l, l₀.TurnAt rounds n l₁ result l → l.status.halted = true →
    let next := l.outside (rounds (n + 1))
    next.cancelled = true ∨ next.budgetExceeded ≠ none ∨ l₁.LeadsNowhere result ∨
      next.interruptBefore ≠ none
  /-- With a limit of `0` there is something to do. -/
  entry : l₀.runnableConfig.recursionLimit = 0 → l₀.pendingTasks ≠ []
  /-- Something follows the last superstep that the limit allows, unless that one halted the loop and
  the run is neither cancelled nor out of budget. -/
  last : ∀ n l₁ result l, l₀.TurnAt rounds n l₁ result l →
    n + 1 = l₀.runnableConfig.recursionLimit → l₁.LeadsNowhere result →
    l.status.halted = true ∧ (l.outside (rounds (n + 1))).cancelled = false ∧
      (l.outside (rounds (n + 1))).budgetExceeded = none

/-- The invariant behind the limit: the supersteps executed are the steps counted, and one more when
the loop is halted, where the run does not go on. -/
structure Counted (l₀ : PregelLoop S σ) (rounds : ℕ → Round S) (n : ℕ) (l : PregelLoop S σ) :
    Prop where
  /-- The limit does not change. -/
  limit : l.runnableConfig.recursionLimit = l₀.runnableConfig.recursionLimit
  /-- The count. -/
  count : l.status.halted = false ∧ l.step = n ∨
    l.status.halted = true ∧ l.step + 1 = n ∧ ¬ (l.outside (rounds n)).GoesOn
  /-- It stays within the limit. -/
  le : n ≤ l₀.runnableConfig.recursionLimit
  /-- At the limit with nothing pending, the loop was halted by its last superstep. -/
  last : n = l₀.runnableConfig.recursionLimit → l.pendingTasks = [] →
    l.status.halted = true ∧ (l.outside (rounds n)).cancelled = false ∧
      (l.outside (rounds n)).budgetExceeded = none

theorem counted_head (h₀ : l₀.status = .running) (hstep : l₀.step = 0)
    (hsafe : l₀.LimitSafe rounds) (h : l₀.head rounds n = some l) : l₀.Counted rounds n l := by
  refine Machine.trace_invariant (I := l₀.Counted rounds) ?_ ?_ h
  · exact
      { limit := rfl
        count := .inl ⟨by rw [h₀]; rfl, hstep⟩
        le := Nat.zero_le _
        last := fun hzero hnil => absurd hnil (hsafe.entry hzero.symm) }
  · intro n t u ht hI hturn
    obtain ⟨l₁, result, hs, ha⟩ := turn_eq_some_iff.1 hturn
    have hat : l₀.TurnAt rounds n l₁ result u := ⟨t, ht, hs, ha⟩
    obtain ⟨hpending, hlimit, hlt, hend⟩ := turn_course hs ha
    -- the turn was taken, so the loop was not halted before it
    have hcount : t.status.halted = false ∧ t.step = n :=
      hI.count.resolve_right fun hc => hc.2.2 (superstep_eq_some_iff.1 hs).1
    rw [hI.limit] at hlimit hlt
    refine ⟨hlimit, ?_, by omega, ?_⟩
    · obtain ⟨hhalt, hstep⟩ | ⟨hstatus, hstep⟩ := hend
      · refine .inr ⟨hhalt, by omega, fun hgo => ?_⟩
        obtain hc | hb | hnone | hi := hsafe.halts n l₁ result u hat hhalt
        · rw [hgo.cancelled] at hc
          cases hc
        · exact hb hgo.budget
        · exact hgo.pending ((u.pendingTasks_outside _).trans (hpending.2 hnone))
        · exact hi hgo.interrupt
      · exact .inl ⟨by rw [hstatus]; exact hcount.1, by omega⟩
    · intro hL hnil
      exact hsafe.last n l₁ result u hat hL (hpending.1 hnil)

/-- **A run that does not go on past a halt stays within its limit**, unless it gets done exactly
there. -/
theorem withinLimit_of_safe (h₀ : l₀.status = .running) (hstep : l₀.step = 0)
    (hsafe : l₀.LimitSafe rounds) : l₀.WithinLimit rounds where
  supersteps n l hl htick := by
    have hI := counted_head h₀ hstep hsafe hl
    have hgo := goesOn_of_tick htick
    have hcount := hI.count.resolve_right fun hc => hc.2.2 hgo
    have hlt := hgo.limit
    rw [step_outside, recursionLimit_outside, hI.limit, hcount.2] at hlt
    exact hlt
  exceeded n l step limit hl htick := by
    have hI := counted_head h₀ hstep hsafe hl
    have hle := limit_le_of_tick htick
    rw [step_outside, recursionLimit_outside, hI.limit] at hle
    have hcount : l.status.halted = false ∧ l.step = n := by
      refine hI.count.resolve_right fun hc => ?_
      have := hI.le
      omega
    have hn : n = l₀.runnableConfig.recursionLimit := by
      have := hI.le
      omega
    refine ⟨hn, fun hnil => ?_⟩
    have hhalt := (hI.last hn hnil).1
    rw [hcount.1] at hhalt
    cases hhalt
  -- At the limit with nothing left to do, the run is done and has not failed.
  exact l hl hnil := by
    have hI := counted_head h₀ hstep hsafe hl
    obtain ⟨hhalt, hc, hb⟩ := hI.last rfl hnil
    have hlt : l.step < l.runnableConfig.recursionLimit := by
      obtain ⟨hhalt', -⟩ | ⟨-, hcount, -⟩ := hI.count
      · rw [hhalt'] at hhalt
        cases hhalt
      · have := hI.limit
        omega
    exact tick_of_empty (by simpa using hlt) hc hb (by simpa using hnil)

end PregelLoop

/-! ### Small runs -/

/-- A node that appends one entry. -/
def appending (n : ℕ) : Node Transcript := ⟨fun _ _ => .done (.ok (.ofUpdate (Transcript.note n)))⟩

/-- The loop of a graph over `Transcript` with the nodes `a` and `b`. -/
def smallLoop (edges : List (Edge Transcript)) (config : RunnableConfig) :
    PregelLoop Transcript Unit :=
  .withErrorHandlers {} (Dict.ofList [("b", appending 2), ("a", appending 1)])
    (buildTriggerTable edges) config 2 ∅ () 0

/-- Nothing happens outside. -/
def undisturbed : ℕ → Round Transcript := fun _ => {}

/-- `a`, then `b`, with an interrupt after `b`. -/
def haltedChain : PregelLoop Transcript Unit :=
  smallLoop [.fixed START "a", .fixed "a" "b"] { interruptAfter := some ["b"] }

theorem haltsRun_iff_haltedChain :
    haltedChain.status = .running ∧
      (haltedChain.HaltsRun undisturbed ↔ haltedChain.RestsWhenHalted undisturbed) :=
  ⟨rfl, PregelLoop.haltsRun_iff rfl⟩

/-- The superstep of `a` halts the loop, and the next tick goes on with `b`. -/
theorem haltedChain_not_haltsRun : ¬ haltedChain.HaltsRun undisturbed := by
  have hhead : (haltedChain.head undisturbed 1).map
      (fun l => (l.status.halted, (l.outside (undisturbed 1)).tick.2)) = some (true, .ok true) := by
    decide
  obtain ⟨l, hl, heq⟩ := Option.map_eq_some_iff.1 hhead
  obtain ⟨hhalt, htick⟩ := Prod.mk.inj heq
  intro h
  rw [(h 1 l hl hhalt).1] at htick
  cases htick

/-- `a` alone, within one step. -/
def oneStep : PregelLoop Transcript Unit := smallLoop [.fixed START "a"] { recursionLimit := 1 }

/-- `a` over and over, halted after each time, within one step. -/
def haltedCycle : PregelLoop Transcript Unit :=
  smallLoop [.fixed START "a", .fixed "a" "a"]
    { recursionLimit := 1, interruptAfter := some ["a"] }

/-- One run gets done exactly at its limit and fails there, the other one takes a second step. -/
theorem oneStep_haltedCycle_not_withinLimit :
    ¬ oneStep.WithinLimit undisturbed ∧ ¬ haltedCycle.WithinLimit undisturbed := by
  constructor
  · have hhead : (oneStep.head undisturbed 1).map
        (fun l => (l.pendingTasks.isEmpty, (l.outside (undisturbed 1)).tick.2)) =
        some (true, .error (.recursionLimit 1 1)) := by decide
    obtain ⟨l, hl, heq⟩ := Option.map_eq_some_iff.1 hhead
    obtain ⟨hnil, htick⟩ := Prod.mk.inj heq
    intro h
    have hok := (h.exact l hl (by simpa using hnil)).1
    exact nomatch hok.symm.trans htick
  · have hhead : (haltedCycle.head undisturbed 1).map
        (fun l => (l.outside (undisturbed 1)).tick.2) = some (.ok true) := by decide
    obtain ⟨l, hl, htick⟩ := Option.map_eq_some_iff.1 hhead
    intro h
    exact absurd (h.supersteps 1 l hl htick) (lt_irrefl 1)

/-- `a` alone, with room to spare. -/
def roomy : PregelLoop Transcript Unit := smallLoop [.fixed START "a"] {}

theorem roomy_limitSafe : roomy.LimitSafe undisturbed := by
  have hhead : (roomy.head undisturbed 1).map
      (fun l => (l.status.halted, (l.outside (undisturbed 1)).tick.2)) = some (false, .ok false) := by
    decide
  obtain ⟨k, hk, heq⟩ := Option.map_eq_some_iff.1 hhead
  obtain ⟨hhalt, htick⟩ := Prod.mk.inj heq
  have honly : ∀ n l, roomy.head undisturbed (n + 1) = some l → n = 0 ∧ l = k := by
    intro n l hl
    cases n with
    | zero => exact ⟨rfl, Option.some.inj (hl.symm.trans hk)⟩
    | succ n =>
      have hnone := Machine.trace_eq_none_of_lt (m := n + 2) hk (PregelLoop.turn_eq_none htick)
        (by omega)
      exact nomatch hnone.symm.trans hl
  refine ⟨fun n l₁ result l hat hhalt' => ?_, by decide, fun n l₁ result l hat hn => ?_⟩
  · obtain ⟨-, rfl⟩ := honly n l (PregelLoop.head_succ_eq_some_iff.2 ⟨l₁, result, hat⟩)
    rw [hhalt] at hhalt'
    cases hhalt'
  · obtain ⟨rfl, -⟩ := honly n l (PregelLoop.head_succ_eq_some_iff.2 ⟨l₁, result, hat⟩)
    exact absurd hn (by decide)

theorem withinLimit_of_safe_roomy : roomy.WithinLimit undisturbed :=
  PregelLoop.withinLimit_of_safe rfl rfl roomy_limitSafe

end Juncture
