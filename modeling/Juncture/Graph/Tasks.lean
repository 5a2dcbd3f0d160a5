import Juncture.Graph.Retries

/-!
# `run_task`

The body of a `#[task]` function may be called again after a failure, and each attempt may be given a time
to end in.  The loop is one of its own: it takes its delays from the retry policy as the retries of a node
do, but it asks nobody whether an error is one to retry.

* `runTask` : the attempts, with their delays.
* `runTask_eq` : they are those of the policy that retries every error.
* `runTask_exact_iff` : the body is called as often as it should be, and its last outcome returned, if and
  only if the delays on the way can be computed.
-/

namespace Juncture

/-- An attempt: what the body ends with, and whether it has not ended in the time it is given. -/
structure TaskAttempt (E O : Type) where
  /-- What the body returns. -/
  result : Except E O
  /-- It is not done when its time has passed. -/
  late : Bool := false

/-- What `run_task` makes of an attempt; `debug` is how a duration is printed. -/
def TaskAttempt.outcome {E O : Type} (into : E → JunctureError) (debug : Duration → String)
    (timeout : Option Duration) (a : TaskAttempt E O) : Except JunctureError O :=
  match timeout with
  | some d =>
    if a.late then .error (.execution s!"task exceeded {debug d} timeout") else a.result.mapError into
  | none => a.result.mapError into

section Run

variable {F E O : Type} [Factor F]

/-- The loop of `run_task`, with so many attempts left. -/
def taskAttempts (retry : Option (TimedRetryPolicy F)) (maxAttempts : ℕ) (fractions : ℕ → F)
    (outcomes : ℕ → Except JunctureError O) :
    ℕ → ℕ → Duration → Option JunctureError → Retry.Run JunctureError O Duration
  | 0, _, _, lastErr => ⟨0, [], some (.error (lastErr.getD (.execution "task produced no result")))⟩
  | left + 1, attempt, delay, _ =>
    match outcomes attempt with
    | .ok value => ⟨1, [], some (.ok value)⟩
    | .error err =>
      if maxAttempts ≤ attempt + 1 then ⟨1, [], some (.error err)⟩
      else
        match retry with
        | none =>
          (taskAttempts retry maxAttempts fractions outcomes left (attempt + 1) delay (some err)).after []
        | some r =>
          match TimedRetryPolicy.computeDelay delay r.jitter r.maxInterval (fractions attempt) with
          | none => ⟨1, [], none⟩
          | some actual =>
            match Factor.mulF64 delay r.backoffFactor with
            | none => ⟨1, [actual], none⟩
            | some next =>
              (taskAttempts retry maxAttempts fractions outcomes left (attempt + 1)
                (min next r.maxInterval) (some err)).after [actual]

/-- The attempts there are. -/
def taskMaxAttempts (retry : Option (TimedRetryPolicy F)) : ℕ := retry.elim 1 fun r => max r.maxAttempts 1

/-- `run_task`; attempt `n` of its body is `attempts n`, and the delay after it is varied by
`fractions n`. -/
def runTask (retry : Option (TimedRetryPolicy F)) (timeout : Option Duration) (into : E → JunctureError)
    (debug : Duration → String) (fractions : ℕ → F) (attempts : ℕ → TaskAttempt E O) :
    Retry.Run JunctureError O Duration :=
  taskAttempts retry (taskMaxAttempts retry) fractions
    (fun n => (attempts n).outcome into debug timeout) (taskMaxAttempts retry) 0
    (retry.elim ⟨0, by decide⟩ TimedRetryPolicy.initialInterval) none

/-- The policy with every error retried. -/
def TimedRetryPolicy.stubborn (policy : TimedRetryPolicy F) : TimedRetryPolicy F :=
  { policy with maxAttempts := max policy.maxAttempts 1, retryOn := some fun _ => true }

/-- The body is called some times, each time but the last it fails, in whatever way, and what is returned is
its last outcome, a success or the failure of the last attempt. -/
def ExactTask (retry : Option (TimedRetryPolicy F)) (outcomes : ℕ → Except JunctureError O)
    (r : Retry.Run JunctureError O Duration) : Prop :=
  ∃ k, 1 ≤ k ∧ k ≤ taskMaxAttempts retry ∧ r.calls = k ∧
    (∀ i, i + 1 < k → ∃ e, outcomes i = .error e) ∧ r.result = some (outcomes (k - 1)) ∧
    ((∃ value, outcomes (k - 1) = .ok value) ∨ k = taskMaxAttempts retry)

/-- As long as the body fails, the delay before the next attempt can be computed, and the one after it as
well. -/
def TimedRetryPolicy.AffordsTask (policy : TimedRetryPolicy F) (fractions : ℕ → F)
    (outcomes : ℕ → Except JunctureError O) : Prop :=
  ∀ i, i + 1 < policy.maxAttempts → (∀ j ≤ i, ∃ e, outcomes j = .error e) →
    ∃ delay, policy.delayFrom policy.initialInterval i = some delay ∧
      (computeDelay delay policy.jitter policy.maxInterval (fractions i)).isSome = true ∧
      (Factor.mulF64 delay policy.backoffFactor).isSome = true

variable {policy : TimedRetryPolicy F} {timeout : Option Duration} {into : E → JunctureError}
  {debug : Duration → String} {fractions : ℕ → F} {outcomes : ℕ → Except JunctureError O}
  {attempts : ℕ → TaskAttempt E O} {more n : ℕ}

variable (policy fractions) in
theorem stubborn_again (e : JunctureError) : (policy.stubborn.plan fractions).again e = true := rfl

variable (policy fractions outcomes) in
/-- The loop follows the plan of the policy that retries every error. -/
theorem taskAttempts_eq (delay : Duration) (lastErr : Option JunctureError)
    (h : n + (more + 1) = policy.stubborn.maxAttempts) :
    taskAttempts (some policy) policy.stubborn.maxAttempts fractions outcomes (more + 1) n delay lastErr =
      Retry.run (policy.stubborn.plan fractions) outcomes more n delay := by
  induction more generalizing n delay lastErr with
  | zero =>
    have hlast : policy.stubborn.maxAttempts ≤ n + 1 := by omega
    simp only [taskAttempts, Retry.run, hlast, if_true]
    cases outcomes n <;> rfl
  | succ more ih =>
    have hmore : ¬ policy.stubborn.maxAttempts ≤ n + 1 := by omega
    rw [taskAttempts]
    cases houtcome : outcomes n with
    | ok value =>
      have hfinal : Retry.Final (policy.stubborn.plan fractions) (outcomes n) := fun e he => by
        rw [houtcome] at he
        cases he
      rw [Retry.run_of_final hfinal, houtcome]
    | error e =>
      have hagain := stubborn_again policy fractions e
      simp only [hmore, if_false]
      cases hactual : TimedRetryPolicy.computeDelay delay policy.jitter policy.maxInterval (fractions n) with
      | none =>
        have hpause : (policy.stubborn.plan fractions).pause n delay e = ([], none) := by
          simp only [TimedRetryPolicy.plan, TimedRetryPolicy.stubborn, hactual]
        rw [Retry.run_of_broken houtcome hagain hpause]
      | some actual =>
        cases hnext : Factor.mulF64 delay policy.backoffFactor with
        | none =>
          have hpause : (policy.stubborn.plan fractions).pause n delay e = ([actual], none) := by
            simp only [TimedRetryPolicy.plan, TimedRetryPolicy.stubborn, hactual, hnext, Option.map_none]
          rw [Retry.run_of_broken houtcome hagain hpause]
        | some next =>
          have hpause : (policy.stubborn.plan fractions).pause n delay e =
              ([actual], some (min next policy.maxInterval)) :=
            TimedRetryPolicy.pause_eq_some.2 ⟨actual, next, hactual, hnext, rfl, rfl⟩
          rw [Retry.run_of_pause houtcome hagain hpause, ← ih _ (some e) (by omega)]

omit [Factor F] in
variable (policy) in
theorem one_le_maxAttempts : 1 ≤ policy.stubborn.maxAttempts := le_max_right _ _

variable (policy timeout into debug fractions attempts) in
theorem runTask_eq : runTask (some policy) timeout into debug fractions attempts =
    Retry.run (policy.stubborn.plan fractions) (fun n => (attempts n).outcome into debug timeout)
      (policy.stubborn.maxAttempts - 1) 0 policy.initialInterval := by
  have hmax := one_le_maxAttempts policy
  obtain ⟨more, hmore⟩ := Nat.exists_eq_add_of_le' hmax
  have hattempts := taskAttempts_eq policy fractions (fun n => (attempts n).outcome into debug timeout)
    policy.initialInterval none (show 0 + (more + 1) = _ by omega)
  rw [hmore, Nat.add_sub_cancel, ← hattempts]
  exact congrArg (fun left => taskAttempts (some policy) policy.stubborn.maxAttempts fractions _ left 0
    policy.initialInterval none) hmore

theorem delayFrom_stubborn (delay : Duration) :
    policy.stubborn.delayFrom delay n = policy.delayFrom delay n := by
  induction n generalizing delay with
  | zero => rfl
  | succ n ih =>
    simp only [TimedRetryPolicy.delayFrom, ih]
    rfl

theorem mendable_stubborn :
    Retry.Mendable (policy.stubborn.plan fractions) outcomes 0 n ↔ ∀ i < n, ∃ e, outcomes i = .error e := by
  simp only [Retry.Mendable, Nat.zero_add, stubborn_again, and_true]

theorem final_stubborn {outcome : Except JunctureError O} :
    Retry.Final (policy.stubborn.plan fractions) outcome ↔ ∃ value, outcome = .ok value := by
  cases outcome with
  | ok value => exact iff_of_true (fun e he => by cases he) ⟨value, rfl⟩
  | error e =>
    refine iff_of_false (fun hfinal => ?_) ?_
    · have hagain := hfinal e rfl
      rw [stubborn_again] at hagain
      cases hagain
    · rintro ⟨value, hvalue⟩
      cases hvalue

variable (fractions) in
/-- Attempts counted from one. -/
theorem exactTask_iff_exact {r : Retry.Run JunctureError O Duration} :
    ExactTask (some policy) outcomes r ↔ Retry.Exact (policy.stubborn.plan fractions) outcomes
      (policy.stubborn.maxAttempts - 1) 0 r := by
  have hmax : taskMaxAttempts (some policy) = policy.stubborn.maxAttempts := rfl
  have hone := one_le_maxAttempts policy
  rw [ExactTask, hmax]
  constructor
  · rintro ⟨k, hk, hkmax, hcalls, herrors, hresult, hlast⟩
    obtain ⟨k, rfl⟩ := Nat.exists_eq_add_of_le' hk
    rw [Nat.add_sub_cancel] at hresult hlast
    refine ⟨k, by omega, hcalls, mendable_stubborn.2 fun i hi => herrors i (by omega), ?_, ?_⟩
    · rw [Nat.zero_add]
      exact hresult
    · rw [Nat.zero_add, final_stubborn]
      exact hlast.symm.imp (fun h => by omega) id
  · rintro ⟨k, hk, hcalls, hmend, hresult, hend⟩
    rw [Nat.zero_add] at hresult hend
    refine ⟨k + 1, by omega, by omega, hcalls, fun i hi => mendable_stubborn.1 hmend i (by omega), hresult, ?_⟩
    rw [Nat.add_sub_cancel]
    rw [final_stubborn] at hend
    exact hend.symm.imp id fun h => by omega

/-- **Attempts of a task.**  The body is called again after every failure, a cancellation or an interrupt
as well, and its last outcome is returned, if and only if the delays that are needed on the way can be
computed. -/
theorem runTask_exact_iff (retry : Option (TimedRetryPolicy F)) (timeout : Option Duration)
    (into : E → JunctureError) (debug : Duration → String) (fractions : ℕ → F)
    (attempts : ℕ → TaskAttempt E O) :
    ExactTask retry (fun n => (attempts n).outcome into debug timeout)
        (runTask retry timeout into debug fractions attempts) ↔
      ∀ policy ∈ retry, policy.AffordsTask fractions fun n => (attempts n).outcome into debug timeout := by
  cases retry with
  | none =>
    refine iff_of_true ⟨1, le_rfl, le_rfl, ?_, fun i hi => absurd hi (by omega), ?_, .inr rfl⟩ ?_
    · simp only [runTask, taskMaxAttempts, Option.elim_none, taskAttempts]
      cases (attempts 0).outcome into debug timeout <;> rfl
    · simp only [runTask, taskMaxAttempts, Option.elim_none, taskAttempts]
      cases (attempts 0).outcome into debug timeout <;> rfl
    · rintro policy ⟨⟩
  | some policy =>
    rw [exactTask_iff_exact fractions, runTask_eq, Retry.exact_run_iff, TimedRetryPolicy.sound_iff]
    simp only [mendable_stubborn, Nat.zero_add, Option.mem_some_iff, forall_eq',
      TimedRetryPolicy.AffordsTask, Nat.lt_succ_iff]
    refine forall_congr' fun i => ?_
    have hlt : i < policy.stubborn.maxAttempts - 1 ↔ i + 1 < policy.maxAttempts := by
      simp only [TimedRetryPolicy.stubborn]
      omega
    simp only [hlt, delayFrom_stubborn]
    rfl

end Run

end Juncture
