import Juncture.Core.Duration
import Juncture.Core.Node
import Juncture.Core.Transcript
import Juncture.Lib.Retry

/-!
# `execute_with_retry`

A node with a retry policy is called again after a failure, with a delay that grows by a factor up to a
bound.  The factor is a floating-point number, and `mul_f64` panics on a product that is no duration; the
bound is applied to the product, when it is too late.

* `TimedRetryPolicy.executeWithRetry` : the calls, with their delays.
* `TimedRetryPolicy.exact_iff` : the node is called as often as it should be, and its last outcome returned,
  if and only if the delays on the way can be computed.
* `TimedRetryPolicy.exact_of_ends` : the wrapper without delays, which the runner uses, is this loop.
-/

namespace Juncture

/-- `f64`, as far as a duration is multiplied by it. -/
class Factor (F : Type) where
  /-- `mul_f64`; there is no product if it panics. -/
  mulF64 : Duration → F → Option Duration

/-- `RetryPolicy`, with the delays between attempts. -/
structure TimedRetryPolicy (F : Type) extends RetryPolicy where
  /-- The first delay. -/
  initialInterval : Duration
  /-- What a delay is multiplied by. -/
  backoffFactor : F
  /-- The longest delay. -/
  maxInterval : Duration
  /-- Delays are varied. -/
  jitter : Bool

namespace TimedRetryPolicy

variable {F S : Type} [Factor F] [State S] (policy : TimedRetryPolicy F)

/-- `compute_delay`, with the number that is drawn; there is no delay if it panics. -/
def computeDelay (base : Duration) (jitter : Bool) (maxInterval : Duration) (fraction : F) :
    Option Duration :=
  let capped := min base maxInterval
  if jitter then (Factor.mulF64 capped fraction).map fun jittered => min jittered maxInterval
  else some capped

/-- The loop of `execute_with_retry`, with so many attempts left.  Attempt `n` ends with `outcomes n`, and
the delay after it is varied by `fractions n`. -/
def attempts (nodeName : String) (fractions : ℕ → F)
    (outcomes : ℕ → Except JunctureError (Command S)) :
    ℕ → ℕ → Duration → Option JunctureError → Retry.Run JunctureError (Command S) Duration
  | 0, _, _, lastError => ⟨0, [], some (.error (lastError.getD
      (.execution s!"node '{nodeName}': retry policy exhausted with no error recorded")))⟩
  | left + 1, attempt, delay, _ =>
    match outcomes attempt with
    | .ok command => ⟨1, [], some (.ok command)⟩
    | .error error =>
      if !policy.shouldRetry error || decide (policy.maxAttempts ≤ attempt + 1) then
        ⟨1, [], some (.error error)⟩
      else
        match computeDelay delay policy.jitter policy.maxInterval (fractions attempt) with
        | none => ⟨1, [], none⟩
        | some actualDelay =>
          match Factor.mulF64 delay policy.backoffFactor with
          | none => ⟨1, [actualDelay], none⟩
          | some next =>
            (attempts nodeName fractions outcomes left (attempt + 1) (min next policy.maxInterval)
              (some error)).after [actualDelay]

/-- `execute_with_retry`: the calls, the delays and what is returned, unless it panics. -/
def executeWithRetry (nodeName : String) (fractions : ℕ → F)
    (outcomes : ℕ → Except JunctureError (Command S)) :
    Retry.Run JunctureError (Command S) Duration :=
  policy.attempts nodeName fractions outcomes policy.maxAttempts 0 policy.initialInterval none

/-- The delay after so many further attempts, before it is varied. -/
def delayFrom (delay : Duration) : ℕ → Option Duration
  | 0 => some delay
  | i + 1 => (Factor.mulF64 delay policy.backoffFactor).bind fun next =>
      delayFrom (min next policy.maxInterval) i

/-- The node is called some times, each time but the last it fails in a way that is retried, and what is
returned is its last outcome, a success or a failure that is not retried or that of the last attempt. -/
def Exact (outcomes : ℕ → Except JunctureError (Command S))
    (r : Retry.Run JunctureError (Command S) Duration) : Prop :=
  ∃ k, 1 ≤ k ∧ k ≤ policy.maxAttempts ∧ r.calls = k ∧
    (∀ i, i + 1 < k → ∃ e, outcomes i = .error e ∧ policy.shouldRetry e = true) ∧
    r.result = some (outcomes (k - 1)) ∧
    ((∃ command, outcomes (k - 1) = .ok command) ∨
      ∃ e, outcomes (k - 1) = .error e ∧ (policy.shouldRetry e = false ∨ k = policy.maxAttempts))

/-- As long as the node fails in a way that is retried, the delay before the next attempt can be computed,
and the one after it as well. -/
def Affords (fractions : ℕ → F) (outcomes : ℕ → Except JunctureError (Command S)) : Prop :=
  ∀ i, i + 1 < policy.maxAttempts →
    (∀ j ≤ i, ∃ e, outcomes j = .error e ∧ policy.shouldRetry e = true) →
    ∃ delay, policy.delayFrom policy.initialInterval i = some delay ∧
      (computeDelay delay policy.jitter policy.maxInterval (fractions i)).isSome = true ∧
      (Factor.mulF64 delay policy.backoffFactor).isSome = true

/-! ### The loop as a plan -/

/-- The policy as a plan. -/
def plan (fractions : ℕ → F) : Retry.Plan JunctureError Duration Duration where
  again := policy.shouldRetry
  pause attempt delay _ :=
    match computeDelay delay policy.jitter policy.maxInterval (fractions attempt) with
    | none => ([], none)
    | some actualDelay => ([actualDelay],
        (Factor.mulF64 delay policy.backoffFactor).map fun next => min next policy.maxInterval)

variable {policy} {nodeName : String} {fractions : ℕ → F}
  {outcomes : ℕ → Except JunctureError (Command S)} {more n : ℕ} {delay : Duration}

theorem pause_eq_some {e : JunctureError} {done : List Duration} {delay' : Duration} :
    (policy.plan fractions).pause n delay e = (done, some delay') ↔
      ∃ actualDelay next,
        computeDelay delay policy.jitter policy.maxInterval (fractions n) = some actualDelay ∧
        Factor.mulF64 delay policy.backoffFactor = some next ∧ [actualDelay] = done ∧
        min next policy.maxInterval = delay' := by
  simp only [plan]
  cases computeDelay delay policy.jitter policy.maxInterval (fractions n) with
  | none => simp
  | some actualDelay => cases Factor.mulF64 delay policy.backoffFactor <;> simp

/-- The loop follows the plan: what is left when all attempts are made is never looked at. -/
theorem attempts_eq (delay : Duration) (lastError : Option JunctureError)
    (h : n + (more + 1) = policy.maxAttempts) :
    policy.attempts nodeName fractions outcomes (more + 1) n delay lastError =
      Retry.run (policy.plan fractions) outcomes more n delay := by
  induction more generalizing n delay lastError with
  | zero =>
    have hlast : policy.maxAttempts ≤ n + 1 := by omega
    simp only [attempts, Retry.run, hlast, decide_true, Bool.or_true, if_true]
    cases outcomes n <;> rfl
  | succ more ih =>
    have hmore : ¬ policy.maxAttempts ≤ n + 1 := by omega
    rw [attempts]
    obtain hfinal | ⟨e, he, hagain⟩ := Retry.final_or (policy.plan fractions) (outcomes n)
    · rw [Retry.run_of_final hfinal]
      cases houtcome : outcomes n with
      | ok command => rfl
      | error e =>
        have hstop : policy.shouldRetry e = false := hfinal e houtcome
        simp only [hstop, Bool.not_false, Bool.true_or, if_true]
    · have hretry : policy.shouldRetry e = true := hagain
      simp only [he, hretry, hmore, decide_false, Bool.not_true, Bool.or_false, Bool.false_eq_true,
        if_false]
      cases hactual : computeDelay delay policy.jitter policy.maxInterval (fractions n) with
      | none => rw [Retry.run_of_broken he hagain (by simp only [plan, hactual]; rfl)]
      | some actualDelay =>
        cases hnext : Factor.mulF64 delay policy.backoffFactor with
        | none => rw [Retry.run_of_broken he hagain (by simp only [plan, hactual, hnext]; rfl)]
        | some next =>
          rw [Retry.run_of_pause he hagain (pause_eq_some.2 ⟨_, _, hactual, hnext, rfl, rfl⟩),
            ← ih _ (some e) (by omega)]

/-- No delay panics if and only if all that are needed can be computed. -/
theorem sound_iff {α : Type} {outcomes : ℕ → Except JunctureError α} (more n : ℕ) (delay : Duration) :
    Retry.Sound (policy.plan fractions) outcomes more n delay ↔
      ∀ i < more, Retry.Mendable (policy.plan fractions) outcomes n (i + 1) →
        ∃ delay', policy.delayFrom delay i = some delay' ∧
          (computeDelay delay' policy.jitter policy.maxInterval (fractions (n + i))).isSome = true ∧
          (Factor.mulF64 delay' policy.backoffFactor).isSome = true := by
  induction more generalizing n delay with
  | zero => exact iff_of_true trivial fun i hi => absurd hi (Nat.not_lt_zero i)
  | succ more ih =>
    obtain hfinal | ⟨e, he, hagain⟩ := Retry.final_or (policy.plan fractions) (outcomes n)
    · refine iff_of_true (Retry.sound_of_final hfinal) fun i _ hmend => ?_
      obtain ⟨⟨e, he, hagain⟩, -⟩ := Retry.mendable_succ.1 hmend
      rw [hfinal e he] at hagain
      cases hagain
    · rw [Retry.sound_succ he hagain]
      constructor
      · rintro ⟨done, delay', hpause, hsound⟩ i hi hmend
        obtain ⟨actualDelay, next, hactual, hnext, -, rfl⟩ := pause_eq_some.1 hpause
        cases i with
        | zero => exact ⟨delay, rfl, by rw [Nat.add_zero, hactual, Option.isSome_some],
            by rw [hnext, Option.isSome_some]⟩
        | succ i =>
          rw [delayFrom, hnext, Option.bind_some, ← Nat.add_assoc, Nat.add_right_comm]
          exact (ih (n + 1) _).1 hsound i (by omega) (Retry.mendable_succ.1 hmend).2
      · intro h
        have hfirst := h 0 (by omega) (Retry.mendable_succ.2 ⟨⟨e, he, hagain⟩, Retry.mendable_zero⟩)
        obtain ⟨delay', hdelay, hactual, hnext⟩ := hfirst
        cases hdelay
        obtain ⟨actualDelay, hactual⟩ := Option.isSome_iff_exists.1 hactual
        obtain ⟨next, hnext⟩ := Option.isSome_iff_exists.1 hnext
        refine ⟨_, _, pause_eq_some.2 ⟨_, _, hactual, hnext, rfl, rfl⟩,
          (ih (n + 1) _).2 fun i hi hmend => ?_⟩
        have hlater := h (i + 1) (by omega) (Retry.mendable_succ.2 ⟨⟨e, he, hagain⟩, hmend⟩)
        rw [delayFrom, hnext, Option.bind_some, ← Nat.add_assoc, Nat.add_right_comm] at hlater
        exact hlater

theorem mendable_iff : Retry.Mendable (policy.plan fractions) outcomes 0 n ↔
    ∀ i < n, ∃ e, outcomes i = .error e ∧ policy.shouldRetry e = true := by
  simp only [Retry.Mendable, Nat.zero_add]
  rfl

/-- An outcome after which no other attempt is made. -/
theorem final_iff (outcome : Except JunctureError (Command S)) :
    Retry.Final (policy.plan fractions) outcome ↔
      (∃ command, outcome = .ok command) ∨ ∃ e, outcome = .error e ∧ policy.shouldRetry e = false := by
  cases outcome with
  | ok command => exact iff_of_true (fun e he => by cases he) (.inl ⟨command, rfl⟩)
  | error e =>
    constructor
    · intro h
      exact .inr ⟨e, rfl, h e rfl⟩
    · rintro (⟨command, h⟩ | ⟨e', he', h⟩) e'' he''
      · cases h
      · cases he'
        cases he''
        exact h

variable (fractions) in
/-- Attempts counted from one. -/
theorem exact_iff_exact (hmax : more + 1 = policy.maxAttempts)
    {r : Retry.Run JunctureError (Command S) Duration} :
    policy.Exact outcomes r ↔ Retry.Exact (policy.plan fractions) outcomes more 0 r := by
  constructor
  · rintro ⟨k, hk, hkmax, hcalls, herrors, hresult, hlast⟩
    obtain ⟨k, rfl⟩ := Nat.exists_eq_add_of_le' hk
    rw [Nat.add_sub_cancel] at hresult hlast
    refine ⟨k, by omega, hcalls, mendable_iff.2 fun i hi => herrors i (by omega), ?_, ?_⟩
    · rw [Nat.zero_add]
      exact hresult
    · rw [Nat.zero_add, final_iff]
      obtain hok | ⟨e, he, hstop | hall⟩ := hlast
      · exact .inr (.inl hok)
      · exact .inr (.inr ⟨e, he, hstop⟩)
      · exact .inl (by omega)
  · rintro ⟨k, hk, hcalls, hmend, hresult, hend⟩
    rw [Nat.zero_add] at hresult hend
    refine ⟨k + 1, by omega, by omega, hcalls, fun i hi => mendable_iff.1 hmend i (by omega), hresult, ?_⟩
    rw [Nat.add_sub_cancel]
    rw [final_iff] at hend
    obtain hall | hok | ⟨e, he, hstop⟩ := hend
    · cases houtcome : outcomes k with
      | ok command => exact .inl ⟨command, rfl⟩
      | error e => exact .inr ⟨e, rfl, .inr (by omega)⟩
    · exact .inl hok
    · exact .inr ⟨e, he, .inl hstop⟩

/-- **Retries.**  The node is called as often as it should be, and its last outcome is returned, if and
only if the delays that are needed on the way can be computed. -/
theorem exact_iff (policy : TimedRetryPolicy F) (hmax : 1 ≤ policy.maxAttempts) (nodeName : String)
    (fractions : ℕ → F) (outcomes : ℕ → Except JunctureError (Command S)) :
    policy.Exact outcomes (policy.executeWithRetry nodeName fractions outcomes) ↔
      policy.Affords fractions outcomes := by
  obtain ⟨more, hmore⟩ := Nat.exists_eq_add_of_le' hmax
  rw [exact_iff_exact fractions hmore.symm, executeWithRetry, hmore, attempts_eq _ _ (by omega),
    Retry.exact_run_iff, sound_iff, Affords, hmore]
  simp only [mendable_iff, Nat.zero_add, Nat.lt_succ_iff, Nat.succ_le_iff]

/-- Where a duration up to the bound can be multiplied, retries are as they should be, whatever the node
does. -/
theorem affords_of_mulF64
    (hfactor : ∀ delay ≤ Max.max policy.initialInterval policy.maxInterval,
      (Factor.mulF64 delay policy.backoffFactor).isSome = true)
    (hfraction : ∀ delay ≤ policy.maxInterval, ∀ i, (Factor.mulF64 delay (fractions i)).isSome = true) :
    policy.Affords fractions outcomes := by
  have hdelays : ∀ i, ∀ delay ≤ Max.max policy.initialInterval policy.maxInterval,
      ∃ delay' ≤ Max.max policy.initialInterval policy.maxInterval,
        policy.delayFrom delay i = some delay' := by
    intro i
    induction i with
    | zero => exact fun delay hdelay => ⟨delay, hdelay, rfl⟩
    | succ i ih =>
      intro delay hdelay
      obtain ⟨next, hnext⟩ := Option.isSome_iff_exists.1 (hfactor delay hdelay)
      obtain ⟨delay', hle, hdelay'⟩ :=
        ih (min next policy.maxInterval) ((min_le_right _ _).trans (le_max_right _ _))
      exact ⟨delay', hle, by rw [delayFrom, hnext, Option.bind_some, hdelay']⟩
  intro i _ _
  obtain ⟨delay, hle, hdelay⟩ := hdelays i _ (le_max_left _ _)
  refine ⟨delay, hdelay, ?_, hfactor delay hle⟩
  unfold computeDelay
  split
  · rw [Option.isSome_map]
    exact hfraction _ (min_le_right _ _) i
  · rfl

/-! ### Whole factors -/

/-- Whole numbers as factors. -/
instance wholeFactor : Factor ℕ where
  mulF64 delay n := if h : delay.nanos * n < 2 ^ 64 * 10 ^ 9 then some ⟨delay.nanos * n, h⟩ else none

/-- Delays that double from half a second up to ten. -/
def doubling : TimedRetryPolicy ℕ where
  initialInterval := .fromMillis 500
  backoffFactor := 2
  maxInterval := .fromSecs 10
  jitter := false

/-- The same from the longest duration there is, for two attempts. -/
def unbounded : TimedRetryPolicy ℕ where
  maxAttempts := 2
  initialInterval := .max
  backoffFactor := 2
  maxInterval := .fromSecs 10
  jitter := false

/-- A node that fails once. -/
def recovering (n : ℕ) : Except JunctureError (Command Transcript) :=
  if n = 0 then .error (.execution "unavailable") else .ok {}

/-- The policy with the default delays. -/
theorem exact_iff_doubling : 1 ≤ doubling.maxAttempts ∧
    (doubling.Exact recovering (doubling.executeWithRetry "fetch" (fun _ => 1) recovering) ↔
      doubling.Affords (fun _ => 1) recovering) :=
  ⟨by decide, exact_iff doubling (by decide) "fetch" (fun _ => 1) recovering⟩

/-- The first delay is ten seconds, and then the node is not called again: twice the longest duration is
none. -/
theorem unbounded_not_exact :
    (unbounded.executeWithRetry "fetch" (fun _ => 1) recovering).result = none ∧
      ¬ unbounded.Exact recovering (unbounded.executeWithRetry "fetch" (fun _ => 1) recovering) := by
  refine ⟨rfl, ?_⟩
  rintro ⟨k, -, -, -, -, hresult, -⟩
  cases hresult

end TimedRetryPolicy

/-! ### The wrapper without delays -/

namespace NodeProg

variable {S : Type} [State S]

/-- The program ends with a result, after pauses for these failures. -/
inductive Ends : NodeProg S → List JunctureError → Except JunctureError (Command S) → Prop
  | done (r : Except JunctureError (Command S)) : Ends (.done r) [] r
  | interrupt {payload : Json} {id : Option String} {k : Except JunctureError Json → NodeProg S}
      {es : List JunctureError} {r : Except JunctureError (Command S)} (v : Except JunctureError Json)
      (h : Ends (k v) es r) : Ends (.interrupt payload id k) es r
  | readLocals {k : TaskLocals → NodeProg S} {es : List JunctureError}
      {r : Except JunctureError (Command S)} (l : TaskLocals) (h : Ends (k l) es r) :
      Ends (.readLocals k) es r
  | backoff {e : JunctureError} {k : NodeProg S} {es : List JunctureError}
      {r : Except JunctureError (Command S)} (h : Ends k es r) : Ends (.backoff e k) (e :: es) r

/-- A program in a row with another ends when both have. -/
theorem Ends.of_bind {p : NodeProg S} {f : Except JunctureError (Command S) → NodeProg S}
    {es : List JunctureError} {r : Except JunctureError (Command S)} (h : Ends (p.bind f) es r) :
    ∃ es₁ r₁ es₂, Ends p es₁ r₁ ∧ Ends (f r₁) es₂ r ∧ es = es₁ ++ es₂ := by
  induction p generalizing es with
  | done r₁ => exact ⟨[], r₁, es, .done r₁, h, rfl⟩
  | interrupt payload id k ih =>
    cases h with
    | interrupt v h =>
      obtain ⟨es₁, r₁, es₂, hp, hf, rfl⟩ := ih v h
      exact ⟨es₁, r₁, es₂, .interrupt v hp, hf, rfl⟩
  | readLocals k ih =>
    cases h with
    | readLocals l h =>
      obtain ⟨es₁, r₁, es₂, hp, hf, rfl⟩ := ih l h
      exact ⟨es₁, r₁, es₂, .readLocals l hp, hf, rfl⟩
  | backoff e k ih =>
    cases h with
    | backoff h =>
      obtain ⟨es₁, r₁, es₂, hp, hf, rfl⟩ := ih h
      exact ⟨e :: es₁, r₁, es₂, .backoff hp, hf, rfl⟩

/-- How an attempt of the wrapper ends: with its own result, or in a pause and the attempts that are
left. -/
theorem Ends.of_attempt {nodeName : String} {policy : RetryPolicy} {p : NodeProg S}
    (hp : ∀ es r, Ends p es r → es = []) {left : ℕ} {lastError : Option JunctureError}
    {es : List JunctureError} {r : Except JunctureError (Command S)}
    (h : Ends (retryAttempts nodeName policy p (left + 1) lastError) es r) :
    (es = [] ∧ Ends p [] r ∧ ((∃ command, r = .ok command) ∨
      ∃ e, r = .error e ∧ (policy.shouldRetry e = false ∨ left = 0))) ∨
      ∃ e es', es = e :: es' ∧ Ends p [] (.error e) ∧ policy.shouldRetry e = true ∧ 0 < left ∧
        Ends (retryAttempts nodeName policy p left (some e)) es' r := by
  rw [retryAttempts] at h
  obtain ⟨es₁, r₁, es₂, hrun, hend, rfl⟩ := h.of_bind
  obtain rfl := hp es₁ r₁ hrun
  cases r₁ with
  | ok command =>
    cases hend
    exact .inl ⟨rfl, hrun, .inl ⟨command, rfl⟩⟩
  | error e =>
    by_cases hstop : (!policy.shouldRetry e || left == 0) = true
    · simp only [hstop, if_true] at hend
      cases hend
      exact .inl ⟨rfl, hrun, .inr ⟨e, rfl, by simpa using hstop⟩⟩
    · simp only [hstop, Bool.false_eq_true, if_false] at hend
      have hmore : policy.shouldRetry e = true ∧ left ≠ 0 := by simpa using hstop
      cases hend with
      | backoff hend =>
        exact .inr ⟨e, _, rfl, hrun, hmore.1, Nat.pos_of_ne_zero hmore.2, hend⟩

/-- How the wrapper ends: each failure before the last attempt is one of the node, and is retried. -/
theorem Ends.of_retryAttempts {nodeName : String} {policy : RetryPolicy} {p : NodeProg S}
    (hp : ∀ es r, Ends p es r → es = []) {left : ℕ} {lastError : Option JunctureError}
    {es : List JunctureError} {r : Except JunctureError (Command S)}
    (h : Ends (retryAttempts nodeName policy p (left + 1) lastError) es r) :
    es.length ≤ left ∧ (∀ e ∈ es, Ends p [] (.error e) ∧ policy.shouldRetry e = true) ∧ Ends p [] r ∧
      ((∃ command, r = .ok command) ∨
        ∃ e, r = .error e ∧ (policy.shouldRetry e = false ∨ es.length = left)) := by
  induction left generalizing es lastError with
  | zero =>
    obtain ⟨rfl, hrun, hlast⟩ | ⟨e, es', -, -, -, hmore, -⟩ := h.of_attempt hp
    · exact ⟨le_rfl, fun e he => absurd he List.not_mem_nil, hrun,
        hlast.imp_right fun ⟨e, he, _⟩ => ⟨e, he, .inr rfl⟩⟩
    · exact absurd hmore (Nat.lt_irrefl 0)
  | succ left ih =>
    obtain ⟨rfl, hrun, hlast⟩ | ⟨e, es', rfl, hrun, hretry, -, hend⟩ := h.of_attempt hp
    · exact ⟨Nat.zero_le _, fun e he => absurd he List.not_mem_nil, hrun,
        hlast.imp_right fun ⟨e, he, hstop⟩ => ⟨e, he, .inl (hstop.resolve_right left.succ_ne_zero)⟩⟩
    · obtain ⟨hlength, herrors, hresult, hlast⟩ := ih hend
      refine ⟨Nat.succ_le_succ hlength, fun e' he' => ?_, hresult, ?_⟩
      · obtain rfl | he' := List.mem_cons.1 he'
        · exact ⟨hrun, hretry⟩
        · exact herrors e' he'
      · obtain hok | ⟨e', he', hstop | hall⟩ := hlast
        · exact .inl hok
        · exact .inr ⟨e', he', .inl hstop⟩
        · exact .inr ⟨e', he', .inr (congrArg Nat.succ hall)⟩

end NodeProg

namespace TimedRetryPolicy

variable {F S : Type} [State S] {policy : TimedRetryPolicy F}

/-- The wrapper that the runner uses makes the attempts that the loop makes whose delays can be computed,
each of which runs the node. -/
theorem exact_of_ends {nodeName : String} {p : NodeProg S} (hmax : 1 ≤ policy.maxAttempts)
    (hp : ∀ es r, p.Ends es r → es = []) {es : List JunctureError}
    {r : Except JunctureError (Command S)}
    (h : (Juncture.executeWithRetry nodeName policy.toRetryPolicy p).Ends es r) :
    ∃ outcomes : ℕ → Except JunctureError (Command S), (∀ i, p.Ends [] (outcomes i)) ∧
      policy.Exact outcomes ⟨es.length + 1, [], some r⟩ := by
  obtain ⟨more, hmore⟩ := Nat.exists_eq_add_of_le' hmax
  rw [Juncture.executeWithRetry, hmore] at h
  obtain ⟨hlength, herrors, hresult, hlast⟩ := h.of_retryAttempts hp
  -- the failures before the pauses, and then the result
  let outcomes : ℕ → Except JunctureError (Command S) := fun i => (es[i]?).elim r .error
  have hfailure : ∀ i e, es[i]? = some e → outcomes i = .error e := fun i e he => by
    simp only [outcomes, he, Option.elim_some]
  have hend : ∀ i, es[i]? = none → outcomes i = r := fun i he => by
    simp only [outcomes, he, Option.elim_none]
  have hreturned : outcomes (es.length + 1 - 1) = r := by
    rw [Nat.add_sub_cancel]
    exact hend _ (List.getElem?_eq_none le_rfl)
  refine ⟨outcomes, fun i => ?_, es.length + 1, by omega, by omega, rfl, fun i hi => ?_, ?_, ?_⟩
  · cases he : es[i]? with
    | none =>
      rw [hend i he]
      exact hresult
    | some e =>
      rw [hfailure i e he]
      exact (herrors e (List.mem_of_getElem? he)).1
  · have hlt : i < es.length := by omega
    exact ⟨es[i], hfailure i _ (List.getElem?_eq_getElem hlt), (herrors _ (List.getElem_mem hlt)).2⟩
  · rw [hreturned]
  · rw [hreturned]
    obtain hok | ⟨e, he, hstop | hall⟩ := hlast
    · exact .inl hok
    · exact .inr ⟨e, he, .inl hstop⟩
    · exact .inr ⟨e, he, .inr (by omega)⟩

end TimedRetryPolicy

end Juncture
