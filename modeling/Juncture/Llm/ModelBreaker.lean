import Juncture.Lib.Interleave
import Juncture.Llm.Messages

/-!
# The circuit breaker of a model

A middleware of a model that refuses calls for a while after failures, and lets only some calls through to
find out whether the model has recovered.  Its hooks are made of atomic operations on shared counters; calls
overlap, and other middlewares may reject a call before or after it has come to the breaker.

* `LlmBreaker.preInvoke`, `LlmBreaker.postInvoke` : the hooks.
* `MiddlewareModel.act` : what a call of the model does next.
* `MiddlewareModel.probes_left` : a breaker that is half open and has no call in flight lets one through.
-/

namespace Juncture

open Interleave

/-! ### The breaker -/

/-- `CircuitState`. -/
inductive LlmBreakerState where
  | closed | «open» | halfOpen
deriving DecidableEq

/-- `CircuitBreakerConfig`. -/
structure LlmBreakerConfig where
  /-- Failures after which the circuit is opened. -/
  failureThreshold : UInt32
  /-- Milliseconds after which a call is let through again. -/
  recoveryTimeout : UInt64
  /-- How many calls are let through then. -/
  halfOpenMaxCalls : UInt32

/-- `CircuitBreaker`: its atomics. -/
structure LlmBreaker where
  /-- `state`. -/
  state : LlmBreakerState := .closed
  /-- `failure_count`. -/
  failureCount : UInt32 := 0
  /-- `success_count`. -/
  successCount : UInt32 := 0
  /-- `last_failure_time`. -/
  lastFailureTime : UInt64 := 0
  /-- `half_open_calls`. -/
  halfOpenCalls : UInt32 := 0

namespace LlmBreaker

/-- `compare_exchange` on the state. -/
def compareExchange (current new : LlmBreakerState) : Prog LlmBreaker Bool :=
  .update (fun b => b.state = current) fun b => if b.state = current then { b with state := new } else b

/-- `saturating_sub`. -/
def saturatingSub (a b : UInt64) : UInt64 := if b ≤ a then a - b else 0

/-- `state`, at time `now`. -/
def getState (config : LlmBreakerConfig) (now : UInt64) : Prog LlmBreaker LlmBreakerState := do
  let currentState ← .load LlmBreaker.state
  if currentState = .open then
    let lastFailure ← .load LlmBreaker.lastFailureTime
    if 0 < lastFailure ∧ config.recoveryTimeout ≤ saturatingSub now lastFailure then
      if ← compareExchange currentState .halfOpen then
        .store fun b => { b with halfOpenCalls := 0 }
        return .halfOpen
  .load LlmBreaker.state

/-- `pre_invoke`: whether the call is let through, and if so, whether as one of the calls that the breaker
counts when it is half open. -/
def preInvoke (config : LlmBreakerConfig) (now : UInt64) : Prog LlmBreaker (Option Bool) := do
  match ← getState config now with
  | .closed => return some false
  | .open => return none
  | .halfOpen =>
    let calls ← .update LlmBreaker.halfOpenCalls fun b => { b with halfOpenCalls := b.halfOpenCalls + 1 }
    if config.halfOpenMaxCalls ≤ calls then
      .store fun b => { b with halfOpenCalls := b.halfOpenCalls - 1 }
      return none
    return some true

/-- `handle_success`. -/
def handleSuccess (config : LlmBreakerConfig) : Prog LlmBreaker Unit := do
  .store fun b => { b with failureCount := 0 }
  let currentState ← .load LlmBreaker.state
  if currentState = .halfOpen then
    let successes ← .update LlmBreaker.successCount fun b => { b with successCount := b.successCount + 1 }
    if config.halfOpenMaxCalls ≤ successes + 1 then
      if ← compareExchange currentState .closed then
        .store fun b => { b with successCount := 0 }
        .store fun b => { b with halfOpenCalls := 0 }

/-- `handle_failure`, at time `now`. -/
def handleFailure (config : LlmBreakerConfig) (now : UInt64) : Prog LlmBreaker Unit := do
  .store fun b => { b with lastFailureTime := now }
  let failures ← .update LlmBreaker.failureCount fun b => { b with failureCount := b.failureCount + 1 }
  let currentState ← .load LlmBreaker.state
  if config.failureThreshold ≤ failures + 1 then
    if currentState ≠ .open then
      if ← compareExchange currentState .open then
        .store fun b => { b with successCount := 0 }
  else if currentState = .halfOpen then
    if ← compareExchange currentState .open then
      .store fun b => { b with successCount := 0 }
      .store fun b => { b with halfOpenCalls := 0 }

/-- `post_invoke`. -/
def postInvoke (config : LlmBreakerConfig) (now : UInt64) (ok : Bool) : Prog LlmBreaker Unit :=
  if ok then handleSuccess config else handleFailure config now

/-! ### What the hooks do -/

variable {config : LlmBreakerConfig} {now : UInt64} {b : LlmBreaker}

@[simp] theorem run_compareExchange (current new : LlmBreakerState) :
    (compareExchange current new).run b =
      (if b.state = current then { b with state := new } else b, decide (b.state = current)) := rfl

/-- The circuit has been open for long enough. -/
def Due (config : LlmBreakerConfig) (now : UInt64) (b : LlmBreaker) : Prop :=
  b.state = .open ∧ 0 < b.lastFailureTime ∧
    config.recoveryTimeout ≤ saturatingSub now b.lastFailureTime

instance : Decidable (Due config now b) := inferInstanceAs (Decidable (_ ∧ _ ∧ _))

/-- The breaker when a call comes to it. -/
def arrived (config : LlmBreakerConfig) (now : UInt64) (b : LlmBreaker) : LlmBreaker :=
  if Due config now b then { b with state := .halfOpen, halfOpenCalls := 0 } else b

theorem run_getState : (getState config now).run b =
    (arrived config now b, (arrived config now b).state) := by
  by_cases hopen : b.state = .open
  · by_cases htime : 0 < b.lastFailureTime ∧
        config.recoveryTimeout ≤ saturatingSub now b.lastFailureTime
    · simp [getState, arrived, Due, hopen, htime]
    · simp [getState, arrived, Due, hopen, htime]
  · simp [getState, arrived, Due, hopen]

/-- A call is let through by a breaker that is closed, and counted by one that is half open. -/
theorem run_preInvoke : (preInvoke config now).run b =
    match (arrived config now b).state with
    | .closed => (arrived config now b, some false)
    | .open => (arrived config now b, none)
    | .halfOpen =>
      if config.halfOpenMaxCalls ≤ (arrived config now b).halfOpenCalls then
        (arrived config now b, none)
      else ({ arrived config now b with
        halfOpenCalls := (arrived config now b).halfOpenCalls + 1 }, some true) := by
  rw [preInvoke, Prog.run_bind, run_getState]
  generalize arrived config now b = b
  cases hstate : b.state with
  | closed => rfl
  | «open» => rfl
  | halfOpen =>
    by_cases hfull : config.halfOpenMaxCalls ≤ b.halfOpenCalls
    · simp [hfull]
    · simp [hfull]

/-- A success counts in a breaker that is half open, and may close it. -/
theorem run_handleSuccess : (handleSuccess config).run b =
    (if b.state = .halfOpen then
      if config.halfOpenMaxCalls ≤ b.successCount + 1 then
        { b with state := .closed, failureCount := 0, successCount := 0, halfOpenCalls := 0 }
      else { b with failureCount := 0, successCount := b.successCount + 1 }
    else { b with failureCount := 0 }, ()) := by
  by_cases hhalf : b.state = .halfOpen
  · by_cases hmany : config.halfOpenMaxCalls ≤ b.successCount + 1
    · simp [handleSuccess, hhalf, hmany]
    · simp [handleSuccess, hhalf, hmany]
  · simp [handleSuccess, hhalf]

/-- A failure opens a breaker that is half open, and may open one that is closed. -/
theorem run_handleFailure : ((handleFailure config now).run b).1 =
    let failed := { b with lastFailureTime := now, failureCount := b.failureCount + 1 }
    if config.failureThreshold ≤ b.failureCount + 1 then
      if b.state = .open then failed else { failed with state := .open, successCount := 0 }
    else if b.state = .halfOpen then
      { failed with state := .open, successCount := 0, halfOpenCalls := 0 }
    else failed := by
  by_cases hmany : config.failureThreshold ≤ b.failureCount + 1
  · by_cases hopen : b.state = .open
    · simp [handleFailure, hmany, hopen]
    · simp [handleFailure, hmany, hopen]
  · by_cases hhalf : b.state = .halfOpen
    · simp [handleFailure, hmany, hhalf]
    · simp [handleFailure, hmany, hhalf]

end LlmBreaker

/-! ### Calls of the model -/

/-- `MiddlewareModel`, of whose middlewares one is the breaker. -/
structure MiddlewareModel where
  /-- How many middlewares come before the breaker. -/
  before : ℕ
  /-- How many come after it. -/
  after : ℕ
  /-- What the breaker is set to. -/
  config : LlmBreakerConfig

/-- Where a call is. -/
inductive Phase where
  /-- `pre_invoke` of this middleware is next, or the call of the inner model. -/
  | pre (index : ℕ)
  /-- `post_invoke` of the middleware before this one is next, with a result that is a success or not. -/
  | post (index : ℕ) (ok : Bool)

/-- A call in flight. -/
structure Call where
  /-- Where it is. -/
  phase : Phase := .pre 0
  /-- The breaker has counted it, and has not been told what has become of it. -/
  slot : Bool := false

/-- What comes from outside at a step of a call. -/
structure Outcome where
  /-- The clock. -/
  now : UInt64 := 0
  /-- Another middleware returns an error. -/
  rejects : Bool := false
  /-- The result is a success. -/
  ok : Bool := true

namespace MiddlewareModel

variable (m : MiddlewareModel)

/-- How many middlewares there are. -/
def length : ℕ := m.before + 1 + m.after

/-- What a call does next in `invoke`.  Other middlewares may change the result, and end the call with an
error of their own. -/
def act (c : Call) (x : Outcome) : Prog LlmBreaker (Option Call) :=
  match c.phase with
  | .pre i =>
    if i = m.length then pure (some { c with phase := .post m.length x.ok })
    else if i = m.before then do
      match ← LlmBreaker.preInvoke m.config x.now with
      | none => return none
      | some slot => return some { phase := .pre (i + 1), slot }
    else if x.rejects then pure none
    else pure (some { c with phase := .pre (i + 1) })
  | .post 0 _ => pure none
  | .post (i + 1) ok =>
    if i = m.before then do
      LlmBreaker.postInvoke m.config x.now ok
      return some { phase := .post i ok, slot := false }
    else if x.rejects then pure none
    else pure (some { c with phase := .post i x.ok })

/-- The step of a call is a hook of another middleware, and it returns an error. -/
def Rejected (c : Call) (x : Outcome) : Prop :=
  x.rejects ∧ match c.phase with
    | .pre i => i ≠ m.length ∧ i ≠ m.before
    | .post 0 _ => False
    | .post (i + 1) _ => i ≠ m.before

/-- No middleware rejects a call that the breaker has counted. -/
def Keeps (c : Call) (x : Outcome) : Prop := ¬ (c.slot ∧ m.Rejected c x)

/-- How many calls in flight are counted. -/
def slots (calls : List (Option Call)) : ℕ := calls.countP fun c => (c.map Call.slot).getD false

/-- A call that is counted has come past the breaker, and not back to it. -/
def Past (c : Call) : Prop :=
  c.slot → match c.phase with
    | .pre i => m.before < i ∧ i ≤ m.length
    | .post i _ => m.before < i

/-- What the breaker shows of the calls that it has counted, where `n` of them are in flight. -/
structure Counts (m : MiddlewareModel) (b : LlmBreaker) (n : ℕ) : Prop where
  /-- Successes are only counted by a breaker that is half open. -/
  idle : b.state ≠ .halfOpen → b.successCount = 0
  /-- It is closed when there are enough of them. -/
  successes : b.state = .halfOpen → b.successCount < m.config.halfOpenMaxCalls
  /-- A call that it has counted has come back with a success, or is in flight. -/
  counted : b.state = .halfOpen → b.halfOpenCalls.toNat ≤ b.successCount.toNat + n

/-- What holds when no hook of the breaker is under way. -/
structure Inv (m : MiddlewareModel) (s : LlmBreaker × List (Option Call)) : Prop where
  /-- The counters of the breaker. -/
  counts : m.Counts s.1 (slots s.2)
  /-- Where the calls are. -/
  past : ∀ c, some c ∈ s.2 → m.Past c

variable {m} {b : LlmBreaker} {x : Outcome} {n : ℕ}

theorem slots_split (ks ls : List (Option Call)) (c : Option Call) :
    slots (ks ++ c :: ls) = slots (ks ++ ls) + if (c.map Call.slot).getD false then 1 else 0 := by
  simp only [slots, List.countP_append, List.countP_cons]
  omega

/-- A counter that is below some number is not at its end. -/
theorem toNat_add_one {a k : UInt32} (h : a < k) : (a + 1).toNat = a.toNat + 1 := by
  have hlt := UInt32.lt_iff_toNat_lt.mp h
  have hbound := k.toNat_lt
  rw [UInt32.toNat_add, UInt32.toNat_one, Nat.mod_eq_of_lt (by omega)]

/-- A breaker that is not half open. -/
theorem counts_of_idle (hstate : b.state ≠ .halfOpen) (hzero : b.successCount = 0) : m.Counts b n :=
  ⟨fun _ => hzero, fun h => absurd h hstate, fun h => absurd h hstate⟩

/-- More calls in flight do no harm. -/
theorem Counts.mono (h : m.Counts b n) {k : ℕ} (hk : n ≤ k) : m.Counts b k :=
  ⟨h.idle, h.successes, fun hhalf => Nat.le_trans (h.counted hhalf) (by omega)⟩

/-- A breaker that has become half open has counted nothing. -/
theorem Counts.arrived (hmax : 1 ≤ m.config.halfOpenMaxCalls) (h : m.Counts b n) (now : UInt64) :
    m.Counts (b.arrived m.config now) n := by
  unfold LlmBreaker.arrived
  split
  next hdue =>
    have hzero : b.successCount = 0 := h.idle (by simp [hdue.1])
    refine ⟨fun hne => absurd rfl hne, fun _ => ?_, fun _ => ?_⟩
    · show b.successCount < _
      rw [hzero, UInt32.lt_iff_toNat_lt]
      exact UInt32.le_iff_toNat_le.mp hmax
    · exact Nat.zero_le _
  next => exact h

/-- `pre_invoke` counts a call that it lets through while it is half open. -/
theorem Counts.preInvoke (hmax : 1 ≤ m.config.halfOpenMaxCalls) (h : m.Counts b n) (now : UInt64) :
    m.Counts ((LlmBreaker.preInvoke m.config now).run b).1
      (n + if ((LlmBreaker.preInvoke m.config now).run b).2.getD false then 1 else 0) := by
  have harrived := h.arrived hmax now
  rw [LlmBreaker.run_preInvoke]
  generalize b.arrived m.config now = b at harrived
  cases hstate : b.state with
  | closed => exact harrived
  | «open» => exact harrived
  | halfOpen =>
    by_cases hfull : m.config.halfOpenMaxCalls ≤ b.halfOpenCalls
    · simp only [hfull, ↓reduceIte, Option.getD_none, Bool.false_eq_true, Nat.add_zero]
      exact harrived
    · simp only [hfull, ↓reduceIte, Option.getD_some]
      refine ⟨fun hne => absurd hstate hne, harrived.successes, fun _ => ?_⟩
      have hcounted := harrived.counted hstate
      show (b.halfOpenCalls + 1).toNat ≤ b.successCount.toNat + (n + 1)
      rw [toNat_add_one (UInt32.not_le.mp hfull)]
      omega

/-- `post_invoke` is told what has become of a call that was counted, or of another. -/
theorem Counts.postInvoke (h : m.Counts b (n + 1)) (now : UInt64) (ok : Bool) :
    m.Counts ((LlmBreaker.postInvoke m.config now ok).run b).1 n := by
  cases ok with
  | true =>
    rw [LlmBreaker.postInvoke, if_pos rfl, LlmBreaker.run_handleSuccess]
    by_cases hhalf : b.state = .halfOpen
    · have hsuccesses := h.successes hhalf
      have hcounted := h.counted hhalf
      by_cases hmany : m.config.halfOpenMaxCalls ≤ b.successCount + 1
      · rw [if_pos hhalf, if_pos hmany]
        exact counts_of_idle (by simp) rfl
      · rw [if_pos hhalf, if_neg hmany]
        refine ⟨fun hne => absurd hhalf hne, fun _ => UInt32.not_le.mp hmany, fun _ => ?_⟩
        show b.halfOpenCalls.toNat ≤ (b.successCount + 1).toNat + n
        rw [toNat_add_one hsuccesses]
        omega
    · rw [if_neg hhalf]
      exact counts_of_idle hhalf (h.idle hhalf)
  | false =>
    rw [LlmBreaker.postInvoke, if_neg Bool.false_ne_true, LlmBreaker.run_handleFailure]
    by_cases hmany : m.config.failureThreshold ≤ b.failureCount + 1
    · by_cases hopen : b.state = .open
      · simp only [hmany, hopen, ↓reduceIte]
        exact counts_of_idle (by simp) (h.idle (by simp [hopen]))
      · simp only [hmany, hopen, ↓reduceIte]
        exact counts_of_idle (by simp) rfl
    · by_cases hhalf : b.state = .halfOpen
      · simp only [hmany, hhalf, ↓reduceIte]
        exact counts_of_idle (by simp) rfl
      · simp only [hmany, hhalf, ↓reduceIte]
        exact counts_of_idle hhalf (h.idle hhalf)

/-- What has become of one call, and of the breaker. -/
theorem Inv.put {ks ls : List (Option Call)} {c : Call} (h : Inv m (b, ks ++ some c :: ls))
    {b' : LlmBreaker} {c' : Option Call}
    (hcounts : m.Counts b' (slots (ks ++ ls) + if (c'.map Call.slot).getD false then 1 else 0))
    (hpast : ∀ call, c' = some call → m.Past call) : Inv m (b', ks ++ c' :: ls) where
  counts := by
    rw [slots_split]
    exact hcounts
  past call hcall := by
    have hold : ∀ d, d ∈ ks ++ ls → d ∈ ks ++ some c :: ls := by
      intro d hd
      simp only [List.mem_append, List.mem_cons] at hd ⊢
      tauto
    obtain hks | hls := List.mem_append.mp hcall
    · exact h.past call (hold _ (List.mem_append_left _ hks))
    · obtain heq | hls := List.mem_cons.mp hls
      · exact hpast call heq.symm
      · exact h.past call (hold _ (List.mem_append_right _ hls))

/-- **What a step of a call preserves**, if the call is not one that is counted and then rejected. -/
theorem Inv.act (hmax : 1 ≤ m.config.halfOpenMaxCalls) {ks ls : List (Option Call)} {c : Call}
    (hkeeps : m.Keeps c x) (h : Inv m (b, ks ++ some c :: ls)) :
    Inv m (((m.act c x).run b).1, ks ++ ((m.act c x).run b).2 :: ls) := by
  have hcounts : m.Counts b (slots (ks ++ ls) + if c.slot then 1 else 0) := by
    have hsplit := h.counts
    rw [slots_split] at hsplit
    exact hsplit
  have hpast : m.Past c := h.past c (List.mem_append_right _ List.mem_cons_self)
  -- a call that is counted does not end without the breaker
  have hends : m.Rejected c x → c.slot = false := fun hrejected =>
    Bool.eq_false_iff.mpr fun hslot => hkeeps ⟨hslot, hrejected⟩
  obtain ⟨phase, slot⟩ := c
  cases phase with
  | pre i =>
    by_cases hinner : i = m.length
    · simp only [MiddlewareModel.act, if_pos hinner, Prog.run_pure]
      refine h.put hcounts ?_
      rintro _ ⟨rfl⟩ -
      show m.before < m.length
      unfold length
      omega
    by_cases hbreaker : i = m.before
    · -- it has not been counted before
      have hslot : slot = false := Bool.eq_false_iff.mpr fun hslot => by
        have hlt := (hpast hslot).1
        omega
      subst hslot
      have hpre := Counts.preInvoke hmax hcounts x.now
      simp only [MiddlewareModel.act, if_neg hinner, if_pos hbreaker, Prog.run_bind]
      cases hrun : ((LlmBreaker.preInvoke m.config x.now).run b).2 with
      | none =>
        rw [hrun] at hpre
        exact h.put hpre fun _ hcall => by cases hcall
      | some slot =>
        rw [hrun] at hpre
        refine h.put hpre ?_
        rintro _ ⟨rfl⟩ -
        have hlt : m.before < m.length := by
          unfold length
          omega
        exact ⟨by omega, by omega⟩
    · simp only [MiddlewareModel.act, if_neg hinner, if_neg hbreaker]
      by_cases hrejects : x.rejects = true
      · obtain rfl : slot = false := hends ⟨hrejects, hinner, hbreaker⟩
        rw [if_pos hrejects]
        exact h.put hcounts fun _ hcall => by cases hcall
      · rw [if_neg hrejects]
        refine h.put hcounts ?_
        rintro _ ⟨rfl⟩ hslot
        obtain ⟨hlt, hle⟩ := hpast hslot
        exact ⟨by omega, by omega⟩
  | post i ok =>
    cases i with
    | zero =>
      have hslot : slot = false := Bool.eq_false_iff.mpr fun hslot => Nat.not_lt_zero _ (hpast hslot)
      subst hslot
      exact h.put hcounts fun _ hcall => by cases hcall
    | succ i =>
      by_cases hbreaker : i = m.before
      · have hpost := Counts.postInvoke (hcounts.mono (k := slots (ks ++ ls) + 1) (by split <;> omega))
          x.now ok
        simp only [MiddlewareModel.act, if_pos hbreaker, Prog.run_bind, Prog.run_pure]
        refine h.put hpost ?_
        rintro _ ⟨rfl⟩ hslot
        cases hslot
      · simp only [MiddlewareModel.act, if_neg hbreaker]
        by_cases hrejects : x.rejects = true
        · obtain rfl : slot = false := hends ⟨hrejects, hbreaker⟩
          rw [if_pos hrejects]
          exact h.put hcounts fun _ hcall => by cases hcall
        · rw [if_neg hrejects]
          refine h.put hcounts ?_
          rintro _ ⟨rfl⟩ hslot
          have hlt : m.before < i + 1 := hpast hslot
          show m.before < i
          omega

/-! ### Runs -/

/-- No call is in flight. -/
def Quiet (s : System LlmBreaker Call) : Prop := ∀ p ∈ s.parties, p = .done none

theorem inv_of_whole (hmax : 1 ≤ m.config.halfOpenMaxCalls) {s : LlmBreaker × List (Option Call)}
    (h : Whole m.act {} m.Keeps {} s) : Inv m s := by
  refine h.invariant ?_ (fun shared ls hinv => ?_) fun shared ks c x ls hkeeps hinv => hinv.act hmax hkeeps
  · exact ⟨counts_of_idle (by simp) rfl, fun _ hc => by cases hc⟩
  · refine ⟨?_, fun c hc => ?_⟩
    · rw [slots_split, List.append_nil]
      exact hinv.counts
    · obtain hold | hnew := List.mem_append.mp hc
      · exact hinv.past c hold
      · obtain rfl := Option.some.inj (List.mem_singleton.mp hnew)
        exact fun hslot => by cases hslot

theorem slots_of_none {ls : List (Option Call)} (h : ∀ c ∈ ls, c = none) : slots ls = 0 := by
  refine List.countP_eq_zero.mpr fun c hc => ?_
  rw [h c hc]
  simp

/-- With a call left to count, the breaker lets one through. -/
theorem preInvoke_of_lt {config : LlmBreakerConfig} (hhalf : b.state = .halfOpen)
    (hlt : b.halfOpenCalls < config.halfOpenMaxCalls) (now : UInt64) :
    ((LlmBreaker.preInvoke config now).run b).2 = some true := by
  have harrived : b.arrived config now = b := if_neg fun hdue => by simp [hdue.1] at hhalf
  rw [LlmBreaker.run_preInvoke, harrived, hhalf]
  simp [UInt32.not_le.mpr hlt]

variable (m) in
/-- **A breaker that is half open and has no call in flight lets one through**, if no hook of the breaker was
disturbed by another, and no middleware has rejected a call that the breaker had counted. -/
theorem probes_left (hmax : 1 ≤ m.config.halfOpenMaxCalls) {s : System LlmBreaker Call}
    (hs : Reached m.act {} (Calm m.Keeps) {} s) (hquiet : Quiet s)
    (hhalf : s.shared.state = .halfOpen) :
    s.shared.halfOpenCalls < m.config.halfOpenMaxCalls ∧
      ∀ now, ((LlmBreaker.preInvoke m.config now).run s.shared).2 = some true := by
  have hinv := inv_of_whole hmax hs.whole
  have hrest : ∀ p ∈ s.parties, p.AtRest := by
    intro p hp
    rw [hquiet p hp]
    trivial
  obtain ⟨ls, hls, hcomplete⟩ := complete_of_atRest hrest
  have hnone : ∀ c ∈ ls, c = none := by
    intro c hc
    have hparty := hquiet (.done c) (by rw [hls]; exact List.mem_map_of_mem hc)
    exact Prog.done.inj hparty
  rw [hcomplete] at hinv
  have hsuccesses := UInt32.lt_iff_toNat_lt.mp (hinv.counts.successes hhalf)
  have hcounted := hinv.counts.counted hhalf
  rw [slots_of_none hnone] at hcounted
  have hlt : s.shared.halfOpenCalls < m.config.halfOpenMaxCalls :=
    UInt32.lt_iff_toNat_lt.mpr (Nat.lt_of_le_of_lt hcounted hsuccesses)
  exact ⟨hlt, preInvoke_of_lt hhalf hlt⟩

/-! ### One call after the other -/

variable (m) in
/-- Steps of one call, while no other takes one. -/
def drive : LlmBreaker × Option Call → List Outcome → LlmBreaker × Option Call
  | s, [] => s
  | (b, none), _ :: _ => (b, none)
  | (b, some c), x :: xs => drive ((m.act c x).run b) xs

theorem whole_drive {Good : Call → Outcome → Prop} {ks ls : List (Option Call)} {xs : List Outcome}
    (hgood : ∀ x ∈ xs, ∀ c, Good c x) {c : Option Call}
    (h : Whole m.act {} Good {} (b, ks ++ c :: ls)) :
    Whole m.act {} Good {} ((m.drive (b, c) xs).1, ks ++ (m.drive (b, c) xs).2 :: ls) := by
  induction xs generalizing b c with
  | nil => exact h
  | cons x xs ih =>
    cases c with
    | none => exact h
    | some c =>
      refine ih (fun y hy => hgood y (List.mem_cons_of_mem _ hy)) ?_
      exact h.next (hgood x List.mem_cons_self c)

/-- A breaker that opens at once, and lets calls through again at once. -/
def eager (calls : UInt32) : MiddlewareModel where
  before := 0
  after := 1
  config := { failureThreshold := 1, recoveryTimeout := 0, halfOpenMaxCalls := calls }

/-- A call whose model fails, at time 1. -/
def failure : List Outcome := List.replicate 6 { now := 1, ok := false }

/-- A call that succeeds. -/
def success : List Outcome := List.replicate 6 { now := 1 }

/-- A call that the second middleware rejects, after it has come past the breaker. -/
def rejection : List Outcome := [{ now := 1 }, { rejects := true }]

/-- A call after a failure. -/
theorem whole_afterFailure {Good : Call → Outcome → Prop} (calls : UInt32)
    (hfailure : ∀ x ∈ failure, ∀ c, Good c x) {xs : List Outcome} (hgood : ∀ x ∈ xs, ∀ c, Good c x) :
    Whole (eager calls).act {} Good {}
      (((eager calls).drive ({ state := .open, failureCount := 1, lastFailureTime := 1 }, some {}) xs).1,
        [none, ((eager calls).drive
          ({ state := .open, failureCount := 1, lastFailureTime := 1 }, some {}) xs).2]) := by
  have hfirst : Whole (eager calls).act {} Good {} ({}, [] ++ some ({} : Call) :: []) := Whole.init.join
  have hopen : Whole (eager calls).act {} Good {}
      ({ state := .open, failureCount := 1, lastFailureTime := 1 }, [none]) := whole_drive hfailure hfirst
  have hsecond : Whole (eager calls).act {} Good {}
      ({ state := .open, failureCount := 1, lastFailureTime := 1 }, [none] ++ some ({} : Call) :: []) := hopen.join
  exact whole_drive hgood hsecond

/-- A success after a failure: the breaker has one call left. -/
theorem probes_left_eager : ∃ s : System LlmBreaker Call, s.shared.successCount = 1 ∧
    s.shared.state = .halfOpen ∧ s.shared.halfOpenCalls < 2 := by
  have hkeeps : ∀ x : Outcome, x.rejects = false → ∀ c, (eager 2).Keeps c x :=
    fun x hx c h => by simp [hx, Rejected] at h
  have hsuccess : ∀ x ∈ success, ∀ c, (eager 2).Keeps c x := fun x hx =>
    hkeeps x (List.eq_of_mem_replicate hx ▸ rfl)
  have hwhole := whole_afterFailure 2 (fun x hx => hkeeps x (List.eq_of_mem_replicate hx ▸ rfl)) hsuccess
  refine ⟨_, rfl, rfl, (probes_left (eager 2) (by decide) hwhole.reached ?_ rfl).1⟩
  intro p hp
  obtain rfl | hp := List.mem_cons.mp hp
  · rfl
  · exact List.mem_singleton.mp hp

/-- A rejection after a failure: none is left. -/
theorem rejection_sticks : ¬ ∀ (m : MiddlewareModel), 1 ≤ m.config.halfOpenMaxCalls →
    ∀ s : System LlmBreaker Call, Reached m.act {} (fun _ _ => True) {} s → Quiet s →
      s.shared.state = .halfOpen → s.shared.halfOpenCalls < m.config.halfOpenMaxCalls := by
  intro hclaim
  have hany : ∀ xs : List Outcome, ∀ x ∈ xs, ∀ _ : Call, True := fun _ _ _ _ => trivial
  have hwhole := whole_afterFailure 1 (hany failure) (hany rejection)
  have hlt := hclaim (eager 1) (by decide) _ (hwhole.reached.mono fun _ _ _ => trivial) ?_ rfl
  · exact absurd hlt (by decide)
  · intro p hp
    obtain rfl | hp := List.mem_cons.mp hp
    · rfl
    · exact List.mem_singleton.mp hp

end MiddlewareModel

end Juncture
