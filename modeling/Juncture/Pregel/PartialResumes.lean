import Juncture.Pregel.Frames

/-!
# Partial resumes

A caller may answer some of the pending interrupts and leave the others for later.  The scratchpad
is there to remember the answered ones, so that the positions of their calls are passed over with a
`Null` resume when the node runs again.  After every superstep, though, the loop marks everything
that was pending, whether there was a value for it or not, and from then on an interrupt that nobody
has answered is passed over as well.

* `processed_iff` : what the scratchpad holds along a run.
* `resumesEarned_iff` : which sequences of runs never pass over an unanswered interrupt.
-/

namespace Juncture

/-! ### One resume vector -/

/-- The value that the caller's resume value has for an interrupt. -/
def ResumeValue.offered : ResumeValue → InterruptSignal → Option Json
  | .single value, _ => some value
  | .byId map, signal => signal.id.bind map.lookup
  | .byNamespace map, signal => signal.id.bind fun id => (extractNamespace id).bind map.lookup

section Vector

variable {rv : ResumeValue} {pad : Scratchpad} {signal : InterruptSignal}

/-- What is not offered depends on the scratchpad alone. -/
theorem resumeFor_of_not_offered (h : rv.offered signal = none) :
    resumeFor rv pad signal =
      if signal.id.any pad.isInterruptProcessed then some .null else none := by
  obtain ⟨index, id, payload⟩ := signal
  cases rv with
  | single value => cases h
  | byId map =>
    cases id with
    | none => rfl
    | some id =>
      have h : map.lookup id = none := h
      simp only [resumeFor, h]
      rfl
  | byNamespace map =>
    cases id with
    | none => rfl
    | some id =>
      have h : (extractNamespace id).bind map.lookup = none := h
      simp only [resumeFor, h]
      rfl

/-- A `Null` that was not offered comes from the scratchpad. -/
theorem processed_of_resumeFor (h : resumeFor rv pad signal = some .null)
    (hoff : rv.offered signal ≠ some .null) :
    ∃ id, signal.id = some id ∧ pad.isInterruptProcessed id = true := by
  obtain ⟨index, id, payload⟩ := signal
  cases id with
  | none =>
    cases rv with
    | single value => exact absurd h hoff
    | byId map => cases h
    | byNamespace map => cases h
  | some id =>
    refine ⟨id, rfl, ?_⟩
    by_contra hpad
    have hnull : pad.getNullResume id = false := by simpa [Scratchpad.getNullResume] using hpad
    apply hoff
    cases rv with
    | single value => simpa [resumeFor, hnull, ResumeValue.offered] using h
    | byId map =>
      show map.lookup id = some .null
      cases hmap : map.lookup id with
      | none => simp [resumeFor, hmap, hnull] at h
      | some value => simpa [resumeFor, hmap] using h
    | byNamespace map =>
      show (extractNamespace id).bind map.lookup = some .null
      cases hmap : (extractNamespace id).bind map.lookup with
      | none => simp [resumeFor, hmap, hnull] at h
      | some value => simpa [resumeFor, hmap] using h

theorem getResumeValue_matchResume {pending : List InterruptSignal} {j : ℕ}
    (h : pending[j]? = some signal) (rv : Option ResumeValue) :
    getResumeValue (matchResumeToInterrupts rv pending pad) j =
      rv.bind fun rv => resumeFor rv pad signal := by
  have hne : pending ≠ [] := by
    rintro rfl
    cases h
  cases rv with
  | none => rfl
  | some rv =>
    obtain ⟨s, ss, rfl⟩ := List.exists_cons_of_ne_nil hne
    have hmap : matchResumeToInterrupts (some rv) (s :: ss) pad =
        (s :: ss).map (resumeFor rv pad) := by
      cases rv <;> rfl
    rw [hmap, getResumeValue, List.getElem?_map, h]
    rfl

theorem offered_congr {signal' : InterruptSignal} (h : signal.id = signal'.id) :
    rv.offered signal = rv.offered signal' := by
  cases rv with
  | single value => rfl
  | byId map => simp only [ResumeValue.offered, h]
  | byNamespace map => simp only [ResumeValue.offered, h]

/-- An offered value reaches its position as long as the interrupt is not marked. -/
theorem resumeFor_of_offered {value : Json} (h : rv.offered signal = some value)
    (hpad : ∀ id, signal.id = some id → pad.isInterruptProcessed id = false) :
    resumeFor rv pad signal = some value := by
  obtain ⟨index, id, payload⟩ := signal
  cases id with
  | none =>
    cases rv with
    | single v => exact h
    | byId map => cases h
    | byNamespace map => cases h
  | some id =>
    have hnull : pad.getNullResume id = false := hpad id rfl
    cases rv with
    | single v => simpa [resumeFor, hnull, ResumeValue.offered] using h
    | byId map =>
      have h : map.lookup id = some value := h
      simp only [resumeFor, h]
    | byNamespace map =>
      have h : (extractNamespace id).bind map.lookup = some value := h
      simp only [resumeFor, h]

end Vector

namespace PregelLoop

variable {S σ : Type} [State S] {l l' l₁ p q : PregelLoop S σ}

/-! ### What the scratchpad holds -/

/-- What the resume vector is computed from. -/
def answering (l : PregelLoop S σ) :
    List InterruptSignal × Scratchpad × Option ResumeValue :=
  (l.pendingInterrupts, l.scratchpad, l.runnableConfig.resumeValue)

theorem answering_outside (l : PregelLoop S σ) (round : Round S) :
    (l.outside round).answering = l.answering := by
  obtain ⟨_, _, h⟩ := l.outside_eq round
  rw [h]
  rfl

theorem answering_prepare (l : PregelLoop S σ) : l.prepare.1.answering = l.answering := by
  unfold prepare
  split
  · rfl
  · dsimp only [checkCircuitBreakers]
    split_ifs <;> rfl

/-- The interrupt is pending. -/
def Pends (l : PregelLoop S σ) (id : String) : Prop :=
  ∃ s ∈ l.pendingInterrupts, s.id = some id

theorem isInterruptProcessed_mark (l : PregelLoop S σ) (id : String) :
    l.markInterruptsProcessed.scratchpad.isInterruptProcessed id = true ↔
      l.scratchpad.isInterruptProcessed id = true ∨ l.Pends id := by
  have hfold : ∀ (ids : List String) (pad : Scratchpad),
      (ids.foldl .markInterruptProcessed pad).isInterruptProcessed id = true ↔
        pad.isInterruptProcessed id = true ∨ id ∈ ids := by
    intro ids
    induction ids with
    | nil => intro pad; simp
    | cons i ids ih =>
      intro pad
      rw [List.foldl_cons, ih]
      simp only [Scratchpad.isInterruptProcessed, Scratchpad.markInterruptProcessed,
        List.contains_iff_mem, List.mem_insert_iff, List.mem_cons]
      tauto
  refine (hfold _ _).trans (or_congr Iff.rfl ?_)
  simp only [List.mem_filterMap, Pends]

variable [InterruptHash]

theorem scratchpad_runPrepared {round : Round S} {blocked : List (TaskOutput S)}
    {result : SuperstepResult S} (h : l.runPrepared round blocked = (l', .ok result)) :
    l'.scratchpad = l.markInterruptsProcessed.scratchpad := by
  unfold runPrepared at h
  dsimp only at h
  split at h
  · cases h
  · cases h
    rfl

theorem scratchpad_afterTick {result : SuperstepResult S}
    (h : l.afterTick result = (l', .ok ())) : l'.scratchpad = l.scratchpad := by
  have hset : ∀ {k k' : PregelLoop S σ}, k.Settled k' → k'.scratchpad = k.scratchpad := by
    rintro k _ ⟨k', hk', _, _, _, _, _, _, _, _, _, _, _, rfl⟩
    obtain rfl | rfl := hk'
    · rfl
    · unfold finishAllChannels
      split_ifs <;> rfl
  obtain ⟨tasks, k, -, hk, hf⟩ := afterTick_advanced h
  have hk : k.scratchpad = l.scratchpad := by
    obtain ⟨_, _, _, _, _, _, rfl⟩ := hk
    rfl
  obtain ⟨-, hs⟩ | ⟨-, hs⟩ := finishTick_settled hf
  · exact (hset hs).trans hk
  · refine (hset hs).trans (Eq.trans ?_ hk)
    obtain ⟨_, _, _, _, heq⟩ := k.reported_eq result.bubbleUps
    rw [heq]

/-- The runner is called for the superstep in round `n`, on the loop `p`. -/
def StartsAt (l₀ : PregelLoop S σ) (rounds : ℕ → Round S) (n : ℕ) (p : PregelLoop S σ) : Prop :=
  ∃ t blocked, l₀.head rounds n = some t ∧ (t.outside (rounds n)).GoesOn ∧
    (t.outside (rounds n)).prepare = (p, .ok blocked)

variable {l₀ t : PregelLoop S σ} {rounds : ℕ → Round S} {n m : ℕ} {id : String}

theorem StartsAt.unique (h : l₀.StartsAt rounds n p) (h' : l₀.StartsAt rounds n q) : p = q := by
  obtain ⟨t, _, ht, -, hp⟩ := h
  obtain ⟨t', _, ht', -, hq⟩ := h'
  cases ht.symm.trans ht'
  cases hp.symm.trans hq
  rfl

theorem StartsAt.answering (h : l₀.StartsAt rounds n p) :
    ∃ t, l₀.head rounds n = some t ∧ p.answering = t.answering := by
  obtain ⟨t, blocked, ht, -, hp⟩ := h
  have hprep := (t.outside (rounds n)).answering_prepare
  rw [hp] at hprep
  exact ⟨t, ht, hprep.trans (t.answering_outside _)⟩

/-- A turn marks what was pending when its superstep started. -/
theorem scratchpad_turn (ht : l₀.head rounds n = some t) (h : t.turn (rounds n) = some l') :
    ∃ p, l₀.StartsAt rounds n p ∧ l'.scratchpad = p.markInterruptsProcessed.scratchpad := by
  obtain ⟨l₁, result, hs, ha⟩ := turn_eq_some_iff.1 h
  obtain ⟨hgo, r, hexec, -⟩ := superstep_eq_some_iff.1 hs
  obtain ⟨p, blocked, hprep, hrun⟩ := andThen_eq_ok_iff.1 hexec
  exact ⟨p, ⟨t, blocked, ht, hgo, hprep⟩,
    (scratchpad_afterTick ha).trans (scratchpad_runPrepared hrun)⟩

/-- **What the scratchpad holds**: everything that was pending when an earlier superstep of the run
started. -/
theorem processed_iff (h₀ : l₀.scratchpad = {}) (h : l₀.head rounds n = some l) :
    l.scratchpad.isInterruptProcessed id = true ↔
      ∃ m < n, ∃ p, l₀.StartsAt rounds m p ∧ p.Pends id := by
  refine Machine.trace_invariant (I := fun n l => l.scratchpad.isInterruptProcessed id = true ↔
    ∃ m < n, ∃ p, l₀.StartsAt rounds m p ∧ p.Pends id) ?_ ?_ h
  · rw [h₀]
    simp [Scratchpad.isInterruptProcessed]
  · intro n t u ht ih hturn
    obtain ⟨p, hp, hpad⟩ := scratchpad_turn ht hturn
    obtain ⟨t', ht', hans⟩ := hp.answering
    cases ht.symm.trans ht'
    have hpt : p.scratchpad = t.scratchpad := congrArg (fun a => a.2.1) hans
    rw [hpad, isInterruptProcessed_mark, hpt, ih]
    constructor
    · rintro (⟨m, hm, hstart⟩ | hpend)
      · exact ⟨m, by omega, hstart⟩
      · exact ⟨n, by omega, p, hp, hpend⟩
    · rintro ⟨m, hm, q, hq, hpend⟩
      obtain hlt | rfl := Nat.lt_succ_iff_lt_or_eq.1 hm
      · exact .inl ⟨m, hlt, q, hq, hpend⟩
      · cases hq.unique hp
        exact .inr hpend

theorem StartsAt.processed_iff (h₀ : l₀.scratchpad = {}) (h : l₀.StartsAt rounds n p) :
    p.scratchpad.isInterruptProcessed id = true ↔
      ∃ m < n, ∃ q, l₀.StartsAt rounds m q ∧ q.Pends id := by
  obtain ⟨t, ht, hans⟩ := h.answering
  rw [show p.scratchpad = t.scratchpad from congrArg (fun a => a.2.1) hans]
  exact PregelLoop.processed_iff h₀ ht

theorem StartsAt.resumeValue (h : l₀.StartsAt rounds n p) :
    p.runnableConfig.resumeValue = l₀.runnableConfig.resumeValue := by
  obtain ⟨t, ht, hans⟩ := h.answering
  rw [show p.runnableConfig.resumeValue = t.runnableConfig.resumeValue from
    congrArg (fun a => a.2.2) hans]
  have hconfig := congrArg RunnableConfig.resumeValue (fixed_head ht).config
  exact hconfig

/-! ### Positions of a superstep -/

/-- The value that the run has for an interrupt. -/
def offered (l : PregelLoop S σ) (signal : InterruptSignal) : Option Json :=
  l.runnableConfig.resumeValue.bind fun rv => rv.offered signal

/-- The interrupt is pending, and the run has a value for it. -/
def Offers (l : PregelLoop S σ) (id : String) : Prop :=
  ∃ s ∈ l.pendingInterrupts, s.id = some id ∧ (l.offered s).isSome = true

/-- The interrupt is pending, and the value that the run has for it is at its position. -/
def Gives (l : PregelLoop S σ) (id : String) : Prop :=
  ∃ j s value, l.pendingInterrupts[j]? = some s ∧ s.id = some id ∧ l.offered s = some value ∧
    getResumeValue l.resumeValues j = some value

/-- The only task runs inline, its node makes the call number `j` and returns normally. -/
def CallsInline (l : PregelLoop S σ) (j : ℕ) : Prop :=
  ∃ task prog command, inlineTask l.runnerEnv l.pendingTasks = some task ∧ l.cancelled = false ∧
    l.runnerEnv.nodeCall l.state task = .ok prog ∧ j < prog.inlineCalls ∧
    prog.runInline = .ok command ∧
    (persistWrites l.runnerEnv (successOutput task command) l.store).2 = .ok ()

/-- A call at the position raises the interrupt again, in a superstep that does not fail. -/
def RaisesAgain (l : PregelLoop S σ) (round : Round S) (j : ℕ) : Prop :=
  getResumeValue l.resumeValues j = none ∧
    (l.Asks round j → (l.runTasks round).result.toOption.isSome = true →
      ∃ s ∈ (l.runTasks round).signals, s.index = j)

section Positions

omit [InterruptHash]

theorem getResumeValue_of_pending {j : ℕ} {signal : InterruptSignal}
    (h : l.pendingInterrupts[j]? = some signal) :
    getResumeValue l.resumeValues j =
      l.runnableConfig.resumeValue.bind fun rv => resumeFor rv l.scratchpad signal :=
  getResumeValue_matchResume h _

theorem Gives.offers (h : l.Gives id) : l.Offers id := by
  obtain ⟨j, s, value, hs, hid, hoff, -⟩ := h
  exact ⟨s, List.mem_of_getElem? hs, hid, by rw [hoff]; rfl⟩

theorem Offers.pends (h : l.Offers id) : l.Pends id := by
  obtain ⟨s, hs, hid, -⟩ := h
  exact ⟨s, hs, hid⟩

theorem settleInline_result_iff (env : RunnerEnv S σ) (task : PendingTask S) (store : σ)
    (nextUuid : Uuid) (r : Except JunctureError (Command S)) :
    (settleInline env task store nextUuid r).result.toOption.isSome = true ↔
      ∃ command, r = .ok command ∧
        (persistWrites env (successOutput task command) store).2 = .ok () := by
  cases r with
  | error e => simp [settleInline, Except.toOption]
  | ok command =>
    simp only [settleInline]
    rcases hput : persistWrites env (successOutput task command) store with ⟨store', e | ⟨⟩⟩
    · simp [Except.toOption, hput]
    · simp [Except.toOption, hput]

end Positions

/-- **When an unanswered call raises its interrupt again**: unless the inline path is taken, where
there is no channel to raise it on. -/
theorem raisesAgain_iff {round : Round S} {j : ℕ}
    (hnone : getResumeValue l.resumeValues j = none) :
    l.RaisesAgain round j ↔ ¬ l.CallsInline j := by
  unfold RaisesAgain
  rw [and_iff_right hnone]
  cases hinline : inlineTask l.runnerEnv l.pendingTasks with
  | some task =>
    have hrun := runTasks_of_inline round hinline
    rw [signals_of_inline (.inr (by rw [hinline]; rfl))]
    constructor
    · rintro h ⟨task', prog, command, htask, hc, hcall, hj, hok, hput⟩
      cases hinline.symm.trans htask
      obtain ⟨s, hs, -⟩ := h ⟨hnone, by rw [hinline]; exact ⟨hc, prog, hcall, hj⟩⟩ (by
        rw [hrun, executeInline, hcall]
        simp only [hc, Bool.false_eq_true, if_false]
        exact (settleInline_result_iff _ _ _ _ _).2 ⟨command, hok, hput⟩)
      cases hs
    · rintro h ⟨-, hask⟩ hok
      rw [hinline] at hask
      obtain ⟨hc, prog, hcall, hj⟩ := hask
      rw [hrun, executeInline, hcall] at hok
      simp only [hc, Bool.false_eq_true, if_false] at hok
      obtain ⟨command, hok, hput⟩ := (settleInline_result_iff _ _ _ _ _).1 hok
      exact absurd ⟨task, prog, command, hinline, hc, hcall, hj, hok, hput⟩ h
  | none =>
    refine iff_of_true (fun hask hok => ?_) ?_
    · obtain ⟨-, hask⟩ := hask
      rw [hinline] at hask
      obtain ⟨hne, c, hc, rfl⟩ := hask
      have hf : (l.spawned round).failure = none := by
        rw [runTasks_of_spawned round hne hinline] at hok
        cases hresult : (Superstep.outcome l.resumeValues (l.spawned round)).result with
        | error err =>
          rw [hresult] at hok
          cases hok
        | ok result => exact (Superstep.outcome_eq_ok_iff.1 hresult).1
      rw [signals_runTasks hne hinline hf]
      exact signal_of_call hf hc hnone
    · rintro ⟨task, _, _, htask, -⟩
      rw [hinline] at htask
      cases htask

/-- What is pending when a superstep starts is offered by the run, or not, for the whole run. -/
theorem Offers.of_pends (h : q.Offers id) (hp : l₀.StartsAt rounds m p)
    (hq : l₀.StartsAt rounds n q) (hpend : p.Pends id) : p.Offers id := by
  obtain ⟨s, hs, hid, hoff⟩ := h
  obtain ⟨s', hs', hid'⟩ := hpend
  refine ⟨s', hs', hid', ?_⟩
  rw [offered, hq.resumeValue] at hoff
  rw [offered, hp.resumeValue]
  cases hrv : l₀.runnableConfig.resumeValue with
  | none => rw [hrv] at hoff; cases hoff
  | some rv =>
    rw [hrv] at hoff
    exact (congrArg Option.isSome (offered_congr (hid'.trans hid.symm))).trans hoff

/-- **A value that is offered is given**, when the interrupt is pending for the first time. -/
theorem gives_of_offers (h₀ : l₀.scratchpad = {}) (hp : l₀.StartsAt rounds n p)
    (hoff : p.Offers id) : ∃ m ≤ n, ∃ q, l₀.StartsAt rounds m q ∧ q.Gives id := by
  classical
  have hex : ∃ m q, l₀.StartsAt rounds m q ∧ q.Pends id := ⟨n, p, hp, hoff.pends⟩
  obtain ⟨q, hq, hpend⟩ := Nat.find_spec hex
  have hle : Nat.find hex ≤ n := Nat.find_min' hex ⟨p, hp, hoff.pends⟩
  refine ⟨_, hle, q, hq, ?_⟩
  obtain ⟨s, hs, hid, hsome⟩ := hoff.of_pends hq hp hpend
  obtain ⟨j, hj⟩ := List.mem_iff_getElem?.1 hs
  obtain ⟨value, hvalue⟩ := Option.isSome_iff_exists.1 hsome
  refine ⟨j, s, value, hj, hid, hvalue, ?_⟩
  rw [getResumeValue_of_pending hj]
  obtain ⟨rv, hrv, hval⟩ := Option.bind_eq_some_iff.1 hvalue
  rw [hrv]
  refine resumeFor_of_offered hval fun id' hid' => ?_
  obtain rfl : id' = id := Option.some.inj (hid'.symm.trans hid)
  -- A mark would come from an earlier superstep.
  rw [← Bool.not_eq_true, hq.processed_iff h₀]
  rintro ⟨m, hm, q', hq', hpend'⟩
  exact Nat.find_min hex hm ⟨q', hq', hpend'⟩

/-- An interrupt that is left out and was pending before has a `Null` at its position. -/
theorem StartsAt.null_of_pends {j : ℕ} {signal : InterruptSignal} (h₀ : l₀.scratchpad = {})
    (hp : l₀.StartsAt rounds n p) (hj : p.pendingInterrupts[j]? = some signal)
    (hid : signal.id = some id) (hrv : l₀.runnableConfig.resumeValue ≠ none)
    (hoff : p.offered signal = none) (hm : m < n) (hq : l₀.StartsAt rounds m q)
    (hpend : q.Pends id) : getResumeValue p.resumeValues j = some .null := by
  obtain ⟨rv, hrv⟩ := Option.ne_none_iff_exists'.1 hrv
  rw [← hp.resumeValue] at hrv
  rw [offered, hrv] at hoff
  rw [getResumeValue_of_pending hj, hrv]
  refine (resumeFor_of_not_offered hoff).trans (if_pos ?_)
  rw [hid]
  exact (hp.processed_iff h₀).2 ⟨m, hm, q, hq, hpend⟩

/-- What has a `Null` at its position that the caller did not ask for was pending before. -/
theorem StartsAt.pends_of_null {j : ℕ} {signal : InterruptSignal} (h₀ : l₀.scratchpad = {})
    (hp : l₀.StartsAt rounds n p) (hj : p.pendingInterrupts[j]? = some signal)
    (hnull : getResumeValue p.resumeValues j = some .null)
    (hoff : p.offered signal ≠ some .null) :
    l₀.runnableConfig.resumeValue ≠ none ∧
      ∃ id, signal.id = some id ∧ ∃ m < n, ∃ q, l₀.StartsAt rounds m q ∧ q.Pends id := by
  rw [getResumeValue_of_pending hj] at hnull
  obtain ⟨rv, hrv, hnull⟩ := Option.bind_eq_some_iff.1 hnull
  rw [offered, hrv] at hoff
  obtain ⟨id, hid, hmark⟩ := processed_of_resumeFor hnull hoff
  refine ⟨?_, id, hid, (hp.processed_iff h₀).1 hmark⟩
  rw [← hp.resumeValue, hrv]
  exact Option.some_ne_none rv

omit [InterruptHash] in
/-- There is a `Null` or nothing at the position of an interrupt that is left out. -/
theorem entry_of_not_offered {j : ℕ} {signal : InterruptSignal}
    (hj : p.pendingInterrupts[j]? = some signal) (hoff : p.offered signal = none) :
    getResumeValue p.resumeValues j = some .null ∨ getResumeValue p.resumeValues j = none := by
  rw [getResumeValue_of_pending hj]
  cases hrv : p.runnableConfig.resumeValue with
  | none => exact .inr rfl
  | some rv =>
    rw [offered, hrv] at hoff
    show resumeFor rv _ _ = _ ∨ resumeFor rv _ _ = _
    rw [resumeFor_of_not_offered hoff]
    split_ifs
    · exact .inl rfl
    · exact .inr rfl

omit [InterruptHash] in
theorem not_offers_of_offered {signal : InterruptSignal} (hid : signal.id = some id)
    (hoff : p.offered signal = none) : ¬ p.Offers id := by
  rintro ⟨s, -, hs, hsome⟩
  have hcongr : p.offered s = p.offered signal := by
    unfold offered
    exact congrArg _ (funext fun rv => offered_congr (hs.trans hid.symm))
  rw [hcongr, hoff] at hsome
  cases hsome

end PregelLoop

/-! ### A sequence of runs -/

/-- A run on a thread: the loop that an entry point has set up, with an empty scratchpad, and what
happens around it. -/
structure ThreadRun (S σ : Type) [State S] where
  /-- The loop at its start. -/
  start : PregelLoop S σ
  /-- What happens around its supersteps. -/
  rounds : ℕ → Round S
  /-- Nothing is marked. -/
  unmarked : start.scratchpad = {}

section Thread

variable {S σ : Type} [State S] [InterruptHash]

/-- A superstep before superstep `n` of run `i` gave the interrupt a resume value. -/
def GivenBefore (thread : List (ThreadRun S σ)) (i n : ℕ) (id : String) : Prop :=
  ∃ i' m r p, thread[i']? = some r ∧ (i' < i ∨ i' = i ∧ m < n) ∧
    r.start.StartsAt r.rounds m p ∧ p.Gives id

/-- A run before run `i` had a value for the interrupt while it was pending. -/
def OfferedBefore (thread : List (ThreadRun S σ)) (i : ℕ) (id : String) : Prop :=
  ∃ i' m r p, thread[i']? = some r ∧ i' < i ∧ r.start.StartsAt r.rounds m p ∧ p.Offers id

/-- In every superstep of every run: a position of a pending interrupt receives a `Null` that the
caller did not ask for only if the interrupt was given a resume value before; and an interrupt that
the run has no value for and that was never given one is raised again by a call at its position.
The engine knows an interrupt by its id. -/
def ResumesEarned (thread : List (ThreadRun S σ)) : Prop :=
  ∀ i r n p j signal, thread[i]? = some r → r.start.StartsAt r.rounds n p →
    p.pendingInterrupts[j]? = some signal →
      (getResumeValue p.resumeValues j = some .null → p.offered signal ≠ some .null →
        ∃ id, signal.id = some id ∧ GivenBefore thread i n id) ∧
      (p.offered signal = none → (∀ id, signal.id = some id → ¬ GivenBefore thread i n id) →
        p.RaisesAgain (r.rounds n) j)

/-- The condition: of the interrupts that the resume value of a run leaves out, and that no earlier
run had a value for while they were pending, none is pending at the start of two supersteps of the
run, and no call at the position of one is made inline. -/
structure LeftOutOnce (thread : List (ThreadRun S σ)) : Prop where
  /-- Not in two supersteps. -/
  once : ∀ i r m n p q id, thread[i]? = some r → r.start.StartsAt r.rounds m p →
    r.start.StartsAt r.rounds n q → m < n → p.Pends id → q.Pends id →
    r.start.runnableConfig.resumeValue ≠ none → ¬ q.Offers id → OfferedBefore thread i id
  /-- Not inline. -/
  spawned : ∀ i r n p j signal, thread[i]? = some r → r.start.StartsAt r.rounds n p →
    p.pendingInterrupts[j]? = some signal → p.offered signal = none →
    (∀ id, signal.id = some id → ¬ OfferedBefore thread i id) → ¬ p.CallsInline j

variable {thread : List (ThreadRun S σ)} {i n : ℕ} {id : String}

theorem OfferedBefore.given (h : OfferedBefore thread i id) : GivenBefore thread i n id := by
  obtain ⟨i', m, r, p, hr, hi, hp, hoff⟩ := h
  obtain ⟨m', -, q, hq, hgives⟩ := PregelLoop.gives_of_offers r.unmarked hp hoff
  exact ⟨i', m', r, q, hr, .inl hi, hq, hgives⟩

/-- What was given before and is not offered now was offered by an earlier run. -/
theorem GivenBefore.offered {r : ThreadRun S σ} {q : PregelLoop S σ}
    (h : GivenBefore thread i n id) (hr : thread[i]? = some r)
    (hq : r.start.StartsAt r.rounds n q) (hpend : q.Pends id) (hoff : ¬ q.Offers id) :
    OfferedBefore thread i id := by
  obtain ⟨i', m, r', p, hr', hi | ⟨rfl, -⟩, hp, hgives⟩ := h
  · exact ⟨i', m, r', p, hr', hi, hp, hgives.offers⟩
  · cases hr.symm.trans hr'
    exact absurd (hgives.offers.of_pends hq hp hpend) hoff

/-- **No interrupt is passed over that nobody has answered** exactly when those that are left out
are pending in one superstep of a run only, and are not called for inline. -/
theorem resumesEarned_iff (thread : List (ThreadRun S σ)) :
    ResumesEarned thread ↔ LeftOutOnce thread := by
  constructor
  · intro h
    refine ⟨?_, ?_⟩
    · intro i r m n p q id hr hp hq hmn hpend hpend' hrv hoff
      obtain ⟨signal, hsignal, hid⟩ := hpend'
      obtain ⟨j, hj⟩ := List.mem_iff_getElem?.1 hsignal
      have hnone : q.offered signal = none := by
        by_contra hsome
        exact hoff ⟨signal, hsignal, hid, Option.isSome_iff_ne_none.2 hsome⟩
      have hnull := hq.null_of_pends r.unmarked hj hid hrv hnone hmn hp hpend
      obtain ⟨id', hid', hgiven⟩ := (h i r n q j signal hr hq hj).1 hnull (by rw [hnone]; simp)
      obtain rfl : id' = id := Option.some.inj (hid'.symm.trans hid)
      exact hgiven.offered hr hq ⟨signal, hsignal, hid⟩ hoff
    · intro i r n p j signal hr hp hj hoff hnever
      have hraise := (h i r n p j signal hr hp hj).2 hoff fun id hid hgiven =>
        hnever id hid (hgiven.offered hr hp ⟨signal, List.mem_of_getElem? hj, hid⟩
          (PregelLoop.not_offers_of_offered hid hoff))
      exact (PregelLoop.raisesAgain_iff hraise.1).1 hraise
  · intro h i r n p j signal hr hp hj
    have hmem : signal ∈ p.pendingInterrupts := List.mem_of_getElem? hj
    have hearned : getResumeValue p.resumeValues j = some .null →
        p.offered signal ≠ some .null → ∃ id, signal.id = some id ∧ GivenBefore thread i n id := by
      intro hnull hoff
      obtain ⟨hrv, id, hid, m, hm, q, hq, hpend⟩ := hp.pends_of_null r.unmarked hj hnull hoff
      refine ⟨id, hid, ?_⟩
      by_cases hoffers : p.Offers id
      · -- The run itself gave the value, when the interrupt was pending for the first time.
        obtain ⟨m', hm', q', hq', hgives⟩ :=
          PregelLoop.gives_of_offers r.unmarked hq (hoffers.of_pends hq hp hpend)
        exact ⟨i, m', r, q', hr, .inr ⟨rfl, by omega⟩, hq', hgives⟩
      · exact (h.once i r m n q p id hr hq hp hm hpend ⟨signal, hmem, hid⟩ hrv hoffers).given
    refine ⟨hearned, fun hoff hnever => ?_⟩
    have hnone : getResumeValue p.resumeValues j = none := by
      refine (PregelLoop.entry_of_not_offered hj hoff).resolve_left fun hnull => ?_
      obtain ⟨id, hid, hgiven⟩ := hearned hnull (by rw [hoff]; simp)
      exact hnever id hid hgiven
    exact (PregelLoop.raisesAgain_iff hnone).2 (h.spawned i r n p j signal hr hp hj hoff
      fun id hid hoffered => hnever id hid hoffered.given)

end Thread

/-- Two nodes that ask in every superstep and go on whatever they hear.  The caller answers the left
one only. -/
def halfAnswered : ThreadRun Transcript Unit where
  start := PregelLoop.withErrorHandlers {}
    (Dict.ofList (["left", "right"].map fun n =>
      (n, ⟨fun _ _ => .interrupt .null (some n) fun _ => .done (.ok .default)⟩)))
    (buildTriggerTable [.fixed START "left", .fixed START "right", .fixed "left" "left",
      .fixed "right" "right"])
    { resumeValue := some (.byId (Dict.ofList [("left", .str "yes")])) } 2 ∅ () 0
  rounds := undisturbed
  unmarked := rfl

/-- In its third superstep the right node is waved through, though nobody has answered it. -/
theorem halfAnswered_not_resumesEarned : ¬ ResumesEarned [halfAnswered] := by
  have hthird : ((halfAnswered.start.head undisturbed 2).map fun t =>
      ((t.outside {}).tick.2, (t.outside {}).prepare.2.map List.length,
        (t.outside {}).prepare.1.pendingInterrupts.map InterruptSignal.id,
        (t.outside {}).prepare.1.resumeValues)) =
      some (.ok true, .ok 0, [some "right"], [some .null]) := rfl
  obtain ⟨t, ht, heq⟩ := Option.map_eq_some_iff.1 hthird
  simp only [Prod.mk.injEq] at heq
  obtain ⟨htick, hblocked, hpending, hvector⟩ := heq
  generalize hprep : (t.outside {}).prepare = q at hblocked hpending hvector
  obtain ⟨p, e | blocked⟩ := q
  · cases hblocked
  have hp : halfAnswered.start.StartsAt undisturbed 2 p :=
    ⟨t, blocked, ht, PregelLoop.goesOn_of_tick htick, hprep⟩
  obtain ⟨signal, hsignal, hid⟩ := List.map_eq_singleton_iff.1 hpending
  have hj : p.pendingInterrupts[0]? = some signal := by rw [hsignal]; rfl
  -- No superstep of the run has a value for the right node.
  have hleft : ∀ {n q}, halfAnswered.start.StartsAt undisturbed n q → ∀ s : InterruptSignal,
      s.id = some "right" → q.offered s = none := by
    intro n q hq s hs
    rw [PregelLoop.offered, hq.resumeValue]
    show s.id.bind (Dict.ofList [("left", Json.str "yes")]).lookup = none
    rw [hs]
    rfl
  intro h
  obtain ⟨id, hid', i', m, r, q, hr, hi, hq, hgives⟩ := (h 0 halfAnswered 2 p 0 signal rfl hp hj).1
    (by rw [hvector]; rfl) (by rw [hleft hp signal hid]; simp)
  obtain rfl : id = "right" := Option.some.inj (hid'.symm.trans hid)
  obtain ⟨rfl, -⟩ := hi.resolve_left (Nat.not_lt_zero i')
  obtain rfl : halfAnswered = r := Option.some.inj hr
  obtain ⟨s, -, hs, hsome⟩ := hgives.offers
  rw [hleft hq s hs] at hsome
  cases hsome

end Juncture
