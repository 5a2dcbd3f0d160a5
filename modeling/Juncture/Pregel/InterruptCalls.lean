import Juncture.Pregel.RunnerSpec

/-!
# The interrupt context during a superstep

All tasks of a superstep take their indices from one counter.  Two invariants of the machine say
what this leads to:

* `Signalled` : an `interrupt!()` call that finds no resume value has sent its signal, or its task
  is about to send it, and there are no other signals.
* `Alone` : as long as a single task makes calls, the index of a call is the number of calls the
  task has made before, and the task behaves as its program does on its own.
-/

namespace Juncture

variable {S σ : Type} [State S] [InterruptHash]

namespace Superstep

variable {env : SpawnEnv S σ} {e e' : Superstep S σ} {i : ℕ}

/-! ### Signals -/

/-- The task of a call is about to send the signal with the given index. -/
def Sending (e : Superstep S σ) (i index : ℕ) : Prop :=
  ∃ signal p, e.phase i = .sending signal p ∧ signal.index = index

/-- The unanswered calls and the signals correspond. -/
structure Signalled (env : SpawnEnv S σ) (e : Superstep S σ) : Prop where
  /-- Every unanswered call is signalled. -/
  sent : ∀ c ∈ e.calls, getResumeValue env.resumeValues c.index = none →
    (∃ s ∈ e.signals, s.index = c.index) ∨ e.Sending c.task c.index
  /-- Every signal is of an unanswered call. -/
  call : ∀ s ∈ e.signals, ∃ c ∈ e.calls, c.index = s.index ∧
    getResumeValue env.resumeValues c.index = none
  /-- So is every signal that is about to be sent. -/
  pending : ∀ i signal p, e.phase i = .sending signal p →
    ∃ c ∈ e.calls, c.index = signal.index ∧ getResumeValue env.resumeValues c.index = none

section

omit [InterruptHash]

/-- A task that is not about to send a signal moves to another phase that is not. -/
theorem Signalled.of_quiet (h : Signalled env e) (hcalls : e'.calls = e.calls)
    (hsignals : e'.signals = e.signals) (hother : ∀ j, j ≠ i → e'.phase j = e.phase j)
    (hi : ∀ signal p, e.phase i ≠ .sending signal p)
    (hi' : ∀ signal p, e'.phase i ≠ .sending signal p) : Signalled env e' where
  sent c hc hv := by
    rw [hcalls] at hc
    rw [hsignals]
    refine (h.sent c hc hv).imp_right ?_
    rintro ⟨signal, p, hp, hidx⟩
    have hne : c.task ≠ i := fun hci => hi signal p (hci ▸ hp)
    exact ⟨signal, p, (hother _ hne).trans hp, hidx⟩
  call := by rw [hcalls, hsignals]; exact h.call
  pending j signal p hp := by
    have hne : j ≠ i := fun hji => hi' signal p (hji ▸ hp)
    rw [hcalls]
    exact h.pending j signal p ((hother j hne).symm.trans hp)

theorem Signalled.of_context (h : Signalled env e) (hcalls : e'.calls = e.calls)
    (hsignals : e'.signals = e.signals) (hphase : e'.phase = e.phase) : Signalled env e' where
  sent := by simpa only [hcalls, hsignals, Sending, hphase] using h.sent
  call := by rw [hcalls, hsignals]; exact h.call
  pending := by rw [hcalls, hphase]; exact h.pending

end

theorem Signalled.move (h : Signalled env e) (hm : Move env e e') : Signalled env e' := by
  cases hm with
  | start i p hp =>
    exact h.of_quiet (i := i) rfl rfl (fun j hj => by simp [setPhase_phase, hj]) (by simp [hp])
      (by simp)
  | cut i p err hp =>
    refine h.of_quiet (i := i) rfl rfl (fun j hj => by simp [complete_phase, hj]) ?_ (by simp)
    rcases hp with hp | hp <;> simp [hp]
  | done i r hp =>
    exact h.of_quiet (i := i) rfl rfl (fun j hj => by simp [complete_phase, hj]) (by simp [hp])
      (by simp)
  | read i k hp =>
    exact h.of_quiet (i := i) rfl rfl (fun j hj => by simp [setPhase_phase, hj]) (by simp [hp])
      (by simp)
  | retry i error k hp =>
    exact h.of_quiet (i := i) rfl rfl (fun j hj => by simp [nextAttempt, setPhase_phase, hj])
      (by simp [hp]) (by simp [nextAttempt])
  | answer i payload id k value hp hv =>
    -- The new call has found a value, so it needs no signal.
    have hcall : Signalled env (e.nextIndex i) :=
      { sent := fun c hc hcv => by
          rcases List.mem_append.1 hc with hc | hc
          · exact h.sent c hc hcv
          · obtain rfl := List.mem_singleton.1 hc
            exact absurd hcv (by simp [hv])
        call := fun s hs => (h.call s hs).imp fun c hc => ⟨List.mem_append_left _ hc.1, hc.2⟩
        pending := fun j s p hj => (h.pending j s p hj).imp fun c hc =>
          ⟨List.mem_append_left _ hc.1, hc.2⟩ }
    exact hcall.of_quiet (i := i) rfl rfl (fun j hj => by simp [setPhase_phase, hj])
      (by simp [nextIndex, hp]) (by simp)
  | raise i payload id k hp hv =>
    refine
      { sent := fun c hc hcv => ?_
        call := fun s hs => (h.call s hs).imp fun c hc => ⟨List.mem_append_left _ hc.1, hc.2⟩
        pending := fun j s p hj => ?_ }
    · rcases List.mem_append.1 hc with hc | hc
      · refine (h.sent c hc hcv).imp_right ?_
        rintro ⟨signal, p, hsend, hidx⟩
        have hne : c.task ≠ i := fun hci => by rw [hci, hp] at hsend; cases hsend
        exact ⟨signal, p, by simpa [setPhase_phase, nextIndex, hne] using hsend, hidx⟩
      · obtain rfl := List.mem_singleton.1 hc
        exact .inr ⟨_, _, setPhase_phase_self _, rfl⟩
    · by_cases hji : j = i
      · subst hji
        rw [setPhase_phase_self] at hj
        cases hj
        exact ⟨_, List.mem_append_right _ (List.mem_singleton.2 rfl), rfl, hv⟩
      · rw [setPhase_phase, if_neg hji] at hj
        exact (h.pending j s p hj).imp fun c hc => ⟨List.mem_append_left _ hc.1, hc.2⟩
  | send i signal p hp =>
    refine
      { sent := fun c hc hcv => ?_
        call := fun s hs => ?_
        pending := fun j s q hj => ?_ }
    · rcases h.sent c hc hcv with ⟨s, hs, hidx⟩ | ⟨s, q, hsend, hidx⟩
      · exact .inl ⟨s, List.mem_append_left _ hs, hidx⟩
      · by_cases hci : c.task = i
        · rw [hci, hp] at hsend
          cases hsend
          exact .inl ⟨signal, List.mem_append_right _ (List.mem_singleton.2 rfl), hidx⟩
        · exact .inr ⟨s, q, by simpa [sendInterrupt, setPhase_phase, hci] using hsend, hidx⟩
    · rcases List.mem_append.1 hs with hs | hs
      · exact h.call s hs
      · obtain rfl := List.mem_singleton.1 hs
        exact h.pending i _ p hp
    · by_cases hji : j = i
      · simp [sendInterrupt, hji] at hj
      · exact h.pending j s q (by simpa [sendInterrupt, setPhase_phase, hji] using hj)
  | spawnFail err => exact h.of_context rfl rfl rfl
  | join i r task =>
    obtain ⟨_, _, _, _, _, heq⟩ := collect_eq env { e with joined := e.joined + 1 } task r
    rw [heq]
    exact h.of_context rfl rfl rfl

theorem Signalled.step (h : Signalled env e) (c : Choice) : Signalled env (e.step env c) := by
  rcases step_move env e c with he | ⟨-, hm⟩ | ⟨-, -, he⟩
  · rw [he]; exact h
  · exact h.move hm
  · rw [he]; exact h.of_context rfl rfl rfl

omit [InterruptHash] in
theorem signalled_init (env : SpawnEnv S σ) (state : S) (store : σ) (nextUuid : Uuid)
    (cancelled : Bool) : Signalled env (.init env state store nextUuid cancelled) where
  sent c hc := by simp [init] at hc
  call s hs := by simp [init] at hs
  pending i signal p hp := by
    simp only [init] at hp
    split at hp <;> cases hp

/-! ### A single caller -/

/-- The program makes no call, whatever the indices are. -/
def Silent (env : SpawnEnv S σ) (p : NodeProg S) : Prop :=
  ∀ index, (p.solo env.locals env.resumeValues index).2 = index

omit [InterruptHash] in
theorem not_silent_interrupt (payload : Json) (id : Option String)
    (k : Except JunctureError Json → NodeProg S) : ¬ Silent env (.interrupt payload id k) := by
  intro h
  have hle := NodeProg.le_solo env.locals env.resumeValues (k (interruptResult env.resumeValues 0)) 1
  exact absurd (hle.trans_eq (h 0)) (by decide)

/-- Only task `i`, whose program is `p`, makes calls. -/
structure Alone (env : SpawnEnv S σ) (i : ℕ) (p : NodeProg S) (e : Superstep S σ) : Prop where
  /-- The other tasks make none. -/
  others : ∀ j, j ≠ i → ∀ q, (e.phase j = .waiting q ∨ e.phase j = .running q) → Silent env q
  notSending : ∀ j, j ≠ i → ∀ signal q, e.phase j ≠ .sending signal q
  /-- Task `i` has not started, -/
  waiting : ∀ q, e.phase i = .waiting q → q = p ∧ e.currentIndex = 0
  /-- or does what its program does on its own. -/
  running : ∀ q, (e.phase i = .running q ∨ ∃ signal, e.phase i = .sending signal q) →
    q.solo env.locals env.resumeValues e.currentIndex = p.solo env.locals env.resumeValues 0
  /-- The indices follow its calls. -/
  calls : e.calls = (List.range e.currentIndex).map fun k => { task := i, ordinal := k, index := k }
  /-- There are no more calls than its program makes on its own. -/
  bound : e.currentIndex ≤ (p.solo env.locals env.resumeValues 0).2

section

omit [InterruptHash]

variable {p : NodeProg S}

/-- Some task moves to a phase in which it still does what it should; the context is untouched. -/
theorem Alone.of_phase (h : Alone env i p e) {j : ℕ} (hcalls : e'.calls = e.calls)
    (hindex : e'.currentIndex = e.currentIndex) (hother : ∀ m, m ≠ j → e'.phase m = e.phase m)
    (hj : j ≠ i → ∀ q, (e'.phase j = .waiting q ∨ e'.phase j = .running q) → Silent env q)
    (hw : ∀ q, e'.phase j ≠ .waiting q)
    (hs : j ≠ i → ∀ signal q, e'.phase j ≠ .sending signal q)
    (hi : j = i → ∀ q, (e'.phase j = .running q ∨ ∃ signal, e'.phase j = .sending signal q) →
      q.solo env.locals env.resumeValues e.currentIndex =
        p.solo env.locals env.resumeValues 0) : Alone env i p e' where
  others m hm q hq := by
    by_cases hmj : m = j
    · subst hmj; exact hj hm q hq
    · rw [hother m hmj] at hq; exact h.others m hm q hq
  notSending m hm signal q hq := by
    by_cases hmj : m = j
    · subst hmj; exact hs hm signal q hq
    · rw [hother m hmj] at hq; exact h.notSending m hm signal q hq
  waiting q hq := by
    by_cases hij : i = j
    · subst hij; exact absurd hq (hw q)
    · rw [hother i hij] at hq; rw [hindex]; exact h.waiting q hq
  running q hq := by
    rw [hindex]
    by_cases hij : i = j
    · subst hij; exact hi rfl q hq
    · rw [hother i hij] at hq; exact h.running q hq
  calls := by rw [hcalls, hindex]; exact h.calls
  bound := hindex ▸ h.bound

/-- A task that makes no call goes on with the same behaviour, or returns. -/
theorem Alone.of_quiet (h : Alone env i p e) {j : ℕ} {q : NodeProg S} {ph : TaskPhase S}
    (hcalls : e'.calls = e.calls) (hindex : e'.currentIndex = e.currentIndex)
    (hphase : ∀ m, e'.phase m = if m = j then ph else e.phase m)
    (hph : ph = .finished ∨ ph = .running q) (hsilent : j ≠ i → Silent env q)
    (hsolo : j = i → q.solo env.locals env.resumeValues e.currentIndex =
      p.solo env.locals env.resumeValues 0) : Alone env i p e' := by
  have hj : e'.phase j = ph := by simp [hphase]
  refine h.of_phase (j := j) hcalls hindex (fun m hm => by simp [hphase, hm]) ?_ ?_ ?_ ?_
  · intro hji q' hq'
    rw [hj] at hq'
    rcases hph with rfl | rfl
    · rcases hq' with hq' | hq' <;> cases hq'
    · rcases hq' with hq' | hq' <;> cases hq'
      exact hsilent hji
  · intro q' hq'
    rw [hj] at hq'
    rcases hph with rfl | rfl <;> cases hq'
  · intro _ signal q' hq'
    rw [hj] at hq'
    rcases hph with rfl | rfl <;> cases hq'
  · intro hji q' hq'
    rw [hj] at hq'
    rcases hph with rfl | rfl
    · rcases hq' with hq' | ⟨_, hq'⟩ <;> cases hq'
    · rcases hq' with hq' | ⟨_, hq'⟩ <;> cases hq'
      exact hsolo hji

theorem Alone.of_context (h : Alone env i p e) (hcalls : e'.calls = e.calls)
    (hindex : e'.currentIndex = e.currentIndex) (hphase : e'.phase = e.phase) :
    Alone env i p e' where
  others := by rw [hphase]; exact h.others
  notSending := by rw [hphase]; exact h.notSending
  waiting := by rw [hphase, hindex]; exact h.waiting
  running := by rw [hphase, hindex]; exact h.running
  calls := by rw [hcalls, hindex]; exact h.calls
  bound := hindex ▸ h.bound

/-- The call of task `i` takes the next index, whether or not it finds a value. -/
theorem Alone.of_call (h : Alone env i p e) {payload : Json} {id : Option String}
    {k : Except JunctureError Json → NodeProg S} {ph : TaskPhase S}
    (hp : e.phase i = .running (.interrupt payload id k))
    (hph : ph = .running (k (interruptResult env.resumeValues e.currentIndex)) ∨
      ∃ signal, ph = .sending signal (k (interruptResult env.resumeValues e.currentIndex))) :
    Alone env i p ((e.nextIndex i).setPhase i ph) := by
  have hsolo := h.running _ (.inl hp)
  have hmade : e.made i = e.currentIndex := by
    simp [made, h.calls, List.countP_map, Function.comp_def]
  refine
    { others := fun j hj q hq => h.others j hj q (by simpa [setPhase_phase, nextIndex, hj] using hq)
      notSending := fun j hj signal q hq =>
        h.notSending j hj signal q (by simpa [setPhase_phase, nextIndex, hj] using hq)
      waiting := fun q hq => ?_
      running := fun q hq => ?_
      calls := ?_
      bound := ?_ }
  · rw [setPhase_phase_self] at hq
    rcases hph with rfl | ⟨_, rfl⟩ <;> cases hq
  · rw [setPhase_phase_self] at hq
    rcases hph with rfl | ⟨_, rfl⟩
    · rcases hq with hq | ⟨_, hq⟩ <;> cases hq
      exact hsolo
    · rcases hq with hq | ⟨_, hq⟩ <;> cases hq
      exact hsolo
  · simp [setPhase, nextIndex, List.range_succ, hmade, ← h.calls]
  · calc e.currentIndex + 1
        ≤ ((k (interruptResult env.resumeValues e.currentIndex)).solo env.locals env.resumeValues
            (e.currentIndex + 1)).2 := NodeProg.le_solo _ _ _ _
      _ = (p.solo env.locals env.resumeValues 0).2 := congrArg Prod.snd hsolo

end

theorem Alone.move {p : NodeProg S} (h : Alone env i p e) (hm : Move env e e') :
    Alone env i p e' := by
  cases hm with
  | start j q hq =>
    refine h.of_quiet rfl rfl (fun m => setPhase_phase _) (.inr rfl)
      (fun hji => h.others j hji q (.inl hq)) ?_
    rintro rfl
    obtain ⟨rfl, hzero⟩ := h.waiting q hq
    rw [hzero]
  | cut j q err hq =>
    refine h.of_quiet rfl rfl (fun m => complete_phase _) (.inl rfl)
      (fun hji => h.others j hji q hq) ?_
    rintro rfl
    rcases hq with hq | hq
    · obtain ⟨rfl, hzero⟩ := h.waiting q hq
      rw [hzero]
    · exact h.running q (.inl hq)
  | done j r hq =>
    refine h.of_quiet rfl rfl (fun m => complete_phase _) (.inl rfl)
      (fun hji => h.others j hji _ (.inr hq)) ?_
    rintro rfl
    exact h.running _ (.inl hq)
  | read j k hq =>
    refine h.of_quiet rfl rfl (fun m => setPhase_phase _) (.inr rfl)
      (fun hji => h.others j hji (.readLocals k) (.inr hq)) ?_
    rintro rfl
    exact h.running (.readLocals k) (.inl hq)
  | retry j error k hq =>
    refine h.of_quiet rfl rfl (fun m => setPhase_phase _) (.inr rfl)
      (fun hji => h.others j hji (.backoff error k) (.inr hq)) ?_
    rintro rfl
    exact h.running (.backoff error k) (.inl hq)
  -- Only the task itself calls `interrupt`.
  | answer j payload id k value hq hv =>
    by_cases hji : j = i
    · subst hji
      exact h.of_call hq (.inl (by simp [interruptResult, hv]))
    · exact absurd (h.others j hji _ (.inr hq)) (not_silent_interrupt payload id k)
  | raise j payload id k hq hv =>
    by_cases hji : j = i
    · subst hji
      refine h.of_call hq (.inr ⟨unansweredSignal e.currentIndex payload id, ?_⟩)
      simp [interruptResult, hv]
    · exact absurd (h.others j hji _ (.inr hq)) (not_silent_interrupt payload id k)
  | send j signal q hq =>
    have hji : j = i := by
      by_contra hji
      exact h.notSending j hji signal q hq
    refine h.of_quiet rfl rfl (fun m => setPhase_phase _) (.inr rfl)
      (fun hne => absurd hji hne) ?_
    rintro rfl
    exact h.running _ (.inr ⟨signal, hq⟩)
  | spawnFail err => exact h.of_context rfl rfl rfl
  | join j r task =>
    obtain ⟨_, _, _, _, _, heq⟩ := collect_eq env { e with joined := e.joined + 1 } task r
    rw [heq]
    exact h.of_context rfl rfl rfl

theorem Alone.step {p : NodeProg S} (h : Alone env i p e) (c : Choice) :
    Alone env i p (e.step env c) := by
  rcases step_move env e c with he | ⟨-, hm⟩ | ⟨-, -, he⟩
  · rw [he]; exact h
  · exact h.move hm
  · rw [he]; exact h.of_context rfl rfl rfl

omit [InterruptHash] in
/-- When the programs of the other tasks make no call, task `i` is alone from the start. -/
theorem alone_init {state : S} {store : σ} {nextUuid : Uuid} {cancelled : Bool} {p : NodeProg S}
    (hi : ∀ q, (spawnTasks env.toRunnerEnv state env.tasks).1[i]? = some q → q = p)
    (hothers : ∀ j, j ≠ i → ∀ q, (spawnTasks env.toRunnerEnv state env.tasks).1[j]? = some q →
      Silent env q) :
    Alone env i p (.init env state store nextUuid cancelled) where
  others j hj q hq := by
    simp only [init] at hq
    split at hq
    · rename_i q' hq'
      rcases hq with hq | hq <;> cases hq
      exact hothers j hj _ hq'
    · rcases hq with hq | hq <;> cases hq
  notSending j _ signal q hq := by
    simp only [init] at hq
    split at hq <;> cases hq
  waiting q hq := by
    simp only [init] at hq
    split at hq
    · rename_i q' hq'
      cases hq
      exact ⟨hi _ hq', rfl⟩
    · cases hq
  running q hq := by
    simp only [init] at hq
    split at hq <;> rcases hq with hq | ⟨_, hq⟩ <;> cases hq
  calls := rfl
  bound := Nat.zero_le _

end Superstep

end Juncture
