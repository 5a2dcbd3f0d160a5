import Juncture.Pregel.VersionRuns

/-!
# Ephemeral fields

`after_tick` merges the writes of a superstep, consumes the fields that the previous superstep has
changed, and then resets the ephemeral fields, before it routes and before the next tasks run.  So
what the tasks of a superstep write to an ephemeral field is gone when anyone could read it.

* `RunsOn` : the state that the tasks of a superstep are called on.
* `reads_default` : routers and tasks find the default in an ephemeral field.
-/

namespace Juncture

/-- An ephemeral field of a derived state: `reset_ephemeral` sets it to its default, and no
`finish_field` touches it. -/
structure EphemeralField (S α : Type) [State S] where
  /-- Field index. -/
  index : ℕ
  /-- The value of the field. -/
  get : S → α
  /-- `Default::default()`. -/
  default : α
  /-- The arm of `reset_ephemeral`. -/
  get_resetEphemeral : ∀ s, get (State.resetEphemeral s) = default
  /-- The arms of `finish_field` do nothing. -/
  get_finishField : ∀ s i, get (State.finishField s i) = get s

namespace PregelLoop

variable {S σ α : Type} [State S] {l l' l₀ l₁ : PregelLoop S σ} {result : SuperstepResult S}
  {rounds : ℕ → Round S}

/-- No subgraph reports a command that updates the state of its parent.  Such an update is applied
after the routing. -/
def NoParentUpdates (result : SuperstepResult S) : Prop :=
  ∀ c, .parentCommand c ∈ result.bubbleUps → c.command.update = none

theorem state_handleBubbleUps (h : NoParentUpdates result) (l : PregelLoop S σ) :
    (l.handleBubbleUps result.bubbleUps).1.state = l.state := by
  have hfold : ∀ (us : List (BubbleUp S)) (acc : PregelLoop S σ × Bool),
      (∀ c, .parentCommand c ∈ us → c.command.update = none) →
      (us.foldl handleBubbleUp acc).1.state = acc.1.state := by
    intro us
    induction us with
    | nil => exact fun acc _ => rfl
    | cons u us ih =>
      intro acc hus
      rw [List.foldl_cons, ih _ fun c hc => hus c (List.mem_cons_of_mem _ hc)]
      cases u with
      | interrupt i => rfl
      | drained d => rfl
      | parentCommand c =>
        simp only [handleBubbleUp, handleParentCommand, hus c List.mem_cons_self]
  exact hfold result.bubbleUps (l, false) h

theorem get_finishAllChannels (f : EphemeralField S α) (l : PregelLoop S σ) :
    f.get l.finishAllChannels.state = f.get l.state := by
  have hfold : ∀ (is : List ℕ) (s : S), f.get (is.foldl State.finishField s) = f.get s := by
    intro is
    induction is with
    | nil => exact fun s => rfl
    | cons i is ih =>
      intro s
      rw [List.foldl_cons, ih, f.get_finishField]
  unfold finishAllChannels
  split_ifs
  · rfl
  · exact hfold _ _

theorem get_settled (f : EphemeralField S α) (h : l.Settled l') :
    f.get l'.state = f.get l.state := by
  obtain ⟨k, hk, _, _, _, _, _, _, _, _, _, _, _, rfl⟩ := h
  obtain rfl | rfl := hk
  · rfl
  · exact get_finishAllChannels f l

variable [InterruptHash]

/-- What a router reads, and what is left in the field at the end of the superstep. -/
theorem get_afterTick (f : EphemeralField S α) (h : l.afterTick result = (l', .ok ())) :
    f.get (l.committed result).state = f.default ∧
      (NoParentUpdates result → f.get l'.state = f.default) := by
  have hcommitted : f.get (l.committed result).state = f.default := by
    obtain ⟨s, changed, -, -, hmerge, -⟩ := afterTick_phases h
    unfold committed
    rw [hmerge]
    exact f.get_resetEphemeral _
  refine ⟨hcommitted, fun hno => ?_⟩
  obtain ⟨tasks, k, -, hk, hf⟩ := afterTick_advanced h
  obtain ⟨-, hset⟩ | ⟨-, hset⟩ := finishTick_settled hf
  · rw [get_settled f hset, hk.state, hcommitted]
  · have hreported : (k.reported result.bubbleUps).1.state = k.state :=
      state_handleBubbleUps hno { k with interruptRx := none }
    rw [get_settled f hset, hreported, hk.state, hcommitted]

/-! ### Along a run -/

/-- Superstep `n` calls a task on the state of the graph, which is `s`.  A `Send` task is called on
the state that was sent. -/
def RunsOn (l₀ : PregelLoop S σ) (rounds : ℕ → Round S) (n : ℕ) (s : S) : Prop :=
  ∃ l k blocked, l₀.head rounds n = some l ∧ (l.outside (rounds n)).GoesOn ∧
    (l.outside (rounds n)).prepare = (k, .ok blocked) ∧
    (∃ t ∈ k.pendingTasks, t.stateOverride = none) ∧ s = k.state

/-- The state with the writes of the superstep merged into it. -/
def merged (l : PregelLoop S σ) (result : SuperstepResult S) : S :=
  (l.mergeWrites result.taskOutputs).1.state

/-- The lifetime of an ephemeral value that reaches the next superstep: the routers at the end of the
superstep and the tasks of the next one read it, and after that it is gone. -/
structure LivesOn (f : EphemeralField S α) (l₀ : PregelLoop S σ) (rounds : ℕ → Round S) :
    Prop where
  /-- The routers. -/
  routers : ∀ n l₁ result l, l₀.TurnAt rounds n l₁ result l →
    (l₁.changedFields result).hasField f.index = true →
    f.get (l₁.committed result).state = f.get (l₁.merged result)
  /-- The tasks of the next superstep. -/
  tasks : ∀ n l₁ result l, l₀.TurnAt rounds n l₁ result l →
    (l₁.changedFields result).hasField f.index = true →
    ∀ s, l₀.RunsOn rounds (n + 1) s → f.get s = f.get (l₁.merged result)
  /-- The tasks of the superstep after it. -/
  expires : ∀ n l₁ result l, l₀.TurnAt rounds (n + 1) l₁ result l →
    (l₁.changedFields result).hasField f.index = false →
    ∀ s, l₀.RunsOn rounds (n + 2) s → f.get s = f.default

/-- **Routers and tasks find the default in an ephemeral field**, whatever the superstep wrote. -/
theorem reads_default (f : EphemeralField S α) {n : ℕ} {l : PregelLoop S σ}
    (h : l₀.TurnAt rounds n l₁ result l) :
    f.get (l₁.committed result).state = f.default ∧
      (NoParentUpdates result → ∀ s, l₀.RunsOn rounds (n + 1) s → f.get s = f.default) := by
  have hl := head_succ_eq_some_iff.2 ⟨l₁, result, h⟩
  obtain ⟨t, -, -, ha⟩ := h
  obtain ⟨hrouters, hleft⟩ := get_afterTick f ha
  refine ⟨hrouters, fun hno s hs => ?_⟩
  obtain ⟨l', k, blocked, hl', -, hprep, -, rfl⟩ := hs
  cases hl.symm.trans hl'
  have hran := (l.ran_outside (rounds (n + 1))).trans (l.outside (rounds (n + 1))).ran_prepare
  rw [hprep] at hran
  have hstate : k.state = l.state := by
    obtain ⟨_, _, _, _, _, _, _, _, _, _, _, _, rfl⟩ := hran
    rfl
  rw [hstate]
  exact hleft hno

end PregelLoop

/-! ### A state with an ephemeral field -/

/-- The state `#[derive(State)]` is asked for: `struct Signal { #[reducer(ephemeral)] value: u64 }`. -/
structure Signal where
  /-- Ephemeral field `0`. -/
  value : ℕ := 0
deriving DecidableEq, Repr

namespace Signal

/-- The generated `apply`: an ephemeral field is assigned. -/
def apply (s : Signal) : Option ℕ → Signal × FieldsChanged
  | some v => ({ s with value := v }, FieldsChanged.none.setField 0)
  | none => (s, FieldsChanged.none)

instance : State Signal where
  Update := Option ℕ
  default := {}
  apply := apply
  resetEphemeral s := { s with value := 0 }
  fieldIsSet u i := u.isSome && i == 0
  fieldCount := 1
  fieldNames := ["value"]
  toValue s := .ok (.obj [("value", .num s.value)])
  fromValue v :=
    match v.get "value" with
    | some n => (Transcript.natOfJson n).map Signal.mk
    | none => .error "missing field `value`"
  updateToValue u := .ok (.obj [("value", match u with | some v => .num v | none => .null)])

/-- Its field. -/
def field : EphemeralField Signal ℕ where
  index := 0
  get := Signal.value
  default := 0
  get_resetEphemeral _ := rfl
  get_finishField _ _ := rfl

/-- A node that writes the field. -/
def raising : Node Signal := ⟨fun _ _ => .done (.ok (.ofUpdate (S := Signal) (some 7)))⟩

/-- A node that does nothing. -/
def idle : Node Signal := ⟨fun _ _ => .done (.ok .default)⟩

/-- `a` raises the signal and leads to `b`. -/
def loop : PregelLoop Signal Unit :=
  .withErrorHandlers {} (Dict.ofList [("b", idle), ("a", raising)])
    (buildTriggerTable [.fixed START "a", .fixed "a" "b"]) {} 64 ∅ () 0

end Signal

/-- The signal that `a` raises is gone before the routing. -/
theorem signal_not_livesOn : ¬ PregelLoop.LivesOn Signal.field Signal.loop fun _ => {} := by
  have hsuper : (Signal.loop.superstep {}).map (fun p =>
      ((p.1.afterTick p.2).2, (p.1.changedFields p.2).hasField 0, (p.1.merged p.2).value,
        (p.1.committed p.2).state.value)) = some (.ok (), true, 7, 0) := rfl
  obtain ⟨⟨l₁, result⟩, hs, heq⟩ := Option.map_eq_some_iff.1 hsuper
  simp only [Prod.mk.injEq] at heq
  obtain ⟨hok, hwrites, hmerged, hcommitted⟩ := heq
  intro h
  have hread := h.routers 0 l₁ result _ ⟨Signal.loop, rfl, hs, Prod.ext rfl hok⟩ hwrites
  have hread : (l₁.committed result).state.value = (l₁.merged result).value := hread
  rw [hmerged, hcommitted] at hread
  cases hread

theorem reads_default_signal :
    ∃ l₁ result l, Signal.loop.TurnAt (fun _ => {}) 0 l₁ result l ∧
      Signal.field.get (l₁.committed result).state = 0 := by
  have hsuper : (Signal.loop.superstep {}).map (fun p => (p.1.afterTick p.2).2) =
      some (.ok ()) := rfl
  obtain ⟨⟨l₁, result⟩, hs, hok⟩ := Option.map_eq_some_iff.1 hsuper
  have hturn : Signal.loop.TurnAt (fun _ => {}) 0 l₁ result (l₁.afterTick result).1 :=
    ⟨Signal.loop, rfl, hs, Prod.ext rfl hok⟩
  exact ⟨l₁, result, _, hturn, (PregelLoop.reads_default Signal.field hturn).1⟩

end Juncture
