import Juncture.Graph.Drivers
import Juncture.Graph.Resume
import Juncture.Pregel.Bare
import Juncture.Pregel.FallbackChains

/-!
# Invoking against streaming

`invoke` and `stream_with_config` should be two ways to run one computation.  Their set-ups differ:
only `invoke` looks for a cached result, loads the result of the previous run, and installs circuit
breakers and fallbacks.  And the driver of a stream takes a tick that fails for the end of the run.

`sameRun_of_streamSafe` says that nothing else differs: where these play no part, the two execute the
same supersteps, end in the same round with the same state, and report the same errors.
-/

namespace Juncture

section Entry

variable {S σ : Type} [State S] [InterruptHash]

namespace PregelLoop

/-- The result of the superstep in round `n`, if there is one. -/
def resultAt (l₀ : PregelLoop S σ) (rounds : ℕ → Round S) (n : ℕ) : Option (SuperstepResult S) :=
  ((l₀.head rounds n).bind fun t => t.superstep (rounds n)).map Prod.snd

variable {l₀ t : PregelLoop S σ} {rounds : ℕ → Round S} {round : Round S}

theorem ending_bare (h : (t.outside round).GoesOn → t.Untouched round) :
    t.bare.ending round = (t.ending round).map bareFst := by
  unfold ending
  rw [outside_bare, tick_bare]
  rcases htick : (t.outside round).tick with ⟨k, e | b⟩
  · rfl
  cases b with
  | false => rfl
  | true =>
    obtain ⟨hgo, rfl⟩ := eq_of_tick htick
    have hexec := executeSuperstep_bare (h hgo)
    dsimp only [bareFst] at hexec ⊢
    rw [hexec]
    rcases hr : (t.outside round).executeSuperstep round with ⟨l₁, e | r⟩
    · rfl
    have hafter : l₁.bare.afterTick { r with bubbleUps := r.bubbleUps ++ round.bubbleUps } =
        bareFst (l₁.afterTick { r with bubbleUps := r.bubbleUps ++ round.bubbleUps }) :=
      afterTick_bare fun o ho => (h hgo).outputs hr o ho
    dsimp only [bareFst] at hafter ⊢
    rw [hafter]
    rcases l₁.afterTick { r with bubbleUps := r.bubbleUps ++ round.bubbleUps } with ⟨k, e | ⟨⟩⟩
    · rfl
    · rfl

section Bare

variable (h : ∀ n t, l₀.head rounds n = some t → (t.outside (rounds n)).GoesOn →
  t.Untouched (rounds n))

include h

theorem resultAt_bare (n : ℕ) : l₀.bare.resultAt rounds n = l₀.resultAt rounds n := by
  unfold resultAt
  rw [head_bare h]
  cases ht : l₀.head rounds n with
  | none => rfl
  | some t =>
    show (t.bare.superstep (rounds n)).map Prod.snd = (t.superstep (rounds n)).map Prod.snd
    rw [superstep_bare (h n t ht)]
    cases t.superstep (rounds n) <;> rfl

theorem endsAt_bare {n : ℕ} {k : PregelLoop S σ} {e : Ending} :
    l₀.bare.EndsAt rounds n k e ↔ ∃ l, l₀.EndsAt rounds n l e ∧ k = l.bare := by
  unfold EndsAt
  rw [head_bare h]
  cases ht : l₀.head rounds n with
  | none => simp
  | some t =>
    have hend := ending_bare (h n t ht)
    simp only [Option.map_some, Option.some.injEq, exists_eq_left']
    rw [hend, Option.map_eq_some_iff]
    constructor
    · rintro ⟨⟨l, e'⟩, hl, heq⟩
      cases heq
      exact ⟨l, hl, rfl⟩
    · rintro ⟨l, hl, rfl⟩
      exact ⟨(l, e), hl, rfl⟩

end Bare

end PregelLoop

namespace CompiledGraph

variable (g : CompiledGraph S σ)

/-- The result of the superstep that `invoke` executes in round `n`; none when it has a cached
result. -/
def invokeResultAt (call : InvokeCall S σ) (rounds : ℕ → Round S) (n : ℕ) :
    Option (SuperstepResult S) :=
  if (g.cachedResult call).2.isSome then none else (g.invokeLoop call).resultAt rounds n

/-- The loop of `invoke` ends in round `n`. -/
def InvokeEndsAt (call : InvokeCall S σ) (rounds : ℕ → Round S) (n : ℕ) (l : PregelLoop S σ)
    (e : Ending) : Prop :=
  (g.cachedResult call).2 = none ∧ (g.invokeLoop call).EndsAt rounds n l e

/-- `invoke` and `stream_with_config` run the same computation. -/
structure SameRun (call : InvokeCall S σ) (rounds : ℕ → Round S) : Prop where
  /-- They execute the same supersteps: the same tasks have the same outputs, the same tasks are
  blocked. -/
  supersteps : ∀ n, g.invokeResultAt call rounds n = (g.streamLoop call).resultAt rounds n
  /-- They end in the same round and in the same state. -/
  final : ∀ n s, (∃ l e, g.InvokeEndsAt call rounds n l e ∧ l.state = s) ↔
    ∃ l e, (g.streamLoop call).EndsAt rounds n l e ∧ l.state = s
  /-- A run that `invoke` ends with an error is reported as an error. -/
  errors : ∀ n l e err, g.InvokeEndsAt call rounds n l e →
    (g.invokeEnd call l e).1 = .error err →
      ∃ l' e', (g.streamLoop call).EndsAt rounds n l' e' ∧ .error err ∈ streamEnd l' e'

/-- The condition: there is no cached result and the configuration of `invoke` is that of the stream;
in every round of the run in which a superstep is executed, no circuit breaker blocks a task, no node
with a fallback fails, and one that is spawned only because of it would do the same inline; and no
tick finds the step limit reached or the budget exceeded. -/
structure StreamSafe (call : InvokeCall S σ) (rounds : ℕ → Round S) : Prop where
  uncached : (g.cachedResult call).2 = none
  config : g.invokeConfig call = (call.store, g.effectiveConfig call.config)
  untouched : ∀ n t, (g.invokeLoop call).head rounds n = some t →
    (t.outside (rounds n)).GoesOn → t.Untouched (rounds n)
  ticks : ∀ n t, (g.invokeLoop call).head rounds n = some t →
    (t.outside (rounds n)).step < (t.outside (rounds n)).runnableConfig.recursionLimit ∧
      ((t.outside (rounds n)).cancelled = true ∨ (t.outside (rounds n)).budgetExceeded = none)

variable {g} {call : InvokeCall S σ} {rounds : ℕ → Round S}

omit [InterruptHash] in
/-- Apart from its configuration, the loop of a stream is that of `invoke` without breakers and
fallbacks. -/
theorem streamLoop_eq_bare (h : g.invokeConfig call = (call.store, g.effectiveConfig call.config)) :
    g.streamLoop call = (g.invokeLoop call).bare := by
  unfold streamLoop invokeLoop
  rw [h]
  rfl

theorem not_tickFailed (h : g.StreamSafe call rounds) {n : ℕ} {l : PregelLoop S σ}
    {err : JunctureError} : ¬ (g.invokeLoop call).EndsAt rounds n l (.tickFailed err) := by
  rintro ⟨t, ht, hend⟩
  obtain ⟨hlimit, hbudget⟩ := h.ticks n t ht
  have htick := (t.outside (rounds n)).ticks_tick
  rw [(PregelLoop.ending_of_tick.2 err).1 hend] at htick
  generalize l.status = status at htick
  cases htick with
  | limit hle => exact absurd hlimit (by omega)
  | budget reason hl hc hb =>
    rw [hc, hb] at hbudget
    simp at hbudget

/-- **Streaming is invoking**, where caches, breakers and fallbacks play no part and no tick
fails. -/
theorem sameRun_of_streamSafe (h : g.StreamSafe call rounds) : g.SameRun call rounds := by
  have hloop := streamLoop_eq_bare h.config
  refine ⟨fun n => ?_, fun n s => ?_, fun n l e err hend herr => ?_⟩
  · unfold invokeResultAt
    rw [h.uncached, hloop]
    exact (PregelLoop.resultAt_bare h.untouched n).symm
  · simp only [hloop, PregelLoop.endsAt_bare h.untouched, InvokeEndsAt, h.uncached, true_and]
    constructor
    · rintro ⟨l, e, hl, rfl⟩
      exact ⟨l.bare, e, ⟨l, hl, rfl⟩, rfl⟩
    · rintro ⟨_, e, ⟨l, hl, rfl⟩, rfl⟩
      exact ⟨l, e, hl, rfl⟩
  · refine ⟨l.bare, e, ?_, ?_⟩
    · rw [hloop, PregelLoop.endsAt_bare h.untouched]
      exact ⟨l, hend.2, rfl⟩
    · cases e with
      | done => cases herr
      | tickFailed e => exact absurd hend.2 (not_tickFailed h)
      | superstepFailed e =>
        cases herr
        exact List.mem_cons_of_mem _ List.mem_cons_self

end CompiledGraph

end Entry

/-! ### Small calls -/

/-- `a` alone. -/
def oneGraph : CompiledGraph Transcript MemoryStore := smallGraph [.fixed START "a"]

/-- A call with the given step limit. -/
def limitedCall (recursionLimit : ℕ) : InvokeCall Transcript MemoryStore where
  input := {}
  config := { threadId := some "t", recursionLimit }
  store := {}
  nextUuid := 1

/-- `invoke` and `stream_with_config` agree on it. -/
theorem sameRun_of_streamSafe_one : oneGraph.SameRun (limitedCall 25) undisturbed := by
  refine CompiledGraph.sameRun_of_streamSafe ⟨rfl, rfl, fun n t ht _ => ?_, fun n t ht => ?_⟩
  · have hfixed := PregelLoop.fixed_head ht
    exact PregelLoop.untouched_of_none hfixed.circuitBreakerConfigs hfixed.fallbackMap
  · -- The run has one superstep.
    have hlater : ∀ m, (oneGraph.invokeLoop (limitedCall 25)).head undisturbed (m + 2) = none := by
      intro m
      induction m with
      | zero => rfl
      | succ m ih =>
        show ((oneGraph.invokeLoop (limitedCall 25)).head undisturbed (m + 2)).bind _ = none
        rw [ih]
        rfl
    rcases n with _ | _ | n
    · cases ht
      exact ⟨by decide, .inr rfl⟩
    · cases ht
      exact ⟨by decide, .inr rfl⟩
    · rw [hlater n] at ht
      cases ht

/-- A graph whose only node fails and has a fallback. -/
def rescuedGraph : CompiledGraph Transcript MemoryStore where
  nodes := Dict.ofList [("b", appending 2), ("a", failing)]
  triggerTable := buildTriggerTable [.fixed START "a"]
  builderMetadata := Dict.ofList [("a", { fallbackNode := some "b" })]

/-- A step limit of `0` is an error of `invoke`, but the stream ends as if all was well; and a
failure that `invoke` recovers from ends the stream. -/
theorem invoke_not_sameRun :
    ¬ oneGraph.SameRun (limitedCall 0) undisturbed ∧
      ¬ rescuedGraph.SameRun (limitedCall 25) undisturbed := by
  constructor
  · intro h
    have hinvoke : ((oneGraph.invokeLoop (limitedCall 0)).ending {}).map Prod.snd =
        some (.tickFailed (.recursionLimit 0 0)) := rfl
    have hstream : ((oneGraph.streamLoop (limitedCall 0)).ending {}).map Prod.snd =
        some (.tickFailed (.recursionLimit 0 0)) := rfl
    obtain ⟨⟨l, e⟩, hl, rfl⟩ := Option.map_eq_some_iff.1 hinvoke
    obtain ⟨l', e', ⟨t, ht, hl'⟩, herr⟩ :=
      h.errors 0 l _ (.recursionLimit 0 0) ⟨rfl, _, rfl, hl⟩ rfl
    cases ht
    obtain rfl : e' = .tickFailed (.recursionLimit 0 0) := by
      have hl' : (oneGraph.streamLoop (limitedCall 0)).ending {} = some (l', e') := hl'
      rw [hl'] at hstream
      exact Option.some.inj hstream
    -- The only event is the end of the stream.
    cases List.mem_singleton.1 herr
  · intro h
    have hinvoke : (rescuedGraph.invokeResultAt (limitedCall 25) undisturbed 0).isSome = true := rfl
    have hstream : ((rescuedGraph.streamLoop (limitedCall 25)).resultAt undisturbed 0).isSome =
      false := rfl
    rw [h.supersteps 0, hstream] at hinvoke
    cases hinvoke

end Juncture
