import Juncture.Graph.Supersteps
import Juncture.Lib.FlowChart

/-!
# Calls as runs of a flow chart

A call of a graph runs superstep after superstep.  When nothing interferes, and the tasks of a superstep
do not depend on each other, a flow chart whose blocks are supersteps says what it returns.

* `Charts` : the flow chart goes where the supersteps of a graph go, whatever the order of their tasks.
* `Charts.exists_endsAt` : a run ends as the flow chart does.
* `yields_iff` : a call returns what its run ends with.
-/

namespace Juncture

open FlowChart

variable {S σ : Type} [State S]

/-! ### A call -/

/-- What a call returns when this comes of its flow chart.  A run that ends with its last superstep
has no step left to find that out. -/
def InvokeCall.report {ι : Type} (call : InvokeCall S σ) :
    FlowChart.Outcome ι (FlowStore S) JunctureError → Except JunctureError (GraphOutput S)
  | .halted blocks store =>
    if blocks < call.config.recursionLimit then .ok {
      value := finishFields store.state
      interrupts := []
      steps := blocks
      runId := call.nextUuid
      checkpointId := call.config.checkpointId }
    else .error (.recursionLimit call.config.recursionLimit call.config.recursionLimit)
  | .failed _ e => .error e
  | .going _ _ => .error (.recursionLimit call.config.recursionLimit call.config.recursionLimit)

/-- The results are the same, or both are errors that count as the same. -/
inductive Agree {α : Type} (Same : JunctureError → JunctureError → Prop) :
    Except JunctureError α → Except JunctureError α → Prop
  | ok (a : α) : Agree Same (.ok a) (.ok a)
  | error {e e' : JunctureError} (h : Same e e') : Agree Same (.error e) (.error e')

/-- A block leads where a superstep leads, the nodes of a place being given by `At`. -/
inductive BlockAgrees {ι : Type} (At : ι → List String → Prop)
    (Same : JunctureError → JunctureError → Prop) :
    Except JunctureError (FlowStore S × Option ι) →
      Except JunctureError (FlowStore S × List String) → Prop
  | halts (store : FlowStore S) : BlockAgrees At Same (.ok (store, none)) (.ok (store, []))
  | goes (store : FlowStore S) {i : ι} {names : List String} (h : At i names) :
      BlockAgrees At Same (.ok (store, some i)) (.ok (store, names))
  | fails {e e' : JunctureError} (h : Same e e') : BlockAgrees At Same (.error e) (.error e')

namespace CompiledGraph

variable [InterruptHash] {g : CompiledGraph S σ} {call : InvokeCall S σ} {rounds : ℕ → Round S}

omit [InterruptHash] in
/-- The nodes of the first superstep. -/
def entries (g : CompiledGraph S σ) : List String :=
  (g.triggerTable.incoming.entries.filter fun kv => kv.2.contains (.edge START)).map Sigma.fst

/-- What a call of the graph returns. -/
def Yields (g : CompiledGraph S σ) (call : InvokeCall S σ) (rounds : ℕ → Round S)
    (r : Except JunctureError (GraphOutput S)) : Prop :=
  match (g.cachedResult call).2 with
  | some json => r = cachedOutput call json
  | none => ∃ n l e, (g.invokeLoop call).EndsAt rounds n l e ∧ (g.invokeFinish call l e).1 = r

/-- Nothing outside the graph interferes with the run. -/
structure Undisturbed (g : CompiledGraph S σ) (call : InvokeCall S σ) (rounds : ℕ → Round S) :
    Prop where
  /-- The result of the call is not cached. -/
  uncached : (g.cachedResult call).2 = none
  /-- There is no interrupt before a node. -/
  before : (g.effectiveConfig call.config).interruptBefore = none
  /-- There is no interrupt after one. -/
  after : (g.effectiveConfig call.config).interruptAfter = none
  /-- There is no budget. -/
  budget : call.config.budget = none
  /-- The run is not cancelled. -/
  calm : ∀ n, (rounds n).Calm

omit [InterruptHash] in
/-- There are no retries, timeouts, handlers, breakers and fallbacks. -/
def Unwrapped (g : CompiledGraph S σ) : Prop :=
  ∀ kv ∈ g.builderMetadata.entries, kv.2.retryPolicies = [] ∧ kv.2.errorHandler = none ∧
    kv.2.timeoutPolicies = [] ∧ kv.2.circuitBreaker = none ∧ kv.2.fallbackNode = none

omit [InterruptHash] in
/-- A graph with nothing around its nodes. -/
theorem buildMap_eq {α : Type} {f : NodeMetadata → Option α}
    (h : ∀ kv ∈ g.builderMetadata.entries, f kv.2 = none) : g.buildMap f = ∅ := by
  have hnil : (g.builderMetadata.entries.filterMap fun kv => (f kv.2).map fun a => (kv.1, a)) = [] :=
    List.filterMap_eq_nil_iff.2 fun kv hkv => by rw [h kv hkv]; rfl
  unfold buildMap
  rw [hnil]
  rfl

omit [InterruptHash] in
/-- What `invoke` runs with is the configuration of the graph, where this counts. -/
theorem invokeConfig_frame (g : CompiledGraph S σ) (call : InvokeCall S σ) :
    (g.invokeConfig call).2.interruptBefore = (g.effectiveConfig call.config).interruptBefore ∧
      (g.invokeConfig call).2.interruptAfter = (g.effectiveConfig call.config).interruptAfter ∧
      (g.invokeConfig call).2.budget = call.config.budget ∧
      (g.invokeConfig call).2.recursionLimit = call.config.recursionLimit := by
  unfold invokeConfig
  dsimp only
  split
  · exact ⟨rfl, rfl, rfl, rfl⟩
  · split
    · exact ⟨rfl, rfl, rfl, rfl⟩
    · exact ⟨rfl, rfl, rfl, rfl⟩

omit [InterruptHash] in
/-- The loop of a call is at the beginning of the program. -/
theorem inStep_invokeLoop (hplain : g.Unwrapped) (hentries : g.entries ≠ [])
    (hbudget : call.config.budget = none) :
    InStep g (g.invokeConfig call).2 call.nextUuid 0 g.entries ⟨call.input, .none⟩
      (g.invokeLoop call) := by
  have hretries := buildMap_eq (f := fun m => m.retryPolicies.head?) fun kv hkv => by
    rw [(hplain kv hkv).1]
    rfl
  have htimeouts := buildMap_eq (f := fun m => m.timeoutPolicies.head?) fun kv hkv => by
    rw [(hplain kv hkv).2.2.1]
    rfl
  have hconfig : (g.invokeConfig call).2.budget = none :=
    (g.invokeConfig_frame call).2.2.1.trans hbudget
  have hsome : g.entries.isEmpty = false := List.isEmpty_eq_false_iff.2 hentries
  refine ⟨⟨rfl, rfl, rfl, rfl, ?_, ?_, hretries, htimeouts, ?_, rfl, rfl, ?_, rfl⟩, rfl, ?_, rfl, ?_,
    ?_, rfl⟩
  · exact buildMap_eq fun kv hkv => (hplain kv hkv).2.1
  · exact buildMap_eq fun kv hkv => (hplain kv hkv).2.2.2.2
  · exact buildMap_eq fun kv hkv => (hplain kv hkv).2.2.2.1
  · exact congrArg (Option.map _) hconfig
  · exact map_anon_pullTasks _ g.entries
  · rw [hsome]
    rfl
  · rw [hsome]
    rfl

/-- A flow chart whose blocks are the supersteps of the graph. -/
structure Charts {ι : Type} (g : CompiledGraph S σ) (config : RunnableConfig) (rounds : ℕ → Round S)
    (c : Chart ι (FlowStore S) JunctureError) (At : ι → List String → Prop)
    (Same : JunctureError → JunctureError → Prop) : Prop where
  /-- A place is a superstep with something to run. -/
  nonempty : ∀ {i names}, At i names → names ≠ []
  /-- Its tasks do not depend on each other. -/
  orderly : ∀ {i names}, At i names → ∀ n state, g.Orderly config (rounds n) names state
  /-- The block is the superstep, whatever the order of its tasks. -/
  block : ∀ {i names}, At i names → ∀ order : List String, order.Perm names → ∀ store,
    BlockAgrees At Same (c i store) (g.superstep config order store)

variable {ι : Type} {c : Chart ι (FlowStore S) JunctureError} {At : ι → List String → Prop}
  {Same : JunctureError → JunctureError → Prop} {i : ι}

/-- One turn of the loop, at a place of the flow chart. -/
theorem Charts.turn (hc : g.Charts (g.invokeConfig call).2 rounds c At Same)
    (h : g.Undisturbed call rounds) {n : ℕ} {names : List String} {store : FlowStore S}
    {l : PregelLoop S σ} (hi : At i names)
    (hat : InStep g (g.invokeConfig call).2 call.nextUuid n names store l)
    (hn : n < call.config.recursionLimit) :
    match c i store with
    | .error e => ∃ e' l', Same e e' ∧ l.ending (rounds n) = some (l', .superstepFailed e')
    | .ok (store', none) => ∃ l', l.turn (rounds n) = some l' ∧
        InStep g (g.invokeConfig call).2 call.nextUuid (n + 1) [] store' l'
    | .ok (store', some j) => ∃ l' names', l.turn (rounds n) = some l' ∧ At j names' ∧
        InStep g (g.invokeConfig call).2 call.nextUuid (n + 1) names' store' l' := by
  obtain ⟨hbefore, hafter, -, hlimit⟩ := g.invokeConfig_frame call
  obtain ⟨order, hperm, hturn⟩ := hat.turn (hc.nonempty hi) (h.calm n) (hc.orderly hi n _)
    (by rwa [hlimit]) (hbefore.trans h.before) (hafter.trans h.after)
  have hagrees := hc.block hi order hperm store
  generalize g.superstep (g.invokeConfig call).2 order store = r at hagrees hturn
  generalize c i store = r' at hagrees
  cases hagrees with
  | halts store' => exact hturn
  | goes store' hj =>
    obtain ⟨l', hl', hat'⟩ := hturn
    exact ⟨l', _, hl', hj, hat'⟩
  | fails hsame =>
    obtain ⟨l', hend⟩ := hturn
    exact ⟨_, l', hsame, hend⟩

/-- **The run**: after `n` supersteps the loop is where the flow chart is. -/
theorem Charts.head (hc : g.Charts (g.invokeConfig call).2 rounds c At Same)
    (hplain : g.Unwrapped) (hentry : At i g.entries) (h : g.Undisturbed call rounds) {n : ℕ} {j : ι}
    {store : FlowStore S} (hn : n ≤ call.config.recursionLimit)
    (hrun : run c i ⟨call.input, .none⟩ n = .going j store) :
    ∃ l names, (g.invokeLoop call).head rounds n = some l ∧ At j names ∧
      InStep g (g.invokeConfig call).2 call.nextUuid n names store l := by
  induction n generalizing j store with
  | zero =>
    cases hrun
    exact ⟨_, _, rfl, hentry, inStep_invokeLoop hplain (hc.nonempty hentry) h.budget⟩
  | succ n ih =>
    obtain ⟨k, store', hgoing, hblock⟩ := exists_of_going hrun
    obtain ⟨l, names, hl, hk, hat⟩ := ih (by omega) hgoing
    have hturn := hc.turn h hk hat (by omega)
    rw [hblock] at hturn
    obtain ⟨l', names', hl', hj, hat'⟩ := hturn
    exact ⟨l', names', Machine.trace_succ_eq_some_iff.2 ⟨l, hl, hl'⟩, hj, hat'⟩

/-- **The run ends** as the flow chart does. -/
theorem Charts.exists_endsAt (hc : g.Charts (g.invokeConfig call).2 rounds c At Same)
    (hsame : ∀ e, Same e e) (hplain : g.Unwrapped) (hentry : At i g.entries)
    (h : g.Undisturbed call rounds) :
    ∃ n l e, (g.invokeLoop call).EndsAt rounds n l e ∧
      Agree Same (call.report (run c i ⟨call.input, .none⟩ call.config.recursionLimit))
        (g.invokeFinish call l e).1 := by
  obtain ⟨-, -, -, hlimit⟩ := g.invokeConfig_frame call
  cases hrun : run c i ⟨call.input, .none⟩ call.config.recursionLimit with
  | going j store =>
    obtain ⟨l, names, hl, -, hat⟩ := hc.head hplain hentry h (Nat.le_refl _) hrun
    obtain ⟨l', hend⟩ := hat.ending_limit (h.calm _) (by rw [hlimit])
    rw [hlimit] at hend
    exact ⟨_, l', _, ⟨l, hl, hend⟩, .error (hsame _)⟩
  | failed m e =>
    obtain ⟨hm, j, store, hgoing, hblock⟩ := exists_of_failed hrun
    obtain ⟨l, names, hl, hj, hat⟩ := hc.head hplain hentry h (by omega) hgoing
    have hturn := hc.turn h hj hat hm
    rw [hblock] at hturn
    obtain ⟨e', l', hsame', hend⟩ := hturn
    exact ⟨m, l', _, ⟨l, hl, hend⟩, .error hsame'⟩
  | halted m store =>
    obtain ⟨k, j, store', rfl, hk, hgoing, hblock⟩ := exists_of_halted hrun
    obtain ⟨l, names, hl, hj, hat⟩ := hc.head hplain hentry h (by omega) hgoing
    have hturn := hc.turn h hj hat hk
    rw [hblock] at hturn
    obtain ⟨l', hl', hat'⟩ := hturn
    have hhead : (g.invokeLoop call).head rounds (k + 1) = some l' :=
      Machine.trace_succ_eq_some_iff.2 ⟨l, hl, hl'⟩
    by_cases hlt : k + 1 < call.config.recursionLimit
    · obtain ⟨l'', hend, hstate, hcount, hid⟩ := hat'.ending_done (h.calm (k + 1)) (by omega)
      refine ⟨_, l'', _, ⟨l', hhead, hend⟩, ?_⟩
      simp only [invokeFinish, invokeEnd, output, InvokeCall.report, if_pos hlt, hstate, hcount, hid]
      exact .ok _
    · -- the last superstep that was left
      have hlast : k + 1 = call.config.recursionLimit := by omega
      obtain ⟨l'', hend⟩ := hat'.ending_limit (h.calm (k + 1)) (by omega)
      refine ⟨_, l'', _, ⟨l', hhead, hend⟩, ?_⟩
      simp only [invokeFinish, invokeEnd, output, InvokeCall.report, hlimit, hlast, Nat.lt_irrefl,
        if_false]
      exact .error (hsame _)

/-- A call returns what its run ends with. -/
theorem yields_iff {n : ℕ} {l : PregelLoop S σ} {e : Ending} (h : (g.cachedResult call).2 = none)
    (hend : (g.invokeLoop call).EndsAt rounds n l e) (r : Except JunctureError (GraphOutput S)) :
    g.Yields call rounds r ↔ r = (g.invokeFinish call l e).1 := by
  unfold Yields
  rw [h]
  constructor
  · rintro ⟨n', l', e', hend', rfl⟩
    obtain ⟨rfl, rfl⟩ := hend.unique hend'
    rfl
  · rintro rfl
    exact ⟨n, l, e, hend, rfl⟩

end CompiledGraph

end Juncture
