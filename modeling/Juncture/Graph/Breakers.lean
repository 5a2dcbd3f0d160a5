import Juncture.Graph.Drivers
import Juncture.Graph.Resume
import Juncture.Pregel.Breaker
import Juncture.Pregel.FallbackChains

/-!
# Circuit breakers over a run

Only `invoke` installs circuit breakers.  Along its runs they are settled between supersteps: they
half open before a superstep, and what comes of its tasks closes or opens them again.

* `Guarded` : what a superstep does to a breaker.
* `breakersSettled_head` : the breakers are settled at every head of a run.
* `probesWithin_iff` : when no more tasks run on a half open breaker than its policy allows.
-/

namespace Juncture

/-- What a map built from keys looks up. -/
theorem Dict.lookup_ofList_const {α : Type} (a : α) {ks : List String} {k : String} (h : k ∈ ks) :
    (Dict.ofList (ks.map fun k => (k, a))).lookup k = some a := by
  have hfold : ∀ (ks : List String) (d : Dict α), k ∈ ks ∨ d.lookup k = some a →
      ((ks.map fun k => (k, a)).foldl (fun d kv => d.insert kv.1 kv.2) d).lookup k = some a := by
    intro ks
    induction ks with
    | nil => exact fun d hd => hd.resolve_left (by simp)
    | cons k' ks ih =>
      intro d hd
      refine ih _ ?_
      by_cases hk : k = k'
      · subst hk
        exact .inr (AList.lookup_insert d)
      · rw [AList.lookup_insert_ne hk]
        exact hd.imp_left fun hmem => (List.mem_cons.1 hmem).resolve_left hk
  exact hfold ks ∅ (.inl h)

namespace PregelLoop

section Breakers

variable {S σ : Type} [State S] {l l' k : PregelLoop S σ} {round : Round S} {node : String}
  {config : CircuitBreakerConfig} {b : CircuitBreakerState} {blocked : List (TaskOutput S)}

/-! ### One superstep -/

/-- Every policy has a breaker, and it is settled. -/
def BreakersSettled (l : PregelLoop S σ) : Prop :=
  ∀ node config, l.circuitBreakerConfigs.lookup node = some config →
    ∃ b, l.circuitBreakerStates.lookup node = some b ∧ b.Settled config

/-- When the tasks of the round start to run. -/
def runsAt (l : PregelLoop S σ) (round : Round S) : ℕ :=
  l.now + round.pause + round.checkLags.sum

theorem reading_le (l : PregelLoop S σ) (i : ℕ) : l.reading i ≤ l.now + l.lags.sum := by
  have hsum : l.lags.sum = (l.lags.take (i + 1)).sum + (l.lags.drop (i + 1)).sum := by
    rw [← List.sum_append, List.take_append_drop]
  unfold reading
  omega

theorem now_outside (l : PregelLoop S σ) (round : Round S) :
    (l.outside round).now = l.now + round.pause := by
  obtain ⟨_, _, h⟩ := l.outside_eq round
  rw [h]

theorem breakers_outside (l : PregelLoop S σ) (round : Round S) :
    (l.outside round).circuitBreakerStates = l.circuitBreakerStates := by
  obtain ⟨_, _, h⟩ := l.outside_eq round
  rw [h]

theorem le_runsAt {now : ℕ} (h : now ∈ (l.outside round).checkTimes node) :
    now ≤ l.runsAt round := by
  obtain ⟨p, -, rfl⟩ := List.mem_map.1 h
  have hle := (l.outside round).reading_le p.2
  rwa [now_outside, show (l.outside round).lags = round.checkLags from rfl] at hle

/-- Deserializing the states of `Send` tasks keeps identifiers and nodes. -/
theorem resolveStateJson_keys (tasks : List (PendingTask S)) :
    (resolveStateJson tasks).1.map (fun t => (t.id, t.nodeName)) =
      tasks.map fun t => (t.id, t.nodeName) := by
  induction tasks with
  | nil => rfl
  | cons task tasks ih =>
    unfold resolveStateJson
    split
    · split
      · exact congrArg ((task.id, task.nodeName) :: ·) ih
      · rfl
    · exact congrArg ((task.id, task.nodeName) :: ·) ih

/-- The breakers before a superstep, seen from one node. -/
theorem prepare_breaker (hids : (l.pendingTasks.map PendingTask.id).Nodup)
    (hc : l.circuitBreakerConfigs.lookup node = some config)
    (hb : l.circuitBreakerStates.lookup node = some b) (h : l.prepare = (k, .ok blocked)) :
    k.circuitBreakerStates.lookup node = some (b.checks config (l.checkTimes node)).1 ∧
      (k.tasksOf node).length = (b.checks config (l.checkTimes node)).2.count true ∧
      k.circuitBreakerConfigs = l.circuitBreakerConfigs := by
  have hkeys := resolveStateJson_keys l.pendingTasks
  have hconfigs : k.circuitBreakerConfigs = l.circuitBreakerConfigs := by
    have hran := l.ran_prepare.fixed.circuitBreakerConfigs
    rw [h] at hran
    exact hran
  unfold prepare at h
  split at h
  · cases h
  rename_i tasks htasks
  rw [htasks] at hkeys
  cases h
  have hnames : tasks.map PendingTask.nodeName = l.pendingTasks.map PendingTask.nodeName := by
    simpa [Function.comp_def] using congrArg (List.map Prod.snd) hkeys
  have hsame : tasks.map PendingTask.id = l.pendingTasks.map PendingTask.id := by
    simpa [Function.comp_def] using congrArg (List.map Prod.fst) hkeys
  have htimes : { l with pendingTasks := tasks }.checkTimes node = l.checkTimes node := by
    unfold checkTimes
    rw [hnames]
    rfl
  obtain ⟨hstate, hlen⟩ := checkCircuitBreakers_spec (l := { l with pendingTasks := tasks })
    (by rw [hsame]; exact hids) hc hb
  rw [htimes] at hstate hlen
  exact ⟨hstate, hlen, hconfigs⟩

variable [InterruptHash] {l₁ : PregelLoop S σ} {result : SuperstepResult S}

/-- The breakers after the tasks have run, seen from one node: it hears of each task once. -/
theorem runPrepared_breaker (hc : k.circuitBreakerConfigs.lookup node = some config)
    (hb : k.circuitBreakerStates.lookup node = some b)
    (h : k.runPrepared round blocked = (l₁, .ok result)) :
    ∃ ps : List (Bool × ℕ), ps.length = (k.tasksOf node).length ∧
      l₁.circuitBreakerStates.lookup node = some (b.records config ps) ∧
      l₁.pendingTasks = k.pendingTasks := by
  unfold runPrepared at h
  dsimp only at h
  split at h
  · cases h
  rename_i r hr
  cases h
  let m := ((k.absorb (k.runTasks round)).report round).markInterruptsProcessed
  refine ⟨m.recordings r.taskOutputs node, ?_,
    recordCircuitBreakerResults_spec (l := m) r.taskOutputs hc hb, rfl⟩
  rw [length_recordings, (runTasks_names hr).count_eq node, List.count_eq_countP, List.countP_map,
    tasksOf, ← List.countP_eq_length_filter]
  exact List.countP_congr (by simp)

/-- **A superstep, seen from one breaker**: it is asked about each task of its node and told what came
of those that ran. -/
theorem superstep_breaker (hids : (l.pendingTasks.map PendingTask.id).Nodup)
    (hc : l.circuitBreakerConfigs.lookup node = some config)
    (hb : l.circuitBreakerStates.lookup node = some b)
    (h : l.superstep round = some (l₁, result)) :
    ∃ ps : List (Bool × ℕ), ps.length = (l₁.tasksOf node).length ∧
      (l₁.tasksOf node).length =
        (b.checks config ((l.outside round).checkTimes node)).2.count true ∧
      l₁.circuitBreakerStates.lookup node =
        some ((b.checks config ((l.outside round).checkTimes node)).1.records config ps) := by
  obtain ⟨-, r, hexec, -⟩ := superstep_eq_some_iff.1 h
  unfold executeSuperstep at hexec
  obtain ⟨k, blocked, hprep, hrun⟩ := andThen_eq_ok_iff.1 hexec
  have hfixed := (l.ran_outside round).fixed.circuitBreakerConfigs
  obtain ⟨hstate, hlen, hconfigs⟩ := prepare_breaker (by rw [pendingTasks_outside]; exact hids)
    (by rw [hfixed]; exact hc) (by rw [breakers_outside]; exact hb) hprep
  obtain ⟨ps, hps, hstate', hpending⟩ := runPrepared_breaker
    (by rw [hconfigs, hfixed]; exact hc) hstate hrun
  have htasks : l₁.tasksOf node = k.tasksOf node := by
    unfold tasksOf
    rw [hpending]
  exact ⟨ps, by rw [htasks]; exact hps, by rw [htasks]; exact hlen, hstate'⟩

/-- What the superstep from `l` to `l₁` does to the breaker of the node. -/
structure Guarded (l : PregelLoop S σ) (round : Round S) (l₁ : PregelLoop S σ) (node : String)
    (config : CircuitBreakerConfig) : Prop where
  /-- The breaker is closed or open afterwards, with all that goes with it. -/
  settled : ∃ b, l₁.circuitBreakerStates.lookup node = some b ∧ b.Settled config
  /-- From its opening to the end of the cooldown no task of the node runs. -/
  cooled : ∀ b opened, l.circuitBreakerStates.lookup node = some b → b.state = .open →
    b.openedAt = some opened → l₁.tasksOf node ≠ [] →
    config.cooldownDuration ≤ l.runsAt round - opened
  /-- The breaker goes through one check and one record for each task that runs, and through nothing
  for a task that is blocked. -/
  blocked : ∀ b, l.circuitBreakerStates.lookup node = some b →
    ∃ (times : List ℕ) (ps : List (Bool × ℕ)), times.length = (l₁.tasksOf node).length ∧
      ps.length = (l₁.tasksOf node).length ∧
      l₁.circuitBreakerStates.lookup node = some ((b.checks config times).1.records config ps)

/-- **A superstep keeps its breakers settled**, and respects the cooldown. -/
theorem guarded_superstep (hset : l.BreakersSettled)
    (hids : (l.pendingTasks.map PendingTask.id).Nodup)
    (hc : l.circuitBreakerConfigs.lookup node = some config)
    (h : l.superstep round = some (l₁, result)) : l.Guarded round l₁ node config := by
  obtain ⟨b, hb, hsettled⟩ := hset node config hc
  obtain ⟨ps, hps, hlen, hstate⟩ := superstep_breaker hids hc hb h
  set times := (l.outside round).checkTimes node with htimes
  have hcases : (b.checks config times).1 = b ∨
      (b.checks config times).1.state = .halfOpen ∧ true ∈ (b.checks config times).2 := by
    obtain hclosed | hopen := hsettled.closedOrOpen
    · exact .inl (by rw [CircuitBreakerState.checks_closed hclosed])
    · obtain ⟨opened, ho⟩ := Option.isSome_iff_exists.1 (hsettled.opened hopen)
      obtain ⟨-, heq⟩ | ⟨early, now, late, -, -, -, heq⟩ :=
        CircuitBreakerState.checks_due config times hopen ho
      · exact .inl (by rw [heq])
      · exact .inr (by rw [heq]; simp [CircuitBreakerState.halfOpened])
  refine ⟨⟨_, hstate, ?_⟩, ?_, ?_⟩
  · refine CircuitBreakerState.Settled.records ?_
    obtain heq | ⟨hhalf, hallowed⟩ := hcases
    · exact .inl (by rw [heq]; exact hsettled)
    · -- The task that half opened the breaker runs, so that the breaker hears of it.
      refine .inr ⟨hhalf, fun hnil => ?_⟩
      have hpos := List.count_pos_iff.2 hallowed
      rw [hnil, List.length_nil] at hps
      omega
  · intro b' opened hb' hopen ho hruns
    cases hb.symm.trans hb'
    obtain ⟨-, heq⟩ | ⟨early, now, late, hsplit, -, hnow, -⟩ :=
      CircuitBreakerState.checks_due config times hopen ho
    · -- Every task was refused.
      rw [heq] at hlen
      have hzero : (times.map fun _ => false).count true = 0 := by simp [List.count_eq_zero]
      rw [hzero] at hlen
      exact absurd (List.length_eq_zero_iff.1 hlen) hruns
    · have hmem : now ∈ times := by rw [hsplit]; simp
      have hle := le_runsAt hmem
      omega
  · intro b' hb'
    cases hb.symm.trans hb'
    refine ⟨Mealy.accepted (fun b now => CircuitBreakerState.shouldAllow b config now) b times, ps,
      ?_, hps, ?_⟩
    · exact (Mealy.length_accepted _ b times).trans hlen.symm
    · rw [hstate]
      unfold CircuitBreakerState.checks
      rw [Mealy.run_accepted fun b now => CircuitBreakerState.shouldAllow_of_refused]

/-! ### Runs -/

/-- `after_tick` does not touch the breakers. -/
theorem breakers_afterTick (h : l.afterTick result = (l', .ok ())) :
    l'.circuitBreakerStates = l.circuitBreakerStates := by
  obtain ⟨tasks, k, -, hk, hf⟩ := afterTick_advanced h
  have hsettled : ∀ m : PregelLoop S σ, m.Settled l' →
      l'.circuitBreakerStates = m.circuitBreakerStates := by
    rintro m ⟨k', hk', _, _, _, _, _, _, _, _, _, _, _, rfl⟩
    obtain rfl | rfl := hk'
    · rfl
    · show m.finishAllChannels.circuitBreakerStates = m.circuitBreakerStates
      unfold finishAllChannels
      split_ifs <;> rfl
  have hstates : k.circuitBreakerStates = l.circuitBreakerStates := by
    obtain ⟨_, _, _, _, _, _, rfl⟩ := hk
    rfl
  rw [← hstates]
  obtain ⟨-, hset⟩ | ⟨-, hset⟩ := finishTick_settled hf
  · exact hsettled { k with interruptRx := none } hset
  · refine (hsettled _ hset).trans ?_
    obtain ⟨_, _, _, _, heq⟩ := k.reported_eq result.bubbleUps
    rw [heq]

variable {l₀ t : PregelLoop S σ} {rounds : ℕ → Round S} {n : ℕ}

/-- **The breakers are settled at every head of a run.** -/
theorem breakersSettled_head (h₀ : l₀.BreakersSettled)
    (hids : (l₀.pendingTasks.map PendingTask.id).Nodup) (ht : l₀.head rounds n = some t) :
    t.BreakersSettled := by
  refine Machine.trace_invariant (I := fun _ t => t.BreakersSettled) h₀ ?_ ht
  intro n t u ht hset hturn
  obtain ⟨l₁, result, hs, ha⟩ := turn_eq_some_iff.1 hturn
  have hfixed := (ran_superstep hs).fixed.trans (fixed_afterTick ha)
  intro node config hc
  rw [hfixed.circuitBreakerConfigs] at hc
  rw [breakers_afterTick ha]
  exact (guarded_superstep hset (nodup_ids_head hids ht) hc hs).settled

/-! ### Probes -/

/-- The breaker of the node is half open. -/
def HalfOpenAt (l : PregelLoop S σ) (node : String) : Prop :=
  ∃ b, l.circuitBreakerStates.lookup node = some b ∧ b.state = .halfOpen

/-- Whenever the tasks of a superstep run while the breaker of the node is half open, at most as many
of them are tasks of the node as the policy allows probes.  A half open period lies within one
superstep, as the breaker is settled at every head. -/
def ProbesWithin (l₀ : PregelLoop S σ) (rounds : ℕ → Round S) (node : String)
    (config : CircuitBreakerConfig) : Prop :=
  ∀ n t k blocked, l₀.head rounds n = some t → (t.outside (rounds n)).GoesOn →
    (t.outside (rounds n)).prepare = (k, .ok blocked) → k.HalfOpenAt node →
    (k.tasksOf node).length ≤ config.halfOpenMaxAttempts

/-- The condition: whenever a superstep finds the breaker open, the tasks of the node from the first
one on that is checked after the cooldown are no more than the policy allows probes, or it allows
just one. -/
def FewProbes (l₀ : PregelLoop S σ) (rounds : ℕ → Round S) (node : String)
    (config : CircuitBreakerConfig) : Prop :=
  ∀ n t b opened, l₀.head rounds n = some t → (t.outside (rounds n)).GoesOn →
    (resolveStateJson t.pendingTasks).2 = .ok () → t.circuitBreakerStates.lookup node = some b →
    b.state = .open → b.openedAt = some opened →
    (CircuitBreakerState.due config opened ((t.outside (rounds n)).checkTimes node)).length ≤
      config.halfOpenMaxAttempts ∨ config.halfOpenMaxAttempts = 1

omit [InterruptHash] in
/-- The tasks that an open breaker lets run. -/
theorem count_checks_le_iff {times : List ℕ} {opened : ℕ} (hopen : b.state = .open)
    (ho : b.openedAt = some opened) :
    ((b.checks config times).1.state = .halfOpen →
        (b.checks config times).2.count true ≤ config.halfOpenMaxAttempts) ↔
      (CircuitBreakerState.due config opened times).length ≤ config.halfOpenMaxAttempts ∨
        config.halfOpenMaxAttempts = 1 := by
  obtain ⟨hdue, heq⟩ | ⟨early, now, late, -, hdue, -, heq⟩ :=
    CircuitBreakerState.checks_due config times hopen ho
  · rw [heq, hdue]
    simp [hopen]
  · rw [heq, hdue]
    have hearly : (early.map fun _ => false).count true = 0 := by simp [List.count_eq_zero]
    simp only [CircuitBreakerState.halfOpened, forall_const, List.count_append, hearly,
      List.count_cons_self, List.length_cons]
    -- The tasks after the one that half opens the breaker all run, or none of them does.
    by_cases hmax : 1 < config.halfOpenMaxAttempts
    · simp only [hmax, decide_true, List.map_const', List.count_replicate_self]
      omega
    · simp only [hmax, decide_false, List.map_const']
      have hnone : (List.replicate late.length false).count true = 0 := by
        simp [List.count_eq_zero]
      omega

/-- **When no more tasks run on a half open breaker than its policy allows.** -/
theorem probesWithin_iff (hset : l₀.BreakersSettled)
    (hids : (l₀.pendingTasks.map PendingTask.id).Nodup)
    (hc : l₀.circuitBreakerConfigs.lookup node = some config) :
    (∀ n t, l₀.head rounds n = some t → ¬ t.HalfOpenAt node) ∧
      (l₀.ProbesWithin rounds node config ↔ l₀.FewProbes rounds node config) := by
  have hhead : ∀ {n t}, l₀.head rounds n = some t →
      ∃ b, t.circuitBreakerStates.lookup node = some b ∧ b.Settled config := by
    intro n t ht
    exact breakersSettled_head hset hids ht node config
      (by rw [(fixed_head ht).circuitBreakerConfigs]; exact hc)
  -- What a superstep makes of the breaker before its tasks run.
  have hprep : ∀ {n t k blocked b}, l₀.head rounds n = some t →
      t.circuitBreakerStates.lookup node = some b →
      (t.outside (rounds n)).prepare = (k, .ok blocked) →
      k.circuitBreakerStates.lookup node =
          some (b.checks config ((t.outside (rounds n)).checkTimes node)).1 ∧
        (k.tasksOf node).length =
          (b.checks config ((t.outside (rounds n)).checkTimes node)).2.count true := by
    intro n t k blocked b ht hb hk
    have hfixed := (fixed_head ht).trans (t.ran_outside (rounds n)).fixed
    obtain ⟨hstate, hlen, -⟩ := prepare_breaker
      (by rw [pendingTasks_outside]; exact nodup_ids_head hids ht)
      (by rw [hfixed.circuitBreakerConfigs]; exact hc) (by rw [breakers_outside]; exact hb) hk
    exact ⟨hstate, hlen⟩
  refine ⟨?_, ?_, ?_⟩
  · rintro n t ht ⟨b, hb, hhalf⟩
    obtain ⟨b', hb', hsettled⟩ := hhead ht
    cases hb.symm.trans hb'
    obtain hclosed | hopen := hsettled.closedOrOpen
    · rw [hclosed] at hhalf
      cases hhalf
    · rw [hopen] at hhalf
      cases hhalf
  · intro h n t b opened ht hgo hresolve hb hopen ho
    refine (count_checks_le_iff hopen ho).1 fun hhalf => ?_
    obtain ⟨k, blocked, hk⟩ : ∃ k blocked, (t.outside (rounds n)).prepare = (k, .ok blocked) := by
      unfold prepare
      rcases hres : resolveStateJson (t.outside (rounds n)).pendingTasks with ⟨tasks, r⟩
      rw [pendingTasks_outside] at hres
      rw [hres] at hresolve
      obtain rfl : r = .ok () := hresolve
      exact ⟨_, _, rfl⟩
    obtain ⟨hstate, hlen⟩ := hprep ht hb hk
    rw [← hlen]
    exact h n t k blocked ht hgo hk ⟨_, hstate, hhalf⟩
  · rintro h n t k blocked ht hgo hk ⟨b', hb', hhalf⟩
    obtain ⟨b, hb, hsettled⟩ := hhead ht
    obtain ⟨hstate, hlen⟩ := hprep ht hb hk
    cases hb'.symm.trans hstate
    rw [hlen]
    obtain hclosed | hopen := hsettled.closedOrOpen
    · rw [CircuitBreakerState.checks_closed hclosed, hclosed] at hhalf
      cases hhalf
    · obtain ⟨opened, ho⟩ := Option.isSome_iff_exists.1 (hsettled.opened hopen)
      have hresolve : (resolveStateJson t.pendingTasks).2 = .ok () := by
        unfold prepare at hk
        rw [pendingTasks_outside] at hk
        split at hk
        · cases hk
        · rename_i hres
          rw [hres]
      exact (count_checks_le_iff hopen ho).2 (h n t b opened ht hgo hresolve hb hopen ho) hhalf

end Breakers

end PregelLoop

/-! ### The runs of `invoke` -/

namespace CompiledGraph

section Invoke

variable {S σ : Type} [State S] (g : CompiledGraph S σ) (call : InvokeCall S σ)

/-- `invoke` starts with new breakers. -/
theorem breakersSettled_invokeLoop : (g.invokeLoop call).BreakersSettled := by
  intro node config hc
  have hkey : node ∈ g.buildCircuitBreakerMap.keys := by
    refine AList.mem_keys.1 (AList.lookup_isSome.1 ?_)
    exact Option.isSome_iff_exists.2 ⟨config, hc⟩
  exact ⟨{}, Dict.lookup_ofList_const _ hkey, CircuitBreakerState.settled_new config⟩

theorem nodup_ids_invokeLoop :
    ((g.invokeLoop call).pendingTasks.map PendingTask.id).Nodup :=
  PregelLoop.nodup_ids_withErrorHandlers call.input g.nodes g.triggerTable
    (g.invokeConfig call).2 numFields g.buildErrorHandlerMap (g.invokeConfig call).1 call.nextUuid

variable [InterruptHash] {g call} {rounds : ℕ → Round S} {n : ℕ} {t l₁ : PregelLoop S σ}
  {result : SuperstepResult S} {node : String} {config : CircuitBreakerConfig}

/-- **When no more tasks run on a half open breaker than its policy allows**, for the runs of
`invoke`. -/
theorem invoke_probesWithin_iff (hc : g.buildCircuitBreakerMap.lookup node = some config) :
    (∀ n t, (g.invokeLoop call).head rounds n = some t → ¬ t.HalfOpenAt node) ∧
      ((g.invokeLoop call).ProbesWithin rounds node config ↔
        (g.invokeLoop call).FewProbes rounds node config) :=
  PregelLoop.probesWithin_iff (g.breakersSettled_invokeLoop call) (g.nodup_ids_invokeLoop call) hc

end Invoke

end CompiledGraph

/-! ### A node that is always down -/

/-- `a` sends two tasks to `w`, which fails and has `a` as its error handler. -/
def retrying (policy : CircuitBreakerConfig) : CompiledGraph Transcript MemoryStore where
  nodes := Dict.ofList [("w", failing), ("a", ⟨fun _ _ => .done (.ok (.send
    [{ node := "w", state := Transcript.toJson {} },
      { node := "w", state := Transcript.toJson {} }]))⟩)]
  triggerTable := buildTriggerTable [.fixed START "a", .fixed "a" "w"]
  builderMetadata := Dict.ofList
    [("w", { errorHandler := some "a", circuitBreaker := some policy })]

/-- A call of its own. -/
def retryingCall : InvokeCall Transcript MemoryStore where
  input := {}
  config := {}
  store := {}
  nextUuid := 1

/-- The circuit opens after one failure, has no cooldown, and allows two probes. -/
def twoProbes : CircuitBreakerConfig :=
  { failureThreshold := 1, cooldownDuration := 0, halfOpenMaxAttempts := 2 }

theorem invoke_probesWithin_iff_retrying :
    (∀ n t, ((retrying twoProbes).invokeLoop retryingCall).head undisturbed n = some t →
        ¬ t.HalfOpenAt "w") ∧
      (((retrying twoProbes).invokeLoop retryingCall).ProbesWithin undisturbed "w" twoProbes ↔
        ((retrying twoProbes).invokeLoop retryingCall).FewProbes undisturbed "w" twoProbes) :=
  CompiledGraph.invoke_probesWithin_iff rfl

/-- When the circuit of `w` half opens, four tasks of `w` run where two probes are allowed. -/
theorem retrying_not_probesWithin :
    ¬ ((retrying twoProbes).invokeLoop retryingCall).ProbesWithin undisturbed "w" twoProbes := by
  intro h
  have hrun : (((retrying twoProbes).invokeLoop retryingCall).head undisturbed 3).map
      (fun t => (decide ((t.outside {}).tick.2 = .ok true),
        (t.outside {}).prepare.2.toOption.isSome,
        ((t.outside {}).prepare.1.tasksOf "w").length,
        ((t.outside {}).prepare.1.circuitBreakerStates.lookup "w").map
          CircuitBreakerState.state)) = some (true, true, 4, some .halfOpen) := by decide
  obtain ⟨t, ht, heq⟩ := Option.map_eq_some_iff.1 hrun
  simp only [Prod.mk.injEq, decide_eq_true_eq] at heq
  obtain ⟨htick, hok, hlen, hhalf⟩ := heq
  rcases hp : (t.outside {}).prepare with ⟨k, e | blocked⟩
  · rw [hp] at hok
    cases hok
  rw [hp] at hlen hhalf
  obtain ⟨b, hb, hb'⟩ := Option.map_eq_some_iff.1 hhalf
  have hle := h 3 t k blocked ht (PregelLoop.goesOn_of_tick htick) hp ⟨b, hb, hb'⟩
  rw [hlen] at hle
  exact absurd hle (by decide)

end Juncture
