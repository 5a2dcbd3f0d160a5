import Juncture.Core.MemorySaver
import Juncture.Graph.Compiled
import Juncture.Pregel.Halting
import Juncture.Pregel.Rerun

/-!
# Interrupt and resume

A run that stops at an interrupt leaves a checkpoint behind, and `resume` builds a new loop from it.
The checkpoint of an interrupt keeps no pending tasks and `resume` reads neither the tasks nor the
step of any checkpoint: the new loop starts at the entry of the graph.

* `resumesStopped_iff` : the resumed run goes on where the stopped one was only if that is the entry
  of the graph, at step `0`.
-/

namespace Juncture

variable {S σ : Type} [State S]

/-- A run that an interrupt stops at `l`, next to the same run without the interrupt, which has
executed the same `n` supersteps when it is at `u`. -/
inductive PregelLoop.Interrupted [InterruptHash] (l₀ u₀ : PregelLoop S σ)
    (rounds rounds' : ℕ → Round S) : ℕ → PregelLoop S σ → PregelLoop S σ → Prop
  | before {n : ℕ} {k l u : PregelLoop S σ} (hrounds : ∀ m < n, rounds m = rounds' m)
    (hn : l₀.Unhalted rounds n) (hk : l₀.head rounds n = some k)
    (hl : (k.outside (rounds n)).tick = (l, .ok false)) (hint : l.status.isInterrupted = true)
    (hu : u₀.head rounds' n = some u) : Interrupted l₀ u₀ rounds rounds' n l u
  | after {n : ℕ} {l u : PregelLoop S σ} (hrounds : ∀ m < n, rounds m = rounds' m)
    (hround : (rounds n).silent = (rounds' n).silent) (hn : l₀.Unhalted rounds n)
    (hl : l₀.head rounds (n + 1) = some l) (hint : l.status.isInterrupted = true)
    (hu : u₀.head rounds' (n + 1) = some u) : Interrupted l₀ u₀ rounds rounds' (n + 1) l u

namespace CompiledGraph

variable (g : CompiledGraph S σ)

/-- The checkpointer finds, for the call, the last checkpoint that the stopped run wrote. -/
def FindsLast (l : PregelLoop S σ) (call : ResumeCall σ) : Prop :=
  ∃ cp store found, g.checkpointer = some cp ∧
    cp.getTuple call.store call.config = (store, .ok found) ∧
    found.map (fun t => (t.checkpoint, t.metadata)) = l.written.getLast?

/-- The call is accepted, and the new loop has the tasks that were pending when the run stopped,
the saved state and the saved step. -/
def ResumesStopped (l : PregelLoop S σ) (call : ResumeCall σ) : Prop :=
  ∃ store r saved, g.resume call = (store, .ok r) ∧ l.written.getLast? = some saved ∧
    SameTasks r.pendingTasks l.pendingTasks ∧
    deserializeWithMigration saved.1 = .ok r.state ∧ (r.step : ℤ) = saved.2.step

/-- Interrupt and resume lead to the state in which the run without the interrupt completes, for an
interrupt that changes no state. -/
def SameEnd [InterruptHash] (l : PregelLoop S σ) (call : ResumeCall σ) : Prop :=
  ∀ (input : S) (config config' : RunnableConfig) (store store' : σ) (nextUuid nextUuid' : Uuid)
    (rounds rounds' : ℕ → Round S) (n : ℕ) (u : PregelLoop S σ),
    config.core = config'.core → call.config.core = config.core →
    (g.checkpointedLoop input config store nextUuid).Interrupted
      (g.checkpointedLoop input config' store' nextUuid') rounds rounds' n l u →
    u.cancelled = false →
    (∀ saved, l.written.getLast? = some saved → deserializeWithMigration saved.1 = .ok u.state) →
    ∀ (store'' : σ) (r : PregelLoop S σ) (s s' : S), g.resume call = (store'', .ok r) →
      r.CompletesIn (fun m => rounds' (n + m)) s →
      (g.checkpointedLoop input config' store' nextUuid').CompletesIn rounds' s' → s = s'

/-- The run stopped in front of the entry of the graph, with the checkpoint of an interrupt at step
`0` that reads back. -/
def StoppedAtEntry (l : PregelLoop S σ) : Prop :=
  ∃ saved node s, l.written.getLast? = some saved ∧ saved.2.source = .interrupt node ∧
    deserializeWithMigration saved.1 = .ok (s : S) ∧ saved.2.step = 0 ∧
    SameTasks (PregelLoop.computeInitialTasks 0 g.triggerTable) l.pendingTasks

/-- What the checkpointed loops of the graph are set up with. -/
def setup (config : RunnableConfig) : Setup S where
  nodes := g.nodes
  nodeRegistration := Dict.ofList g.nodes.keys.zipIdx
  triggerTable := g.triggerTable
  triggerToNodes := .fromTriggerTable g.triggerTable
  errorHandlerMap := g.buildErrorHandlerMap
  retryPolicies := g.buildRetryPolicyMap
  timeoutPolicies := g.buildTimeoutPolicyMap
  circuitBreakerConfigs := ∅
  fallbackMap := ∅
  config := config.core

variable {g} {l : PregelLoop S σ} {call : ResumeCall σ}

omit [State S] in
theorem sameTasks_computeInitialTasks (base base' : Uuid) (table : TriggerTable S) :
    SameTasks (PregelLoop.computeInitialTasks base table)
      (PregelLoop.computeInitialTasks base' table) := by
  unfold SameTasks PregelLoop.computeInitialTasks
  rw [map_anon_pullTasks, map_anon_pullTasks]

/-- A resumed loop is the loop of a new run, from the state that was saved. -/
theorem resume_eq_ok_iff (hfind : g.FindsLast l call) {store : σ} {r : PregelLoop S σ} :
    g.resume call = (store, .ok r) ↔
      ∃ cp saved node s, g.checkpointer = some cp ∧
        store = (cp.getTuple call.store call.config).1 ∧ l.written.getLast? = some saved ∧
        saved.2.source = .interrupt node ∧ deserializeWithMigration saved.1 = .ok s ∧
        r = g.checkpointedLoop s
          { g.effectiveConfig call.config with resumeValue := some call.value } store
          call.nextUuid := by
  obtain ⟨cp, store', found, hcp, hget, hlast⟩ := hfind
  unfold resume
  simp only [hcp, hget]
  cases found with
  -- Nothing is saved: `resume` fails, and nothing was written.
  | none =>
    constructor
    · intro h
      cases h
    · rintro ⟨_, saved, _, _, _, _, hsaved, -⟩
      rw [← hlast] at hsaved
      cases hsaved
  | some tuple =>
    obtain ⟨config, checkpoint, metadata, writes, parent⟩ := tuple
    cases hsource : metadata.source with
    | interrupt node =>
      simp only [hsource]
      cases hde : (deserializeWithMigration checkpoint : Except JunctureError S) with
      | error e =>
        constructor
        · intro h
          cases h
        · rintro ⟨_, saved, _, s, _, _, hsaved, -, hs, -⟩
          rw [← hlast] at hsaved
          cases hsaved
          rw [hde] at hs
          cases hs
      | ok s =>
        constructor
        · intro h
          cases h
          exact ⟨cp, _, node, s, rfl, by rw [hget], hlast.symm, hsource, hde, rfl⟩
        · rintro ⟨cp', saved, node', s', hcp', rfl, hsaved, -, hs, rfl⟩
          rw [← hlast] at hsaved
          cases hsaved
          rw [hde] at hs
          cases hs
          cases hcp'
          rw [hget]
    -- The last checkpoint was not left by an interrupt.
    | _ =>
      simp only [hsource]
      constructor
      · intro h
        cases h
      · rintro ⟨_, saved, _, _, _, _, hsaved, hs, -⟩
        rw [← hlast] at hsaved
        cases hsaved
        rw [hsource] at hs
        cases hs

/-- **Where a resumed run starts**: at the entry of the graph, at step `0`. -/
theorem resumesStopped_iff (hfind : g.FindsLast l call) :
    g.ResumesStopped l call ↔ g.StoppedAtEntry l := by
  constructor
  · rintro ⟨store, r, saved, hr, hsaved, htasks, hstate, hstep⟩
    obtain ⟨cp, saved', node, s, -, -, hsaved', hsource, -, rfl⟩ := (resume_eq_ok_iff hfind).1 hr
    rw [hsaved] at hsaved'
    cases hsaved'
    exact ⟨saved, node, _, hsaved, hsource, hstate, hstep.symm,
      (sameTasks_computeInitialTasks _ _ _).trans htasks⟩
  · rintro ⟨saved, node, s, hsaved, hsource, hstate, hstep, htasks⟩
    obtain ⟨cp, store, found, hcp, hget, hlast⟩ := id hfind
    refine ⟨_, _, saved, (resume_eq_ok_iff hfind).2 ⟨cp, saved, node, s, hcp, rfl, hsaved, hsource,
      hstate, rfl⟩, hsaved, ?_, hstate, hstep.symm⟩
    exact (sameTasks_computeInitialTasks _ _ _).trans htasks

variable [InterruptHash]

/-- The tasks that are pending at the interrupt are those of the run without it. -/
theorem sameTasks_of_interrupted {l₀ u₀ : PregelLoop S σ} {rounds rounds' : ℕ → Round S}
    {n : ℕ} {l u : PregelLoop S σ} (h : l₀.Interrupted u₀ rounds rounds' n l u)
    (hview : l₀.view = u₀.view) (hplain : l₀.setup.Plain) (hu₀ : u₀.Unhalted rounds' n) :
    SameTasks l.pendingTasks u.pendingTasks := by
  cases h with
  | before hrounds hn hk hl hint hu =>
    rename_i k
    obtain ⟨hview', -⟩ := PregelLoop.head_of_view hview hplain hrounds hk hu hn hu₀
    have hcourse := (k.outside (rounds n)).course_tick
    rw [hl] at hcourse
    rw [show l.pendingTasks = _ from congrArg PregelLoop.Course.pendingTasks hcourse]
    show SameTasks (k.outside (rounds n)).pendingTasks _
    rw [PregelLoop.pendingTasks_outside]
    exact PregelLoop.tasks_of_view hview'
  | after hrounds hround hn hl hint hu =>
    obtain ⟨k, hk, hl⟩ := Machine.trace_succ_eq_some_iff.1 hl
    obtain ⟨y, hy, hu⟩ := Machine.trace_succ_eq_some_iff.1 hu
    obtain ⟨hview', hset⟩ := PregelLoop.head_of_view hview hplain hrounds hk hy hn
      fun m hm => hu₀ m (hm.trans (Nat.le_succ _))
    exact PregelLoop.tasks_of_turn hround hview' (hset ▸ hplain) hl hu

/-- A run that an interrupt stops has something to execute, at its start or where it stops. -/
theorem pending_of_interrupted {l₀ u₀ : PregelLoop S σ} {rounds rounds' : ℕ → Round S} {n : ℕ}
    {l u : PregelLoop S σ} (h : l₀.Interrupted u₀ rounds rounds' n l u) :
    l₀.pendingTasks ≠ [] ∨ l.pendingTasks ≠ [] := by
  cases h with
  | before hrounds hn hk hl hint hu =>
    rename_i k
    have hcourse := (k.outside (rounds n)).course_tick
    have ht := (k.outside (rounds n)).ticks_tick
    rw [hl] at hcourse ht
    refine .inr (ne_of_eq_of_ne (congrArg PregelLoop.Course.pendingTasks hcourse) ?_)
    generalize hstatus : l.status = status at ht hint
    cases ht with
    | interrupt signals _ _ _ hp _ => exact hp
    | cancelled => cases hint
    | done => cases hint
  | after hrounds hround hn hl hint hu =>
    have hgo := PregelLoop.goesOn_of_head Machine.trace_zero hl (Nat.succ_pos _)
    exact .inl (by simpa using hgo.pending)

theorem head_of_interrupted {l₀ u₀ : PregelLoop S σ} {rounds rounds' : ℕ → Round S} {n : ℕ}
    {l u : PregelLoop S σ} (h : l₀.Interrupted u₀ rounds rounds' n l u) :
    u₀.head rounds' n = some u := by
  cases h with
  | before _ _ _ _ _ hu => exact hu
  | after _ _ _ _ _ hu => exact hu

/-- **Where the run stopped at the entry, nothing is lost.** -/
theorem sameEnd_of_stoppedAtEntry (hplain : ∀ config, (g.setup config).Plain)
    (hfind : g.FindsLast l call) (h : g.StoppedAtEntry l) : g.SameEnd l call := by
  intro input config config' store store' nextUuid nextUuid' rounds rounds' n u hcore hcall hint
    hcancel hsaved store'' r s s' hr hrs hus
  obtain ⟨m, y, y', hy, hym, hyt, hyi, rfl⟩ := hus
  have hu := head_of_interrupted hint
  -- the run without the interrupt does not end before the interrupt
  have hnm : n ≤ m := by
    by_contra hlt
    exact PregelLoop.not_goesOn_of_view rfl hyt hyi
      (PregelLoop.goesOn_of_head hy hu (by omega))
  have hun : (g.checkpointedLoop input config' store' nextUuid').Unhalted rounds' n :=
    fun k hk => hym k (hk.trans hnm)
  have hview₀ : (g.checkpointedLoop input config store nextUuid).view =
      (g.checkpointedLoop input config' store' nextUuid').view := by
    show View.mk _ _ _ _ _ _ (g.setup config) = View.mk _ _ _ _ _ _ (g.setup config')
    unfold setup
    rw [hcore]
    exact congrArg (fun ts => View.mk input ts .running false false none _)
      (sameTasks_computeInitialTasks _ _ _)
  have htasks := sameTasks_of_interrupted hint hview₀ (hplain config) hun
  have hplain' : (g.checkpointedLoop input config' store' nextUuid').setup.Plain := hplain config'
  obtain ⟨-, hset⟩ := PregelLoop.head_of_view rfl hplain' (fun _ _ => rfl) hu hu hun hun
  have hfresh : u.Fresh := PregelLoop.Fresh.head ⟨rfl, rfl, fun _ => rfl⟩ hplain' hu hun
  -- the resumed loop looks like the one that was not interrupted
  obtain ⟨saved, node, s₀, hlast, hsource, hstate, -, hentry⟩ := h
  obtain ⟨cp, saved', node', s₁, -, -, hlast', -, hstate', rfl⟩ := (resume_eq_ok_iff hfind).1 hr
  rw [hlast] at hlast'
  cases hlast'
  have hs₁ : s₁ = u.state := by
    rw [hsaved saved hlast] at hstate'
    cases hstate'
    rfl
  have htasks' := hentry.trans htasks
  have hpending : u.pendingTasks ≠ [] := by
    have hempty : ∀ {ts ts' : List (PendingTask S)}, SameTasks ts ts' → ts' = [] → ts = [] := by
      rintro ts _ hts rfl
      exact List.map_eq_nil_iff.1 hts
    intro hu
    have hentry' := hempty htasks' hu
    obtain hp | hp := pending_of_interrupted hint
    · exact hp (hempty (sameTasks_computeInitialTasks _ _ _) hentry')
    · exact hp (hempty htasks hu)
  have hview : (g.checkpointedLoop s₁
      { g.effectiveConfig call.config with resumeValue := some call.value } store''
      call.nextUuid).view = u.view := by
    show View.mk _ _ _ _ _ _ (g.setup call.config) = View.mk _ _ _ _ _ _ u.setup
    rw [hset, hs₁, hfresh.status, hcancel, hfresh.open_ hpending, hfresh.drained,
      show u.pendingTasks.map PendingTask.anon = _ from
        (htasks'.symm.trans (sameTasks_computeInitialTasks _ _ _))]
    unfold setup
    rw [hcall, hcore]
    rfl
  refine PregelLoop.finalState_eq hview (hplain _) hrs ⟨m - n, y, y', ?_, ?_, ?_, hyi, rfl⟩
  · rw [← Nat.add_sub_cancel' hnm] at hy
    exact (Machine.trace_add hu _).symm.trans hy
  · intro k hk z hz
    exact hym (n + k) (by omega) z ((Machine.trace_add hu k).trans hz)
  · show (y.outside (rounds' (n + (m - n)))).tick = _
    rwa [Nat.add_sub_cancel' hnm]

/-- **Resuming goes on where the run stopped if and only if it stopped at the entry of the graph**;
and there, where the interrupt and the resume value are nothing the nodes see, the run ends as it
would have ended without them. -/
theorem resumesRun_iff (hfind : g.FindsLast l call) :
    (g.ResumesStopped l call ↔ g.StoppedAtEntry l) ∧
      ((∀ config, (g.setup config).Plain) →
        (g.ResumesStopped l call ∧ g.SameEnd l call ↔ g.StoppedAtEntry l)) := by
  have hiff := resumesStopped_iff hfind
  refine ⟨hiff, fun hplain => ⟨fun h => hiff.1 h.1, fun h => ⟨hiff.2 h, ?_⟩⟩⟩
  exact sameEnd_of_stoppedAtEntry hplain hfind h

end CompiledGraph

/-! ### Small graphs -/

/-- A graph over `Transcript` with the nodes `a` and `b` that keeps its checkpoints in memory. -/
def smallGraph (edges : List (Edge Transcript)) : CompiledGraph Transcript MemoryStore where
  nodes := Dict.ofList [("b", appending 2), ("a", appending 1)]
  triggerTable := buildTriggerTable edges
  checkpointer := some memorySaver

/-- A run of the graph on its own thread.  The saver files writes only under a checkpoint, so the
caller names one. -/
def smallRun (edges : List (Edge Transcript)) (config : RunnableConfig) :
    PregelLoop Transcript MemoryStore :=
  (smallGraph edges).checkpointedLoop {} 
    { config with threadId := some "t", checkpointId := some 0 } {} 1

/-- The run after its first superstep. -/
def firstStop (edges : List (Edge Transcript)) (config : RunnableConfig) :
    PregelLoop Transcript MemoryStore :=
  ((smallRun edges config).head undisturbed 1).getD (smallRun edges config)

/-- A resume of the thread after it. -/
def resumeFirst (edges : List (Edge Transcript)) (config : RunnableConfig) :
    CompiledGraph.ResumeCall MemoryStore where
  config := { threadId := some "t" }
  value := .single .null
  store := (firstStop edges config).store
  nextUuid := 100

/-- `a`, then `b`. -/
def chain : List (Edge Transcript) := [.fixed START "a", .fixed "a" "b"]

/-- `a` over and over. -/
def cycle : List (Edge Transcript) := [.fixed START "a", .fixed "a" "a"]

/-- A run stops in front of `b`, and its resume starts again with `a`. -/
theorem chain_not_resumesStopped :
    (smallGraph chain).FindsLast (firstStop chain { interruptAfter := some ["b"] })
        (resumeFirst chain { interruptAfter := some ["b"] }) ∧
      (firstStop chain { interruptAfter := some ["b"] }).status.isInterrupted = true ∧
      ¬ (smallGraph chain).ResumesStopped (firstStop chain { interruptAfter := some ["b"] })
        (resumeFirst chain { interruptAfter := some ["b"] }) := by
  have hfind : (smallGraph chain).FindsLast (firstStop chain { interruptAfter := some ["b"] })
      (resumeFirst chain { interruptAfter := some ["b"] }) := ⟨memorySaver, _, _, rfl, rfl, rfl⟩
  refine ⟨hfind, by decide, fun h => ?_⟩
  obtain ⟨-, -, -, -, -, -, -, htasks⟩ := (CompiledGraph.resumesStopped_iff hfind).1 h
  have hnames := congrArg (List.map PendingTask.nodeName) htasks
  revert hnames
  decide

/-- A run stops in front of `a`, the entry, and its resume goes on there. -/
theorem resumesRun_iff_cycle :
    (smallGraph cycle).ResumesStopped (firstStop cycle { interruptAfter := some ["a"] })
      (resumeFirst cycle { interruptAfter := some ["a"] }) := by
  have hfind : (smallGraph cycle).FindsLast (firstStop cycle { interruptAfter := some ["a"] })
      (resumeFirst cycle { interruptAfter := some ["a"] }) := ⟨memorySaver, _, _, rfl, rfl, rfl⟩
  exact (CompiledGraph.resumesRun_iff hfind).1.2 ⟨_, _, _, rfl, rfl, rfl, rfl, rfl⟩

end Juncture
