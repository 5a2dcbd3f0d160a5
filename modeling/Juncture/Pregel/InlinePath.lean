import Juncture.Core.Transcript
import Juncture.Pregel.InterruptCalls

/-!
# The inline path against the spawned path

A superstep of one plain task is executed inline, by a second implementation that should do what
the spawned path does for that task.  It does not set the interrupt context and the other
task-local scopes, so the two differ for a node that looks at them.

`inlineAgrees_iff` says when they agree: the node is not registered, the run is already cancelled,
or the node returns the same with and without the scopes and no call of it is visible.  A call is
not visible only when it finds no resume value and the node then fails anyway, since the signals
of a failed superstep are dropped.
-/

namespace Juncture

section Paths

variable {S σ : Type} [State S] [InterruptHash]

/-- The task as a superstep of the spawned path. -/
def spawnOne (env : RunnerEnv S σ) (task : PendingTask S) (resumeValues : List (Option Json)) :
    SpawnEnv S σ :=
  { env with tasks := [task], resumeValues }

namespace Superstep

/-! ### The spawned path of one plain task -/

variable {env : SpawnEnv S σ} {task : PendingTask S} {p : NodeProg S} {store : σ}
  {nextUuid : Uuid} {cancelled : Bool} {e e' : Superstep S σ}

/-- What the task returns. -/
def oneResult (env : SpawnEnv S σ) (cancelled : Bool) (p : NodeProg S) :
    Except JunctureError (Command S) :=
  if cancelled then .error taskCancelled else (p.solo env.locals env.resumeValues 0).1

/-- How many calls it makes. -/
def oneCalls (env : SpawnEnv S σ) (cancelled : Bool) (p : NodeProg S) : ℕ :=
  if cancelled then 0 else (p.solo env.locals env.resumeValues 0).2

/-- A superstep of one task, before the collector has joined it or after. -/
structure OneTask (env : SpawnEnv S σ) (task : PendingTask S) (p : NodeProg S) (store : σ)
    (nextUuid : Uuid) (cancelled : Bool) (e : Superstep S σ) : Prop where
  alone : Alone env 0 p e
  signalled : Signalled env e
  others : ∀ j, j ≠ 0 → e.phase j = .finished
  spawnError : e.spawnError = none
  token : e.failure = none → e.cancelled = cancelled
  /-- A cancelled task does not start. -/
  notActive : cancelled = true → (e.phase 0).active = false
  /-- The task has not returned yet, or has returned what it should. -/
  returned : (e.completed = [] ∧ e.phase 0 ≠ .finished) ∨
    (e.completed = [(0, oneResult env cancelled p)] ∧ e.phase 0 = .finished ∧
      e.currentIndex = oneCalls env cancelled p)
  /-- The collector has not seen it yet, or has settled it as the inline path does. -/
  collected : (e.joined = 0 ∧ e.failure = none ∧ e.outputs = [] ∧ e.store = store) ∨
    (e.joined = 1 ∧ (e.outcome env.resumeValues).result =
      (settleInline env.toRunnerEnv task store nextUuid (oneResult env cancelled p)).result)

omit [InterruptHash] in
/-- The collector and the inline path treat the result of the task in the same way. -/
theorem outcome_collect (hplain : env.recovers task.nodeName = false) (hf : e.failure = none)
    (ho : e.outputs = []) (nextUuid : Uuid) (r : Except JunctureError (Command S)) :
    ((e.collect env task r).outcome env.resumeValues).result =
      (settleInline env.toRunnerEnv task e.store nextUuid r).result := by
  cases r with
  | error err => simp [collect, hplain, fail, outcome, settleInline]
  | ok command =>
    simp only [collect, settleInline]
    rcases persistWrites env.toRunnerEnv (successOutput task command) e.store with ⟨st, res⟩
    cases res with
    | ok u => simp [outcome, hf, ho]
    | error err => simp [outcome, fail]

omit [InterruptHash] in
/-- The task moves on inside its node. -/
theorem OneTask.of_moved (h : OneTask env task p store nextUuid cancelled e) (halone : Alone env 0 p e')
    (hsig : Signalled env e') (hphase : ∀ j, j ≠ 0 → e'.phase j = e.phase j)
    (hbefore : e.phase 0 ≠ .finished) (hafter : e'.phase 0 ≠ .finished)
    (hactive : cancelled = false) (hframe : e'.completed = e.completed ∧ e'.joined = e.joined ∧
      e'.outputs = e.outputs ∧ e'.failure = e.failure ∧ e'.store = e.store ∧
      e'.cancelled = e.cancelled ∧ e'.spawnError = e.spawnError) :
    OneTask env task p store nextUuid cancelled e' := by
  obtain ⟨hcomp, hjoin, hout, hfail, hstore, hcanc, hspawn⟩ := hframe
  exact
    { alone := halone
      signalled := hsig
      others := fun j hj => (hphase j hj).trans (h.others j hj)
      spawnError := hspawn.trans h.spawnError
      token := by rw [hfail, hcanc]; exact h.token
      notActive := fun hc => by rw [hactive] at hc; cases hc
      returned := .inl ⟨hcomp.trans (h.returned.resolve_right fun hr => hbefore hr.2.1).1, hafter⟩
      collected := by
        have hres : (e'.outcome env.resumeValues).result = (e.outcome env.resumeValues).result := by
          simp only [outcome, hfail, hout]
        rw [hjoin, hfail, hout, hstore, hres]
        exact h.collected }

omit [InterruptHash] in
/-- The task returns. -/
theorem OneTask.of_returned (h : OneTask env task p store nextUuid cancelled e) (halone : Alone env 0 p e')
    (hsig : Signalled env e') (hbefore : e.phase 0 ≠ .finished)
    (heq : e' = e.complete 0 (oneResult env cancelled p))
    (hindex : e.currentIndex = oneCalls env cancelled p) :
    OneTask env task p store nextUuid cancelled e' := by
  have hcomp := (h.returned.resolve_right fun hr => hbefore hr.2.1).1
  subst heq
  exact
    { alone := halone
      signalled := hsig
      others := fun j hj => by simp [complete_phase, hj, h.others j hj]
      spawnError := h.spawnError
      token := h.token
      notActive := fun _ => by simp [TaskPhase.active]
      returned := .inr ⟨by simp [complete, hcomp], complete_phase_self _, hindex⟩
      collected := h.collected }

theorem OneTask.move (h : OneTask env task p store nextUuid cancelled e) (htasks : env.tasks = [task])
    (hplain : env.needsSpawn task.nodeName = false) (hf : e.failure = none) (hm : Move env e e') :
    OneTask env task p store nextUuid cancelled e' := by
  -- Every spawned task but the first has finished, so a task that moves is the first.
  have hzero {i : ℕ} (hi : e.phase i ≠ .finished) : i = 0 := by
    by_contra hne
    exact hi (h.others i hne)
  have hlive (ha : (e.phase 0).active = true) : cancelled = false := by
    cases hc : cancelled with
    | false => rfl
    | true => rw [h.notActive hc] at ha; cases ha
  have halone := h.alone.move hm
  have hsig := h.signalled.move hm
  cases hm with
  | start i q hq hc =>
    obtain rfl := hzero (i := i) (by simp [hq])
    exact h.of_moved halone hsig (fun j hj => by simp [setPhase_phase, hj]) (by simp [hq]) (by simp)
      ((h.token hf).symm.trans hc) ⟨rfl, rfl, rfl, rfl, rfl, rfl, rfl⟩
  | cut i q err hq hc =>
    obtain rfl := hzero (i := i) (by rcases hq with hq | hq <;> simp [hq])
    rcases hc with ⟨hc, rfl⟩ | ⟨t, te, ht, htime, -⟩
    -- The cut comes from the token: the program has not been called.
    · have hcanc : cancelled = true := (h.token hf).symm.trans hc
      refine h.of_returned halone hsig (by rcases hq with hq | hq <;> simp [hq]) ?_ ?_
      · simp [oneResult, hcanc]
      · rcases hq with hq | hq
        · simpa [oneCalls, hcanc] using (h.alone.waiting q hq).2
        · exact absurd (h.notActive hcanc) (by simp [hq, TaskPhase.active])
    -- It comes from the time limit, which a task that is run inline has not.
    · obtain rfl : task = t := by simpa [htasks] using ht
      simp [RunnerEnv.needsSpawn, htime] at hplain
  | done i r hq =>
    obtain rfl := hzero (i := i) (by simp [hq])
    have hcanc := hlive (by simp [hq, TaskPhase.active])
    have hsolo := h.alone.running _ (.inl hq)
    refine h.of_returned halone hsig (by simp [hq]) ?_ ?_
    · simp [oneResult, hcanc, ← hsolo, NodeProg.solo]
    · simp [oneCalls, hcanc, ← hsolo, NodeProg.solo]
  | read i k hq =>
    obtain rfl := hzero (i := i) (by simp [hq])
    exact h.of_moved halone hsig (fun j hj => by simp [setPhase_phase, hj]) (by simp [hq]) (by simp)
      (hlive (by simp [hq, TaskPhase.active])) ⟨rfl, rfl, rfl, rfl, rfl, rfl, rfl⟩
  | retry i error k hq =>
    obtain rfl := hzero (i := i) (by simp [hq])
    exact h.of_moved halone hsig (fun j hj => by simp [nextAttempt, setPhase_phase, hj])
      (by simp [hq]) (by simp [nextAttempt]) (hlive (by simp [hq, TaskPhase.active]))
      ⟨rfl, rfl, rfl, rfl, rfl, rfl, rfl⟩
  | answer i payload id k value hq hv =>
    obtain rfl := hzero (i := i) (by simp [hq])
    exact h.of_moved halone hsig (fun j hj => by simp [setPhase_phase, nextIndex, hj])
      (by simp [hq]) (by simp) (hlive (by simp [hq, TaskPhase.active]))
      ⟨rfl, rfl, rfl, rfl, rfl, rfl, rfl⟩
  | raise i payload id k hq hv =>
    obtain rfl := hzero (i := i) (by simp [hq])
    exact h.of_moved halone hsig (fun j hj => by simp [setPhase_phase, nextIndex, hj])
      (by simp [hq]) (by simp) (hlive (by simp [hq, TaskPhase.active]))
      ⟨rfl, rfl, rfl, rfl, rfl, rfl, rfl⟩
  | send i signal q hq =>
    obtain rfl := hzero (i := i) (by simp [hq])
    exact h.of_moved halone hsig (fun j hj => by simp [sendInterrupt, setPhase_phase, hj])
      (by simp [hq]) (by simp [sendInterrupt]) (hlive (by simp [hq, TaskPhase.active]))
      ⟨rfl, rfl, rfl, rfl, rfl, rfl, rfl⟩
  | spawnFail err hs => rw [h.spawnError] at hs; cases hs
  | join i r t hs hc ht =>
    -- There is one result, and it is collected once.
    rcases h.returned with ⟨hcomp, -⟩ | ⟨hcomp, hfin, hindex⟩
    · simp [hcomp] at hc
    have hlt := (List.getElem?_eq_some_iff.1 hc).1
    have hj : e.joined = 0 := by simpa [hcomp] using hlt
    obtain ⟨rfl, rfl⟩ : 0 = i ∧ oneResult env cancelled p = r := by simpa [hcomp, hj] using hc
    obtain rfl : task = t := by simpa [htasks] using ht
    obtain ⟨-, -, hout, hstore⟩ := h.collected.resolve_right (by simp [hj])
    have hrec : env.recovers task.nodeName = false := by
      simp only [RunnerEnv.needsSpawn, Bool.or_eq_false_iff] at hplain
      exact hplain.1.1
    have hres := outcome_collect (e := { e with joined := e.joined + 1 }) hrec hf hout nextUuid
      (oneResult env cancelled p)
    have htok := collect_cancelled env { e with joined := e.joined + 1 } task
      (oneResult env cancelled p)
    obtain ⟨outs, st, uuid, canc, fail, heq⟩ := collect_eq env { e with joined := e.joined + 1 }
      task (oneResult env cancelled p)
    rw [heq] at hres htok halone hsig ⊢
    exact
      { alone := halone
        signalled := hsig
        others := h.others
        spawnError := h.spawnError
        token := fun hend => (htok hend).trans (h.token hf)
        notActive := h.notActive
        returned := .inr ⟨hcomp, hfin, hindex⟩
        collected := .inr ⟨by simp [hj], hstore ▸ hres⟩ }

theorem OneTask.step (h : OneTask env task p store nextUuid cancelled e) (htasks : env.tasks = [task])
    (hplain : env.needsSpawn task.nodeName = false) {c : Choice} (hc : c ≠ .cancel) :
    OneTask env task p store nextUuid cancelled (e.step env c) := by
  rcases step_move env e c with he | ⟨hf, hm⟩ | ⟨hcancel, -⟩
  · rw [he]; exact h
  · exact h.move htasks hplain hf hm
  · exact absurd hcancel hc

omit [InterruptHash] in
/-- The whole superstep of one task: it has been collected. -/
theorem OneTask.ends (h : OneTask env task p store nextUuid cancelled e)
    (hw : WellFormed env e) (hend : e.failure = none → Settled env e ∧ ∀ j, e.phase j = .finished) :
    e.joined = 1 ∧ e.currentIndex = oneCalls env cancelled p ∧
      (e.outcome env.resumeValues).result =
        (settleInline env.toRunnerEnv task store nextUuid (oneResult env cancelled p)).result := by
  have hret : e.phase 0 = .finished → e.completed = [(0, oneResult env cancelled p)] ∧
      e.currentIndex = oneCalls env cancelled p := fun hfin => by
    obtain ⟨hcomp, -, hindex⟩ := h.returned.resolve_left fun hr => hr.2 hfin
    exact ⟨hcomp, hindex⟩
  rcases h.collected with ⟨hj, hf, -⟩ | ⟨hj, hres⟩
  · obtain ⟨hset, hfin⟩ := hend hf
    have := hset.allJoined
    simp [hj, (hret (hfin 0)).1] at this
  · refine ⟨hj, ?_, hres⟩
    rcases h.returned with ⟨hcomp, -⟩ | ⟨-, -, hindex⟩
    · have := hw.joined
      simp [hj, hcomp] at this
    · exact hindex

end Superstep

open Superstep

section

variable {env : RunnerEnv S σ} {state : S} {task : PendingTask S} {store : σ} {nextUuid : Uuid}
  {cancelled : Bool} {schedule : List Choice} {rv : List (Option Json)}

omit [InterruptHash] in
theorem taskProg_eq_nodeCall (hplain : env.needsSpawn task.nodeName = false) :
    env.taskProg state task = env.nodeCall state task := by
  simp only [RunnerEnv.needsSpawn, Bool.or_eq_false_iff] at hplain
  have hretry : env.retryPolicies.lookup task.nodeName = none := by
    simpa [Dict.containsKey] using hplain.1.2
  unfold RunnerEnv.taskProg
  rw [hretry]
  cases env.nodeCall state task <;> rfl

/-- The superstep of one plain task, at its end. -/
theorem oneTask_runSpawned (rv : List (Option Json)) (store : σ) (nextUuid : Uuid)
    (cancelled : Bool) {p : NodeProg S} (hplain : env.needsSpawn task.nodeName = false)
    (hp : env.nodeCall state task = .ok p) (hcancel : .cancel ∉ schedule) :
    OneTask (spawnOne env task rv) task p store nextUuid cancelled
      (runSpawned (spawnOne env task rv) state store nextUuid cancelled schedule) := by
  have hspawn : spawnTasks env state [task] = ([p], none) := by
    simp [spawnTasks, taskProg_eq_nodeCall hplain, hp]
  have hinit : OneTask (spawnOne env task rv) task p store nextUuid cancelled
      (.init (spawnOne env task rv) state store nextUuid cancelled) :=
    { alone := alone_init
        (fun q hq => by simpa [spawnOne, hspawn, eq_comm] using hq)
        (fun j hj q hq => by simp [spawnOne, hspawn, hj] at hq)
      signalled := signalled_init ..
      others := fun j hj => by simp [Superstep.init, spawnOne, hspawn, hj]
      spawnError := by simp [Superstep.init, spawnOne, hspawn]
      token := fun _ => rfl
      notActive := fun _ => by simp [Superstep.init, spawnOne, hspawn, TaskPhase.active]
      returned := .inl ⟨rfl, by simp [Superstep.init, spawnOne, hspawn]⟩
      collected := .inl ⟨rfl, rfl, rfl, rfl⟩ }
  exact invariant_runSpawned (fun e c hc he => he.step rfl hplain fun h => hcancel (hc h)) hinit

/-- **The spawned path of one plain task**, under every schedule. -/
theorem executeSpawned_one (rv : List (Option Json)) (store : σ) (nextUuid : Uuid)
    (cancelled : Bool) {p : NodeProg S} (hplain : env.needsSpawn task.nodeName = false)
    (hp : env.nodeCall state task = .ok p) (hcancel : .cancel ∉ schedule) :
    let b := executeSpawned (spawnOne env task rv) state store nextUuid cancelled schedule
    b.result = (settleInline env task store nextUuid
        (oneResult (spawnOne env task rv) cancelled p)).result ∧
      b.delivered = (List.range (oneCalls (spawnOne env task rv) cancelled p)).filterMap
        (getResumeValue rv) ∧
      (b.signals = [] ↔ (∃ err, b.result = .error err) ∨
        ∀ k < oneCalls (spawnOne env task rv) cancelled p, getResumeValue rv k ≠ none) := by
  have hone := oneTask_runSpawned rv store nextUuid cancelled hplain hp hcancel
  obtain ⟨-, hindex, hres⟩ := hone.ends (wellFormed_runSpawned ..) runSpawned_ends
  refine ⟨hres, ?_, ?_⟩
  · simp only [executeSpawned, outcome, delivered, hone.alone.calls, hindex, List.filterMap_map]
    rfl
  · have hcalls := hone.alone.calls
    rw [hindex] at hcalls
    simp only [executeSpawned, outcome]
    cases hf : (runSpawned (spawnOne env task rv) state store nextUuid cancelled schedule).failure with
    | some err => simp
    | none =>
      have hfin := (runSpawned_ends hf).2
      simp only [Option.isSome_none, Bool.false_eq_true, if_false, reduceCtorEq, exists_false,
        false_or]
      constructor
      · intro hnil k hk hv
        have hmem : { task := 0, ordinal := k, index := k } ∈ (runSpawned (spawnOne env task rv)
            state store nextUuid cancelled schedule).calls := by
          rw [hcalls]; exact List.mem_map_of_mem (List.mem_range.2 hk)
        rcases hone.signalled.sent _ hmem hv with ⟨s, hs, -⟩ | ⟨_, _, hsend, -⟩
        · simp [hnil] at hs
        · rw [hfin] at hsend; cases hsend
      · intro hall
        refine List.eq_nil_iff_forall_not_mem.2 fun s hs => ?_
        obtain ⟨c, hc, -, hv⟩ := hone.signalled.call s hs
        rw [hcalls] at hc
        obtain ⟨k, hk, rfl⟩ := List.mem_map.1 hc
        exact hall k (List.mem_range.1 hk) hv

end

end Paths

/-- A graph with one node, which asks for an approval and needs the answer. -/
def asking : RunnerEnv Transcript Unit where
  nodes := Dict.ofList [("ask", ⟨fun _ _ => .interruptTry (.str "proceed?") (some "approval") fun _ =>
    .done (.ok (.ofUpdate (Transcript.note 1)))⟩)]
  config := {}
  checkpointer := none
  errorHandlerMap := ∅
  retryPolicies := ∅
  timeoutPolicies := ∅
  fallbackMap := ∅

end Juncture
