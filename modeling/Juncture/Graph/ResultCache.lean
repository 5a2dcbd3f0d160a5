import Juncture.Graph.StopReports
import Mathlib.Data.List.Induction

/-!
# The cache of results

A graph compiled with a cache policy keeps the final states of its runs by key, and `invoke` returns
a cached state without running the graph.  A state should get into the cache only when its run has
run to completion.  But `invoke` stores the state whenever its driver has left the loop without an
error, and `tick` says `Ok(false)` as well when the run is cancelled or stops before a node; and
after a superstep that has stopped the run it looks at the pending tasks only.

* `ranToCompletion_iff` : which runs run to completion.
* `holdsCompleted_of_endsByItself` : when the cache holds the results of such runs only.
-/

namespace Juncture

section Cache

variable {S σ : Type} [State S] [InterruptHash]

namespace PregelLoop

/-- The run that `tick` ends in round `n`, at the loop `l`, has run to completion: it is done, and
its last superstep has not stopped it but counted the step. -/
structure RanToCompletion (l₀ : PregelLoop S σ) (rounds : ℕ → Round S) (n : ℕ)
    (l : PregelLoop S σ) : Prop where
  /-- It is done. -/
  done : l.status = .done
  /-- The last superstep counts. -/
  last : ∀ m l₁ result k, n = m + 1 → l₀.TurnAt rounds m l₁ result k → k.step = l₁.step + 1

/-- The condition: when the run ends in round `n`, it is not cancelled and nothing is pending; and in
the superstep before that, if there was one, no node has sent an interrupt signal and no subgraph has
reported an interrupt or a drain. -/
structure EndsByItself (l₀ : PregelLoop S σ) (rounds : ℕ → Round S) (n : ℕ) : Prop where
  /-- There is nothing left to do. -/
  before : ∀ t, l₀.head rounds n = some t → (t.outside (rounds n)).cancelled = false ∧
    (t.outside (rounds n)).pendingTasks = []
  /-- Nothing has stopped the last superstep. -/
  after : ∀ m l₁ result k, n = m + 1 → l₀.TurnAt rounds m l₁ result k → l₁.Quiet result

variable {l₀ t l l' l₁ : PregelLoop S σ} {rounds : ℕ → Round S} {n : ℕ}
  {result : SuperstepResult S}

/-- When nothing is pending afterwards, `after_tick` counts the step exactly when neither a node nor
a subgraph stops the run: there is no node left to stop after. -/
theorem counts_iff (h : l.afterTick result = (l', .ok ())) (hp : l'.pendingTasks = []) :
    l'.step = l.step + 1 ↔ l.Quiet result := by
  obtain ⟨tasks, k, -, hk, hf⟩ := afterTick_advanced h
  have hrstep : (k.reported result.bubbleUps).1.step = l.step := (k.step_reported _).trans hk.step
  -- The exits that stop the run leave the step as it is.
  have hstopped : ∀ {m : PregelLoop S σ}, m.step = l.step → m.stop = (l', .ok ()) →
      l'.step ≠ l.step + 1 := by
    intro m hm hstop
    have hs : l'.step = m.step := congrArg (fun p => p.1.step) (progress_stop hstop)
    omega
  unfold Quiet
  rw [← hk.interruptRx, ← k.reported_stopped_iff]
  obtain ⟨signals, hsig, hne, hstop⟩ | ⟨hsig, hexit⟩ := finishTick_cases hf
  · refine iff_of_false (hstopped (by exact hk.step) hstop) fun hquiet => hne ?_
    rw [hsig] at hquiet
    exact hquiet.1
  obtain ⟨hstop, hexit⟩ | ⟨hgo, hexit⟩ := hexit
  · refine iff_of_false (hstopped hrstep hexit) fun hquiet => ?_
    rw [hstop] at hquiet
    cases hquiet.2
  obtain ⟨signals, hsome, hstop⟩ | ⟨hnone, rfl⟩ := hexit
  · -- A static interrupt needs a task that comes next.
    have hpending : (k.reported result.bubbleUps).1.pendingTasks = [] := by
      rw [← hp]
      exact (congrArg (fun p => p.1.pendingTasks) (progress_stop hstop)).symm
    have hafter := ((k.reported result.bubbleUps).1.interruptAfter_isSome_iff).1
      (by rw [hsome]; rfl)
    obtain ⟨-, node, hnode, -⟩ := hafter
    rw [hpending] at hnode
    cases hnode
  · refine iff_of_true ?_ ⟨hsig, hgo⟩
    have hcount := congrArg (fun p => p.1.step) (progress_countStep (k.reported result.bubbleUps).1)
    exact hcount.trans (by rw [hrstep])

/-- **The runs that run to completion.** -/
theorem ranToCompletion_iff (h : l₀.EndsAt rounds n l .done) :
    l₀.RanToCompletion rounds n l ↔ l₀.EndsByItself rounds n := by
  obtain ⟨t, ht, hend⟩ := h
  have htick := ending_of_tick.1.1 hend
  have hdone : l.status = .done ↔ (t.outside (rounds n)).cancelled = false ∧
      (t.outside (rounds n)).pendingTasks = [] := by
    have hticks := (t.outside (rounds n)).ticks_tick
    rw [htick] at hticks
    generalize l.status = status at hticks
    cases hticks with
    | cancelled hl hc => simp [hc]
    | done hl hc hb hp => exact iff_of_true rfl ⟨hc, hp⟩
    | interrupt signals hl hc hb hp hi => exact iff_of_false (by simp) fun h => hp h.2
  -- What is pending in the end was scheduled by the last superstep.
  have hlast : (t.outside (rounds n)).pendingTasks = [] → ∀ {m l₁ result k}, n = m + 1 →
      l₀.TurnAt rounds m l₁ result k → (k.step = l₁.step + 1 ↔ l₁.Quiet result) := by
    rintro hp m l₁ result k rfl hturn
    have hk : l₀.head rounds (m + 1) = some k := head_succ_eq_some_iff.2 ⟨l₁, result, hturn⟩
    cases ht.symm.trans hk
    rw [pendingTasks_outside] at hp
    obtain ⟨-, -, -, ha⟩ := hturn
    exact counts_iff ha hp
  constructor
  · intro hran
    have hbefore := hdone.1 hran.done
    refine ⟨fun t' ht' => ?_, fun m l₁ result k hn hturn => ?_⟩
    · cases ht.symm.trans ht'
      exact hbefore
    · exact (hlast hbefore.2 hn hturn).1 (hran.last m l₁ result k hn hturn)
  · intro hself
    have hbefore := hself.before t ht
    refine ⟨hdone.2 hbefore, fun m l₁ result k hn hturn => ?_⟩
    exact (hlast hbefore.2 hn hturn).2 (hself.after m l₁ result k hn hturn)

end PregelLoop

/-! ### The cache along a sequence of calls -/

/-- What happens to the cache of a graph. -/
inductive CacheEvent (S σ : Type) [State S] where
  /-- `invoke` looks for the result of the call. -/
  | lookup (call : InvokeCall S σ)
  /-- The run of `invoke` ends in round `n`, at the loop `l`.  Other events may have happened since it
  looked for a result. -/
  | finish (call : InvokeCall S σ) (rounds : ℕ → Round S) (n : ℕ) (l : PregelLoop S σ) (e : Ending)
  /-- A `#[task]` call keeps its result in the cache of the graph. -/
  | task (key : String) (value : Json) (now : ℕ)

namespace CompiledGraph

variable (g : CompiledGraph S σ)

omit [InterruptHash] in
/-- The cache after the event. -/
def cacheStep (results : ResultStore) : CacheEvent S σ → ResultStore
  | .lookup call => (g.cachedResult { call with results }).1
  | .finish call _ _ l e => (g.invokeEnd { call with results } l e).2.2
  | .task key value now =>
    match g.cachePolicy with
    | some policy => policy.put results now key value
    | none => results

/-- The cache after a sequence of events. -/
def cacheAfter (h : List (CacheEvent S σ)) : ResultStore := h.foldl g.cacheStep ∅

/-- The event can happen: the run it speaks of ends so. -/
def Occurs : CacheEvent S σ → Prop
  | .finish call rounds n l e => (g.invokeLoop call).EndsAt rounds n l e
  | .lookup _ | .task _ _ _ => True

/-- The value is the final state of a run for the key that has run to completion. -/
def IsResult (h : List (CacheEvent S σ)) (key : String) (value : Json) : Prop :=
  ∃ call rounds n l policy, .finish call rounds n l .done ∈ h ∧
    (g.invokeLoop call).RanToCompletion rounds n l ∧ g.cacheKey call = some (policy, key) ∧
    State.toValue l.state = .ok value

/-- The cache holds final states of runs that have run to completion only, and `invoke` returns no
others. -/
structure HoldsCompleted (h : List (CacheEvent S σ)) : Prop where
  /-- What is cached under the key of an input. -/
  entries : ∀ call policy key value time, g.cacheKey call = some (policy, key) →
    (g.cacheAfter h).lookup key = some (value, time) → g.IsResult h key value
  /-- What a later call finds. -/
  hits : ∀ call policy key value, g.cacheKey call = some (policy, key) →
    (g.cachedResult { call with results := g.cacheAfter h }).2 = some value →
    g.IsResult h key value

/-- The condition on an event: a run that ends without an error ends by itself, unless its input has no
key or its final state does not serialize; and a `#[task]` result is not kept under the key of an
input. -/
def Lasting : CacheEvent S σ → Prop
  | .finish call rounds n l e => e = .done → g.cacheKey call = none ∨
      (∀ value, State.toValue l.state ≠ .ok value) ∨ (g.invokeLoop call).EndsByItself rounds n
  | .task key _ _ => ∀ call policy, g.cacheKey call ≠ some (policy, key)
  | .lookup _ => True

variable {g} {policy : ResultCachePolicy} {results : ResultStore} {now : ℕ} {key k : String}
  {value : Json} {entry : Json × ℕ} {call : InvokeCall S σ} {h : List (CacheEvent S σ)}

omit [InterruptHash]

theorem lookup_of_get (h : (policy.get results now key).1.lookup k = some entry) :
    results.lookup k = some entry := by
  unfold ResultCachePolicy.get at h
  cases hkey : results.lookup key with
  | none => simpa [hkey] using h
  | some p =>
    simp only [hkey] at h
    split_ifs at h
    · by_cases hk : k = key
      · rw [hk, AList.lookup_erase] at h
        cases h
      · rwa [AList.lookup_erase_ne hk] at h
    · exact h

theorem lookup_of_put (h : (policy.put results now key value).lookup k = some entry) :
    k = key ∧ entry.1 = value ∨ results.lookup k = some entry := by
  unfold ResultCachePolicy.put at h
  by_cases hk : k = key
  · rw [hk, AList.lookup_insert, Option.some.injEq] at h
    exact .inl ⟨hk, h ▸ rfl⟩
  · rw [AList.lookup_insert_ne hk] at h
    split_ifs at h
    · rw [AList.lookup_empty] at h
      cases h
    · exact .inr h

theorem lookup_of_cachedResult
    (h : (g.cachedResult { call with results }).1.lookup k = some entry) :
    results.lookup k = some entry := by
  unfold cachedResult at h
  split at h
  · exact lookup_of_get h
  · exact h

/-- What a call finds is in the cache. -/
theorem lookup_of_hit (hkey : g.cacheKey call = some (policy, key))
    (h : (g.cachedResult { call with results }).2 = some value) :
    ∃ time, results.lookup key = some (value, time) := by
  have hkey' : g.cacheKey { call with results } = some (policy, key) := hkey
  unfold cachedResult at h
  rw [hkey'] at h
  simp only [ResultCachePolicy.get] at h
  cases hentry : results.lookup key with
  | none => simp [hentry] at h
  | some p =>
    simp only [hentry] at h
    split_ifs at h
    cases h
    exact ⟨p.2, rfl⟩

/-- What the end of a run can add to the cache. -/
theorem lookup_of_finish {l : PregelLoop S σ} {e : Ending}
    (h : (g.invokeEnd { call with results } l e).2.2.lookup k = some entry) :
    (e = .done ∧ (∃ policy, g.cacheKey call = some (policy, k)) ∧
      State.toValue l.state = .ok entry.1) ∨ results.lookup k = some entry := by
  unfold invokeEnd at h
  by_cases he : e = .done
  · rw [if_pos he] at h
    dsimp only at h
    have hcall : g.cacheKey { call with results } = g.cacheKey call := rfl
    unfold storeResult at h
    rw [hcall] at h
    cases hkey : g.cacheKey call with
    | none =>
      simp only [hkey] at h
      exact .inr (lookup_of_cachedResult h)
    | some p =>
      cases hvalue : State.toValue l.state with
      | error err =>
        simp only [hkey, hvalue] at h
        exact .inr (lookup_of_cachedResult h)
      | ok v =>
        simp only [hkey, hvalue] at h
        obtain ⟨rfl, rfl⟩ | h := lookup_of_put h
        · exact .inl ⟨he, ⟨p.1, rfl⟩, rfl⟩
        · exact .inr (lookup_of_cachedResult h)
  · rw [if_neg he] at h
    exact .inr (lookup_of_cachedResult h)

theorem cacheAfter_snoc (ev : CacheEvent S σ) :
    g.cacheAfter (h ++ [ev]) = g.cacheStep (g.cacheAfter h) ev := by
  unfold cacheAfter
  rw [List.foldl_append]
  rfl

variable [InterruptHash]

theorem IsResult.mono {h' : List (CacheEvent S σ)} (hsub : h ⊆ h') (hr : g.IsResult h key value) :
    g.IsResult h' key value := by
  obtain ⟨call, rounds, n, l, policy, hmem, hran⟩ := hr
  exact ⟨call, rounds, n, l, policy, hsub hmem, hran⟩

/-- **When the cache holds results of completed runs only**: no run that was stopped leaves its state
there. -/
theorem holdsCompleted_of_endsByItself (hoccurs : ∀ ev ∈ h, g.Occurs ev)
    (hlasting : ∀ ev ∈ h, g.Lasting ev) : g.HoldsCompleted h := by
  have hentries : ∀ call policy key value time, g.cacheKey call = some (policy, key) →
      (g.cacheAfter h).lookup key = some (value, time) → g.IsResult h key value := by
    induction h using List.reverseRecOn with
    | nil =>
      intro call policy key value time _ hl
      cases hl
    | append_singleton h ev ih =>
      intro call policy key value time hkey hl
      have hold : (g.cacheAfter h).lookup key = some (value, time) →
          g.IsResult (h ++ [ev]) key value := by
        intro hl
        refine IsResult.mono (List.subset_append_left h [ev]) (ih ?_ ?_ call policy key value time
          hkey hl)
        · exact fun ev' hev => hoccurs ev' (List.mem_append_left _ hev)
        · exact fun ev' hev => hlasting ev' (List.mem_append_left _ hev)
      have hlast := hlasting ev (by simp)
      rw [cacheAfter_snoc] at hl
      cases ev with
      | lookup call' => exact hold (lookup_of_cachedResult hl)
      | task key' value' now =>
        unfold cacheStep at hl
        cases hp : g.cachePolicy with
        | none =>
          simp only [hp] at hl
          exact hold hl
        | some policy' =>
          simp only [hp] at hl
          obtain ⟨rfl, -⟩ | hl := lookup_of_put hl
          · exact absurd hkey (hlast call policy)
          · exact hold hl
      | finish call' rounds n l e =>
        obtain ⟨rfl, ⟨policy', hkey'⟩, hvalue⟩ | hl := lookup_of_finish hl
        · -- The state of the run is what is cached now, so the run has ended by itself.
          have hends : (g.invokeLoop call').EndsAt rounds n l .done :=
            hoccurs (.finish call' rounds n l .done) (by simp)
          obtain hnone | hnot | hself := hlast rfl
          · rw [hkey'] at hnone
            cases hnone
          · exact absurd hvalue (hnot _)
          · exact ⟨call', rounds, n, l, policy', by simp,
              (PregelLoop.ranToCompletion_iff hends).2 hself, hkey', hvalue⟩
        · exact hold hl
  refine ⟨hentries, fun call policy key value hkey hhit => ?_⟩
  obtain ⟨time, hl⟩ := lookup_of_hit hkey hhit
  exact hentries call policy key value time hkey hl

end CompiledGraph

end Cache

/-! ### Two nodes in a row, cached -/

/-- `a`, then `b`, with a cache of results by thread. -/
def cachedChain : CompiledGraph Transcript MemoryStore :=
  { chainGraph with
    cachePolicy := some { generateKey := fun _ config => config.threadId.getD "" } }

/-- The loop at the end of a run of `cachedChain`. -/
def cachedChainEnd (interruptBefore : Option (List String)) (n : ℕ) :
    Option (PregelLoop Transcript MemoryStore × Ending) :=
  ((cachedChain.invokeLoop (chainCall interruptBefore)).head undisturbed n).bind
    fun t => t.ending {}

theorem endsAt_cachedChain {interruptBefore : Option (List String)} {n : ℕ}
    {l : PregelLoop Transcript MemoryStore} {e : Ending}
    (h : cachedChainEnd interruptBefore n = some (l, e)) :
    (cachedChain.invokeLoop (chainCall interruptBefore)).EndsAt undisturbed n l e := by
  obtain ⟨t, ht, hl⟩ := Option.bind_eq_some_iff.1 h
  exact ⟨t, ht, hl⟩

/-- The loop of a run of `cachedChain` before round `n`. -/
def cachedChainHead (n : ℕ) : Option (PregelLoop Transcript MemoryStore) :=
  (cachedChain.invokeLoop (chainCall none)).head undisturbed n

/-- The run of the whole chain ends by itself, and its state is what the cache holds. -/
theorem holdsCompleted_cachedChain :
    ∃ l, (cachedChain.invokeLoop (chainCall none)).EndsAt undisturbed 2 l .done ∧
      cachedChain.HoldsCompleted [.finish (chainCall none) undisturbed 2 l .done] := by
  have hend : (cachedChainEnd none 2).map (fun p => (p.2, p.1.status)) = some (.done, .done) := rfl
  obtain ⟨⟨l, e⟩, hl, heq⟩ := Option.map_eq_some_iff.1 hend
  simp only [Prod.mk.injEq] at heq
  obtain ⟨rfl, hstatus⟩ := heq
  have hends := endsAt_cachedChain hl
  have hran : (cachedChain.invokeLoop (chainCall none)).RanToCompletion undisturbed 2 l := by
    refine ⟨hstatus, fun m l₁ result k hm hturn => ?_⟩
    obtain rfl : m = 1 := by omega
    have hk : (cachedChain.invokeLoop (chainCall none)).head undisturbed 2 = some k :=
      PregelLoop.head_succ_eq_some_iff.2 ⟨l₁, result, hturn⟩
    obtain ⟨t, ht, hsuper, -⟩ := hturn
    -- Each superstep has counted its step.
    have hone : (cachedChainHead 1).map (·.step) = some 1 := rfl
    have htwo : (cachedChainHead 2).map (·.step) = some 2 := rfl
    unfold cachedChainHead at hone htwo
    rw [ht] at hone
    rw [hk] at htwo
    have hran : l₁.step = t.step := by
      obtain ⟨_, _, _, _, _, _, _, _, _, _, _, _, rfl⟩ := PregelLoop.ran_superstep hsuper
      rfl
    simp only [Option.map_some, Option.some.injEq] at hone htwo
    omega
  refine ⟨l, hends, CompiledGraph.holdsCompleted_of_endsByItself ?_ ?_⟩
  · intro ev hev
    obtain rfl := List.mem_singleton.1 hev
    exact hends
  · intro ev hev
    obtain rfl := List.mem_singleton.1 hev
    exact fun _ => .inr (.inr ((PregelLoop.ranToCompletion_iff hends).1 hran))

/-- The run that stops before `b` leaves its state in the cache. -/
theorem cachedChain_not_holdsCompleted :
    ¬ ∀ h, (∀ ev ∈ h, cachedChain.Occurs ev) → cachedChain.HoldsCompleted h := by
  intro hclaim
  have hend : (cachedChainEnd (some ["b"]) 1).map (fun p => (p.2, p.1.status.isInterrupted,
      ((cachedChain.cacheAfter
        [.finish (chainCall (some ["b"])) undisturbed 1 p.1 .done]).lookup "t").isSome)) =
      some (.done, true, true) := rfl
  obtain ⟨⟨l, e⟩, hl, heq⟩ := Option.map_eq_some_iff.1 hend
  simp only [Prod.mk.injEq] at heq
  obtain ⟨rfl, hstatus, hcached⟩ := heq
  have hends := endsAt_cachedChain hl
  obtain ⟨⟨value, time⟩, hlookup⟩ := Option.isSome_iff_exists.1 hcached
  have hcache := hclaim [.finish (chainCall (some ["b"])) undisturbed 1 l .done] fun ev hev => by
    obtain rfl := List.mem_singleton.1 hev
    exact hends
  obtain ⟨call, rounds, n, l', policy, hmem, hran, -⟩ := hcache.entries (chainCall (some ["b"]))
    { generateKey := fun _ config => config.threadId.getD "" } "t" value time rfl hlookup
  -- The one run of this history has been interrupted.
  cases List.mem_singleton.1 hmem
  rw [hran.done] at hstatus
  cases hstatus

end Juncture
