import Juncture.Graph.Charts
import Juncture.Pregel.MergeOrder
import Mathlib.Data.List.Induction

/-!
# Parallel graphs are determinate

The tasks of a superstep run beside each other, and a schedule says who moves when.  In a graph whose
nodes make no `interrupt!()` call and do not send, it decides nothing.

* `supersteps` : the bulk-synchronous program of a graph, which knows no schedule.
* `superstep_perm` : the order in which the tasks complete does not show.
* `yields_supersteps` : a call returns what comes of the program, whatever the schedules are.
-/

namespace Juncture

open FlowChart

variable {S σ : Type} [State S]

/-- What a map built from pairs looks up is one of the pairs. -/
theorem Dict.exists_lookup_ofList {α : Type} {xs : List (String × α)} {k : String}
    (h : k ∈ xs.map Prod.fst) : ∃ a, (k, a) ∈ xs ∧ (Dict.ofList xs).lookup k = some a := by
  induction xs using List.reverseRecOn with
  | nil => cases h
  | append_singleton xs p ih =>
    have hlast : Dict.ofList (xs ++ [p]) = (Dict.ofList xs).insert p.1 p.2 := by
      simp only [Dict.ofList, List.foldl_append, List.foldl_cons, List.foldl_nil]
    rw [hlast]
    by_cases hk : k = p.1
    · subst hk
      exact ⟨p.2, List.mem_append_right _ List.mem_cons_self, AList.lookup_insert _⟩
    · rw [List.map_append, List.mem_append] at h
      obtain ⟨a, ha, hlookup⟩ := ih (h.resolve_right fun hmem => hk (List.mem_singleton.1 hmem))
      exact ⟨a, List.mem_append_left _ ha, (AList.lookup_insert_ne hk).trans hlookup⟩

/-- A registered node has its position for an index. -/
theorem exists_registration {ks : List String} {x : String} (hx : x ∈ ks) :
    ∃ i, (Dict.ofList ks.zipIdx).lookup x = some i ∧ ks[i]? = some x := by
  rw [← List.zipIdx_map_fst 0 ks] at hx
  obtain ⟨i, hi, hlookup⟩ := Dict.exists_lookup_ofList hx
  exact ⟨i, hlookup, List.mk_mem_zipIdx_iff_getElem?.1 hi⟩

/-- Outputs with distinct keys are merged in an order of their own. -/
theorem merged_perm {nodeRegistration : Dict ℕ} {state : S} {os os' : List (TaskOutput S)}
    {p : S × FieldsChanged} (h : os'.Perm os) (hkeys : (os.map (outputKey nodeRegistration)).Nodup)
    (hp : merged nodeRegistration state os = .ok p) : merged nodeRegistration state os' = .ok p := by
  have hupdates : mergedUpdates nodeRegistration os = mergedUpdates nodeRegistration os' :=
    KeyedMerge.filterMap_sortByKey_eq_of_perm (fun o : TaskOutput S => o.command.update) h.symm
      (List.Nodup.sublist (List.filter_sublist.map _) hkeys)
  unfold merged at hp ⊢
  cases hconflicts : checkReplaceConflicts os with
  | error e =>
    rw [hconflicts] at hp
    cases hp
  | ok _ =>
    rw [hconflicts] at hp
    rw [(checkReplaceConflicts_perm h).2 hconflicts, ← hupdates]
    exact hp

namespace CompiledGraph

/-- The bulk-synchronous program of a graph: in each superstep the nodes are called one after the
other. -/
def supersteps (g : CompiledGraph S σ) (config : RunnableConfig) :
    Chart (List String) (FlowStore S) JunctureError := fun names store =>
  (g.superstep config names store).map fun p => (p.1, if p.2.isEmpty then none else some p.2)

/-- The nodes of the graph make no `interrupt!()` call and do not send, and nothing is wrapped around
them. -/
structure Synchronous (g : CompiledGraph S σ) : Prop where
  mute : ∀ name node, g.nodes.lookup name = some node → ∀ state config, (node.call state config).Mute
  sends : ∀ config alone state name command, g.returns config alone state name = .ok command →
    ∀ targets, command.goto ≠ .send targets
  unwrapped : g.Unwrapped
  entries : g.entries ≠ []

variable {g : CompiledGraph S σ} {config : RunnableConfig}

/-- The keys of the outputs of distinct nodes are distinct. -/
theorem nodup_keys {order : List String} {state : S} {os : List (TaskOutput S)}
    (hnodup : order.Nodup) (h : g.outputs config order state = .ok os) :
    (os.map (outputKey (.ofList g.nodes.keys.zipIdx))).Nodup := by
  have hrel := ExceptFold.mapM_eq_ok_iff.1 h
  have hnames : os.map TaskOutput.nodeName = order := by
    clear h hnodup
    generalize (order.length == 1) = alone at hrel
    induction hrel with
    | nil => rfl
    | cons hco _ ih =>
      obtain ⟨command, -, rfl⟩ := ExceptFold.map_eq_ok_iff.1 hco
      rw [List.map_cons, ih]
      rfl
  refine List.Nodup.map_on ?_ (List.Nodup.of_map TaskOutput.nodeName (hnames.symm ▸ hnodup))
  intro o ho o' ho' hkey
  obtain ⟨node, hnode, hreturn⟩ := ExceptFold.mem_of_mapM_eq_ok h ho
  obtain ⟨node', hnode', hreturn'⟩ := ExceptFold.mem_of_mapM_eq_ok h ho'
  obtain ⟨command, hcommand, rfl⟩ := ExceptFold.map_eq_ok_iff.1 hreturn
  obtain ⟨command', hcommand', rfl⟩ := ExceptFold.map_eq_ok_iff.1 hreturn'
  have hregistered : ∀ {alone node command}, g.returns config alone state node = .ok command →
      node ∈ g.nodes.keys := by
    intro alone node command hret
    unfold returns at hret
    cases hlookup : g.nodes.lookup node with
    | none =>
      rw [hlookup] at hret
      cases hret
    | some n => exact AList.mem_keys.1 (AList.lookup_isSome.1 (by rw [hlookup]; rfl))
  obtain ⟨i, hi, hx⟩ := exists_registration (hregistered hcommand)
  obtain ⟨i', hi', hx'⟩ := exists_registration (hregistered hcommand')
  simp only [outputKey, successOutput, PendingTask.pull, triggerKey, hi, hi', Option.getD_some,
    MergeKey.pull.injEq] at hkey
  obtain rfl : node = node' := by
    rw [hkey] at hx
    exact Option.some.inj (hx.symm.trans hx')
  cases hcommand.symm.trans hcommand'
  rfl

/-- Where control goes does not depend on the order of the outputs. -/
theorem targets_perm {os os' : List (TaskOutput S)} {state : S} {next : List String}
    (h : os'.Perm os) (hsends : ∀ o ∈ os, ∀ ts, o.command.goto ≠ .send ts)
    (hnext : g.targets os state = .ok next) :
    next.Nodup ∧ ∃ next', g.targets os' state = .ok next' ∧ next'.Perm next := by
  obtain ⟨tasks, htasks, rfl⟩ := ExceptFold.map_eq_ok_iff.1 hnext
  obtain ⟨tasks', htasks'⟩ := computeNextTasks_ok_iff.2 fun o ho =>
    (computeNextTasks_ok_iff.1 ⟨tasks, htasks⟩) o (h.mem_iff.1 ho)
  have hnodup := (pulls_computeNextTasks hsends htasks).2
  have hnodup' := (pulls_computeNextTasks (fun o ho => hsends o (h.mem_iff.1 ho)) htasks').2
  refine ⟨hnodup, _, ExceptFold.map_eq_ok_iff.2 ⟨tasks', htasks', rfl⟩, ?_⟩
  rw [List.perm_ext_iff_of_nodup hnodup' hnodup]
  intro n
  rw [List.mem_map, List.mem_map, mem_computeNextTasks_iff htasks', mem_computeNextTasks_iff htasks]
  simp only [h.mem_iff]

/-- **The order of completion** does not show. -/
theorem superstep_perm (hsync : g.Synchronous) {order order' : List String} (h : order'.Perm order)
    (hnodup : order.Nodup) {store store' : FlowStore S} {next : List String}
    (hstep : g.superstep config order store = .ok (store', next)) :
    next.Nodup ∧ ∃ next', g.superstep config order' store = .ok (store', next') ∧
      next'.Perm next := by
  obtain ⟨os, hos, hconclude⟩ := ExceptFold.bind_eq_ok_iff.1 hstep
  obtain ⟨⟨state, changed⟩, hwrite, hrest⟩ := ExceptFold.bind_eq_ok_iff.1 hconclude
  obtain ⟨⟨state₁, changed₁⟩, hmerged, hsize⟩ := ExceptFold.bind_eq_ok_iff.1 hwrite
  obtain ⟨next₁, hnext, hlast⟩ := ExceptFold.bind_eq_ok_iff.1 hrest
  obtain ⟨os', hos', hperm⟩ := ExceptFold.mapM_perm h hos
  have houtputs : g.outputs config order' store.state = .ok os' := by
    unfold outputs
    rw [h.length_eq]
    exact hos'
  have hsends : ∀ o ∈ os, ∀ ts, o.command.goto ≠ .send ts := by
    intro o ho
    obtain ⟨node, -, hreturn⟩ := ExceptFold.mem_of_mapM_eq_ok hos ho
    obtain ⟨command, hcommand, rfl⟩ := ExceptFold.map_eq_ok_iff.1 hreturn
    exact hsync.sends _ _ _ _ command hcommand
  have hmerged' := merged_perm hperm (nodup_keys hnodup hos) hmerged
  obtain ⟨hnodup', next', hnext', hperm'⟩ := targets_perm hperm hsends hnext
  cases hlast
  refine ⟨hnodup', next', ?_, hperm'⟩
  refine ExceptFold.bind_eq_ok_iff.2 ⟨os', houtputs, ?_⟩
  refine ExceptFold.bind_eq_ok_iff.2 ⟨(state, changed), ?_, ?_⟩
  · exact ExceptFold.bind_eq_ok_iff.2 ⟨_, hmerged', hsize⟩
  · exact ExceptFold.bind_eq_ok_iff.2 ⟨next', hnext', rfl⟩

/-- **The program of a graph** goes where its supersteps go, under all schedules. -/
theorem Synchronous.charts (hsync : g.Synchronous) {rounds : ℕ → Round S}
    (hcancel : ∀ n, .cancel ∉ (rounds n).schedule) :
    g.Charts config rounds (g.supersteps config)
      (fun names names' => names'.Perm names ∧ names.Nodup ∧ names ≠ []) (fun _ _ => True) where
  nonempty := by
    rintro names names' ⟨hperm, -, hne⟩ rfl
    exact hne hperm.symm.eq_nil
  orderly := by
    rintro names names' - n state
    exact ⟨.inr ⟨hcancel n, fun node _ n hn => hsync.mute node n hn _ _⟩,
      fun node _ command hreturn => hsync.sends _ _ _ _ command hreturn⟩
  block := by
    rintro names names' ⟨hperm, hnodup, -⟩ order horder store
    have hall : order.Perm names := horder.trans hperm
    unfold supersteps
    rcases hstep : g.superstep config names store with e | ⟨store', next⟩
    · rcases hstep' : g.superstep config order store with e' | ⟨store'', next'⟩
      · exact .fails trivial
      · obtain ⟨-, _, hback, -⟩ :=
          superstep_perm hsync hall.symm (hall.nodup_iff.2 hnodup) hstep'
        cases hstep.symm.trans hback
    · obtain ⟨hnext, next', hstep', hperm'⟩ := superstep_perm hsync hall hnodup hstep
      rw [hstep']
      cases next with
      | nil =>
        obtain rfl := hperm'.eq_nil
        exact .halts store'
      | cons node next => exact .goes store' ⟨hperm', hnext, List.cons_ne_nil _ _⟩

variable [InterruptHash]

/-- **A parallel graph is determinate.**  Whatever the schedules of its supersteps are, a call returns
one result: what comes of the bulk-synchronous program within the limit, or an error where that fails. -/
theorem yields_supersteps {call : InvokeCall S σ} {rounds : ℕ → Round S} (hsync : g.Synchronous)
    (h : g.Undisturbed call rounds) (hcancel : ∀ n, .cancel ∉ (rounds n).schedule) :
    ∃ r, (∀ r', g.Yields call rounds r' ↔ r' = r) ∧
      r.toOption = (call.report (run (g.supersteps (g.invokeConfig call).2) g.entries
        ⟨call.input, .none⟩ call.config.recursionLimit)).toOption := by
  have hnodup : g.entries.Nodup := by
    have hkeys : g.entries.Sublist g.triggerTable.incoming.keys := List.filter_sublist.map _
    exact hkeys.nodup g.triggerTable.incoming.nodupKeys
  obtain ⟨n, l, e, hend, hagree⟩ := (hsync.charts hcancel).exists_endsAt (fun _ => trivial)
    hsync.unwrapped ⟨.refl _, hnodup, hsync.entries⟩ h
  refine ⟨_, yields_iff h.uncached hend, ?_⟩
  generalize call.report _ = r at hagree ⊢
  generalize (g.invokeFinish call l e).1 = r' at hagree ⊢
  cases hagree with
  | ok a => rfl
  | error _ => rfl

end CompiledGraph

/-! ### Two nodes beside each other -/

/-- `a` and `b`, both from the start. -/
def forkGraph : CompiledGraph Transcript MemoryStore :=
  smallGraph [.fixed START "a", .fixed START "b"]

/-- The second task is through before the first one has begun. -/
def backwards : ℕ → Round Transcript := fun _ => { schedule := [.step 1, .step 1, .join] }

/-- The nodes of the graph append to the log. -/
theorem exists_of_forkGraph {name : String} {node : Node Transcript}
    (h : forkGraph.nodes.lookup name = some node) : ∃ n, node = appending n := by
  have hmem : ⟨name, node⟩ ∈ forkGraph.nodes.entries := AList.mem_lookup_iff.1 h
  have hentries : forkGraph.nodes.entries = [⟨"a", appending 1⟩, ⟨"b", appending 2⟩] := rfl
  rw [hentries] at hmem
  simp only [List.mem_cons, List.not_mem_nil, or_false, Sigma.mk.injEq] at hmem
  obtain ⟨-, hnode⟩ | ⟨-, hnode⟩ := hmem
  · exact ⟨1, eq_of_heq hnode⟩
  · exact ⟨2, eq_of_heq hnode⟩

theorem forkGraph_synchronous : forkGraph.Synchronous where
  mute name node h state config := by
    obtain ⟨n, rfl⟩ := exists_of_forkGraph h
    trivial
  sends config alone state name command h targets hgoto := by
    unfold CompiledGraph.returns at h
    cases hnode : forkGraph.nodes.lookup name with
    | none =>
      rw [hnode] at h
      cases h
    | some node =>
      obtain ⟨n, rfl⟩ := exists_of_forkGraph hnode
      rw [hnode] at h
      cases alone <;> cases h <;> cases hgoto
  unwrapped kv h := by cases h
  entries h := by cases h

/-- A call of it. -/
theorem yields_supersteps_fork :
    ∃ r, (∀ r', forkGraph.Yields (chainCall none) backwards r' ↔ r' = r) ∧
      r.toOption = some {
        value := { log := [1, 2] }
        interrupts := []
        steps := 1
        runId := 1
        checkpointId := none } := by
  have hcall : forkGraph.Undisturbed (chainCall none) backwards :=
    ⟨rfl, rfl, rfl, rfl, fun _ => ⟨rfl, rfl⟩⟩
  have hcancel : Choice.cancel ∉ [Choice.step 1, .step 1, .join] := by decide
  exact CompiledGraph.yields_supersteps forkGraph_synchronous hcall fun _ => hcancel

end Juncture
