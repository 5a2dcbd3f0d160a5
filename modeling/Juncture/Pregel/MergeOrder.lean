import Juncture.Pregel.Targets
import Juncture.Pregel.Writes

/-!
# Does the completion order of the tasks show?

The tasks of a superstep run concurrently and complete in any order.  The merge sorts their outputs
by a key, registration index or send index, so that the order does not show.  That works as long as
the tasks that run together have distinct keys.  They need not: send indices start at `0` for each
sender, and two failed nodes can share an error handler.  A tie is merged in completion order.

`mergesDeterministically_iff` : the outcome of the merge is independent of the completion order, for
every state and all outputs of the given tasks, exactly when the tasks have distinct keys or the
reducers of the state type do not care about order at all.
-/

namespace Juncture

variable {S : Type} [State S]

/-- The key the output of a task is merged by. -/
def taskKey (nodeRegistration : Dict ℕ) (t : PendingTask S) : MergeKey :=
  triggerKey nodeRegistration t.trigger t.nodeName

/-- `o` can be the output of task `t`: a command of its node, or, when the task failed and its node
has a handler or a fallback, a PULL output with the default command. -/
def OutputOf (t : PendingTask S) (o : TaskOutput S) : Prop :=
  o.nodeName = t.nodeName ∧
    ((o.error = none ∧ o.trigger = t.trigger) ∨
      (o.error.isSome = true ∧ o.trigger = .pull ∧ o.command = .default))

/-- `outputs` can be the outputs of `tasks`, listed in task order. -/
def OutputsOf (tasks : List (PendingTask S)) (outputs : List (TaskOutput S)) : Prop :=
  List.Forall₂ OutputOf tasks outputs

/-- Whatever the tasks return and from whatever state and versions, merging their outputs in any
completion order has one outcome: an error in every order, or one state, one set of changed fields
and one table of versions. -/
def MergesDeterministically (nodeRegistration : Dict ℕ) (tasks : List (PendingTask S)) : Prop :=
  ∀ (state : S) (versions : FieldVersionTracker) (outputs outputs' : List (TaskOutput S)),
    OutputsOf tasks outputs → outputs.Perm outputs' →
      writeOutcome (applyWrites state outputs versions nodeRegistration) =
        writeOutcome (applyWrites state outputs' versions nodeRegistration)

/-- Applying two updates that may meet in a superstep in either order has the same outcome. -/
def OrderInsensitive (S : Type) [State S] : Prop :=
  ∀ (state : S) (u u' : Update S), ¬ Conflicting u u' →
    mergeAll state [u, u'] = mergeAll state [u', u]

/-! ### Order-insensitive reducers -/

theorem mergeStep_merge (state : S) (c d : FieldsChanged) (u : Update S) :
    mergeStep (state, c.merge d) u =
      (mergeStep (state, d) u).map fun p => (p.1, c.merge p.2) := by
  unfold mergeStep
  rcases State.tryApply state u with ⟨state', e | c'⟩
  · rfl
  · simp [FieldsChanged.merge, BitVec.or_assoc]

theorem foldlM_mergeStep_merge (c : FieldsChanged) :
    ∀ (us : List (Update S)) (state : S) (d : FieldsChanged),
      us.foldlM mergeStep (state, c.merge d) =
        (us.foldlM mergeStep (state, d)).map fun p => (p.1, c.merge p.2) := by
  intro us
  induction us with
  | nil => intro state d; rfl
  | cons u us ih =>
    intro state d
    simp only [List.foldlM_cons, mergeStep_merge]
    cases mergeStep (state, d) u with
    | none => rfl
    | some p => exact ih p.1 p.2

theorem foldlM_mergeStep_pair (p : S × FieldsChanged) (u u' : Update S) :
    (mergeStep p u).bind (mergeStep · u') =
      (mergeAll p.1 [u, u']).map fun q => (q.1, p.2.merge q.2) := by
  have h := foldlM_mergeStep_merge p.2 [u, u'] p.1 .none
  have hp : p.2.merge .none = p.2 := by simp [FieldsChanged.merge, FieldsChanged.none]
  rw [hp] at h
  simpa [mergeAll, List.foldlM_cons] using h

theorem OrderInsensitive.swaps (h : OrderInsensitive S) {u u' : Update S}
    (hc : ¬ Conflicting u u') : KeyedMerge.Swaps mergeStep u u' := by
  intro p
  rw [foldlM_mergeStep_pair, foldlM_mergeStep_pair, h p.1 u u' hc]

/-! ### Sufficiency -/

theorem updates_perm {outputs outputs' : List (TaskOutput S)} (h : outputs.Perm outputs') :
    (updates outputs).Perm (updates outputs') :=
  h.filterMap _

/-- The conflict check does not depend on the order. -/
theorem checkReplaceConflicts_perm {outputs outputs' : List (TaskOutput S)}
    (h : outputs.Perm outputs') :
    checkReplaceConflicts outputs = .ok () ↔ checkReplaceConflicts outputs' = .ok () := by
  rw [checkReplaceConflicts_eq_ok_iff, checkReplaceConflicts_eq_ok_iff]
  exact (updates_perm h).pairwise_iff fun hc hc' => hc hc'.symm

/-- Two orders with the same merge have the same outcome. -/
theorem writeOutcome_eq_of_mergeAll_eq {state : S} {versions : FieldVersionTracker}
    {nodeRegistration : Dict ℕ} {outputs outputs' : List (TaskOutput S)}
    (h : outputs.Perm outputs')
    (hm : checkReplaceConflicts outputs = .ok () →
      mergeAll state (mergedUpdates nodeRegistration outputs) =
        mergeAll state (mergedUpdates nodeRegistration outputs')) :
    writeOutcome (applyWrites state outputs versions nodeRegistration) =
      writeOutcome (applyWrites state outputs' versions nodeRegistration) := by
  rw [writeOutcome_applyWrites, writeOutcome_applyWrites]
  have hc := checkReplaceConflicts_perm h
  cases h₁ : checkReplaceConflicts outputs with
  | ok _ => rw [hc.1 h₁, hm h₁]
  | error e =>
    cases h₂ : checkReplaceConflicts outputs' with
    | ok _ => rw [hc.2 h₂] at h₁; cases h₁
    | error e' => rfl

/-- An output with an update has the key of its task. -/
theorem outputKey_of_outputOf {nodeRegistration : Dict ℕ} {t : PendingTask S} {o : TaskOutput S}
    (h : OutputOf t o) (hu : o.command.update.isSome = true) :
    outputKey nodeRegistration o = taskKey nodeRegistration t := by
  obtain ⟨hn, ⟨-, ht⟩ | ⟨-, -, hd⟩⟩ := h
  · rw [outputKey, taskKey, hn, ht]
  · rw [hd] at hu; simp at hu

/-- The keys of the outputs with an update are among the keys of the tasks, in order. -/
theorem sublist_keys {nodeRegistration : Dict ℕ} {tasks : List (PendingTask S)}
    {outputs : List (TaskOutput S)} (h : OutputsOf tasks outputs) :
    ((outputs.filter fun o => o.command.update.isSome).map (outputKey nodeRegistration)).Sublist
      (tasks.map (taskKey nodeRegistration)) := by
  induction h with
  | nil => exact List.Sublist.slnil
  | cons ho _ ih =>
    rw [List.filter_cons, List.map_cons]
    split_ifs with hu
    · rw [List.map_cons, outputKey_of_outputOf ho hu]
      exact ih.cons_cons _
    · exact ih.cons _

theorem mergesDeterministically_of_nodup {nodeRegistration : Dict ℕ}
    {tasks : List (PendingTask S)} (hk : (tasks.map (taskKey nodeRegistration)).Nodup) :
    MergesDeterministically nodeRegistration tasks := by
  intro state versions outputs outputs' ho hp
  refine writeOutcome_eq_of_mergeAll_eq hp fun _ => congrArg _ ?_
  exact KeyedMerge.filterMap_sortByKey_eq_of_perm _ hp ((sublist_keys ho).nodup hk)

theorem mergesDeterministically_of_orderInsensitive (h : OrderInsensitive S)
    (nodeRegistration : Dict ℕ) (tasks : List (PendingTask S)) :
    MergesDeterministically nodeRegistration tasks := by
  intro state versions outputs outputs' _ hp
  refine writeOutcome_eq_of_mergeAll_eq hp fun hc => ?_
  have hperm := KeyedMerge.filterMap_sortByKey_perm MergeKey.le (outputKey nodeRegistration)
    (fun o : TaskOutput S => o.command.update) hp
  have hpw : (mergedUpdates nodeRegistration outputs).Pairwise fun u u' => ¬ Conflicting u u' :=
    ((mergedUpdates_perm nodeRegistration outputs).pairwise_iff fun hc hc' => hc hc'.symm).2
      ((checkReplaceConflicts_eq_ok_iff outputs).1 hc)
  exact KeyedMerge.foldlM_eq_of_perm hperm (hpw.imp fun hn => h.swaps hn) _

/-! ### Necessity -/

/-- The output of a task that succeeds with the given update. -/
def succeeds (t : PendingTask S) (u : Option (Update S)) : TaskOutput S :=
  { taskId := t.id, nodeName := t.nodeName, command := { update := u }, trigger := t.trigger }

theorem outputOf_succeeds (t : PendingTask S) (u : Option (Update S)) :
    OutputOf t (succeeds t u) :=
  ⟨rfl, .inl ⟨rfl, rfl⟩⟩

theorem outputsOf_map_succeeds (tasks : List (PendingTask S)) :
    OutputsOf tasks (tasks.map fun t => succeeds t none) :=
  List.forall₂_map_right_iff.2 (List.forall₂_same.2 fun t _ => outputOf_succeeds t none)

theorem updates_map_succeeds (tasks : List (PendingTask S)) :
    updates (tasks.map fun t => succeeds t none) = [] := by
  simp [updates, succeeds]

omit [State S] in
/-- Two occurrences of one key, and the tasks around them. -/
theorem exists_tie_of_not_nodup {nodeRegistration : Dict ℕ} {tasks : List (PendingTask S)}
    (h : ¬ (tasks.map (taskKey nodeRegistration)).Nodup) :
    ∃ l₁ a l₂ b l₃, tasks = l₁ ++ a :: (l₂ ++ b :: l₃) ∧
      taskKey nodeRegistration a = taskKey nodeRegistration b := by
  rw [List.nodup_iff_sublist] at h
  push Not at h
  obtain ⟨k, hk⟩ := h
  obtain ⟨l, hl, hkl⟩ := List.sublist_map_iff.1 hk
  obtain ⟨a, l', rfl, ha, hl'⟩ := List.map_eq_cons_iff.1 hkl.symm
  obtain ⟨b, l'', rfl, hb, hnil⟩ := List.map_eq_cons_iff.1 hl'
  obtain rfl := List.map_eq_nil_iff.1 hnil
  obtain ⟨r₁, r₂, rfl, har, hbr⟩ := List.cons_sublist_iff.1 hl
  obtain ⟨l₁, m, rfl⟩ := List.append_of_mem har
  obtain ⟨m', l₃, rfl⟩ := List.append_of_mem (List.singleton_sublist.1 hbr)
  exact ⟨l₁, a, m ++ m', b, l₃, by simp, ha.trans hb.symm⟩

/-- Two outputs with one key are merged in the order in which they completed. -/
theorem mergedUpdates_tie {nodeRegistration : Dict ℕ} {outputs : List (TaskOutput S)}
    {o o' : TaskOutput S} {u u' : Update S} (ho : o.command.update = some u)
    (ho' : o'.command.update = some u')
    (hk : outputKey nodeRegistration o = outputKey nodeRegistration o')
    (hs : [o, o'].Sublist outputs) (hu : updates outputs = [u, u']) :
    mergedUpdates nodeRegistration outputs = [u, u'] := by
  have hsort : [o, o'].Sublist
      (KeyedMerge.sortByKey MergeKey.le (outputKey nodeRegistration) outputs) :=
    KeyedMerge.pair_sublist_sortByKey (hk ▸ MergeKey.le_refl _) hs
  have hsub : [u, u'].Sublist (mergedUpdates nodeRegistration outputs) := by
    have := hsort.filterMap fun o => o.command.update
    simpa [ho, ho', mergedUpdates, updates] using this
  have hlen := (mergedUpdates_perm nodeRegistration outputs).length_eq
  rw [hu] at hlen
  exact (hsub.eq_of_length hlen.symm).symm

theorem orderInsensitive_of_tie {nodeRegistration : Dict ℕ} {l₁ l₂ l₃ : List (PendingTask S)}
    {a b : PendingTask S} (hk : taskKey nodeRegistration a = taskKey nodeRegistration b)
    (h : MergesDeterministically nodeRegistration (l₁ ++ a :: (l₂ ++ b :: l₃))) :
    OrderInsensitive S := by
  intro state u u' hc
  -- All other tasks write nothing, so that the two updates are all there is to merge.
  let blank : List (PendingTask S) → List (TaskOutput S) := fun l => l.map fun t => succeeds t none
  let order (o o' : TaskOutput S) : List (TaskOutput S) :=
    blank l₁ ++ o :: (blank l₂ ++ o' :: blank l₃)
  let oa := succeeds a (some u)
  let ob := succeeds b (some u')
  have hkey : outputKey nodeRegistration oa = outputKey nodeRegistration ob := hk
  have hupd : ∀ o o' : TaskOutput S, updates (order o o') = updates [o, o'] := by
    intro o o'
    have hb : ∀ l, updates (blank l) = [] := updates_map_succeeds
    simp only [updates] at hb ⊢
    simp only [order, List.filterMap_append, List.filterMap_cons, hb, List.nil_append,
      List.filterMap_nil]
  have hsub : ∀ o o' : TaskOutput S, [o, o'].Sublist (order o o') := fun o o' =>
    (((List.Sublist.cons_cons o' (List.nil_sublist _)).trans
      (List.sublist_append_right (blank l₂) _)).cons_cons o).trans (List.sublist_append_right _ _)
  have hout : OutputsOf (l₁ ++ a :: (l₂ ++ b :: l₃)) (order oa ob) :=
    List.rel_append (outputsOf_map_succeeds l₁) (.cons (outputOf_succeeds a _)
      (List.rel_append (outputsOf_map_succeeds l₂) (.cons (outputOf_succeeds b _)
        (outputsOf_map_succeeds l₃))))
  have hperm : (order oa ob).Perm (order ob oa) := by
    refine List.Perm.append_left _ ?_
    have h₁ : (oa :: (blank l₂ ++ ob :: blank l₃)).Perm (oa :: ob :: (blank l₂ ++ blank l₃)) :=
      List.perm_middle.cons oa
    have h₂ : (ob :: (blank l₂ ++ oa :: blank l₃)).Perm (ob :: oa :: (blank l₂ ++ blank l₃)) :=
      List.perm_middle.cons ob
    exact h₁.trans ((List.Perm.swap ..).trans h₂.symm)
  -- A stable sort keeps the two as they came.
  have hmerge : mergedUpdates nodeRegistration (order oa ob) = [u, u'] :=
    mergedUpdates_tie rfl rfl hkey (hsub oa ob) (hupd oa ob)
  have hmerge' : mergedUpdates nodeRegistration (order ob oa) = [u', u] :=
    mergedUpdates_tie rfl rfl hkey.symm (hsub ob oa) (hupd ob oa)
  have hok : checkReplaceConflicts (order oa ob) = .ok () := by
    rw [checkReplaceConflicts_eq_ok_iff, hupd oa ob]
    simpa [updates, oa, ob, succeeds] using hc
  have hok' : checkReplaceConflicts (order ob oa) = .ok () :=
    (checkReplaceConflicts_perm hperm).1 hok
  have hout := h state ⟨[], 0⟩ _ _ hout hperm
  rw [writeOutcome_applyWrites, writeOutcome_applyWrites, hok, hok', hmerge, hmerge'] at hout
  refine Option.map_injective ?_ hout
  rintro ⟨s, c⟩ ⟨s', c'⟩ heq
  simp only [Prod.mk.injEq] at heq ⊢
  exact ⟨heq.1, heq.2.1⟩

/-- **When the completion order does not show.**  The merge of the tasks' outputs is independent of
the order in which they completed exactly when no two of the tasks have one merge key, or the state
type applies any two non-conflicting updates in either order with the same outcome. -/
theorem mergesDeterministically_iff (nodeRegistration : Dict ℕ) (tasks : List (PendingTask S)) :
    MergesDeterministically nodeRegistration tasks ↔
      (tasks.map (taskKey nodeRegistration)).Nodup ∨ OrderInsensitive S := by
  constructor
  · intro h
    by_cases hn : (tasks.map (taskKey nodeRegistration)).Nodup
    · exact .inl hn
    · obtain ⟨l₁, a, l₂, b, l₃, rfl, hk⟩ := exists_tie_of_not_nodup hn
      exact .inr (orderInsensitive_of_tie hk h)
  · rintro (h | h)
    · exact mergesDeterministically_of_nodup h
    · exact mergesDeterministically_of_orderInsensitive h _ _

/-- A graph with two entry nodes that both send work to `worker`.  The fixed edges are there for the
reachability check; a command that sends does not follow them. -/
def twoSenders : Topology Transcript where
  nodes := Dict.ofList [("worker", ⟨fun s _ => .done (.ok (.ofUpdate (Transcript.note s.status)))⟩),
    ("q", ⟨fun _ _ => .done (.ok (.send [⟨"worker", Transcript.toJson ⟨[], 2⟩, none⟩]))⟩),
    ("p", ⟨fun _ _ => .done (.ok (.send [⟨"worker", Transcript.toJson ⟨[], 1⟩, none⟩]))⟩)]
  edges := [.fixed START "p", .fixed START "q", .fixed "p" "q", .fixed "q" "worker"]
  accepted := by decide

/-- What the two senders return, `status` being the state they send along. -/
def sent (taskId : Uuid) (node : String) (status : ℕ) : TaskOutput Transcript :=
  { taskId, nodeName := node, trigger := .pull
    command := .send [⟨"worker", Transcript.toJson ⟨[], status⟩, none⟩] }

/-- The tasks they schedule: both have send index `0`. -/
def fanOut : List (PendingTask Transcript) :=
  [.push 2 "worker" 0 (Transcript.toJson ⟨[], 1⟩), .push 3 "worker" 0 (Transcript.toJson ⟨[], 2⟩)]

/-- Two senders in one superstep schedule tasks whose writes are appended in completion order. -/
theorem twoSenders_not_mergesDeterministically :
    twoSenders.nextTasks 2 [sent 0 "p" 1, sent 1 "q" 2] {} = .ok fanOut ∧
      ¬ MergesDeterministically (Dict.ofList [("p", 0), ("q", 1), ("worker", 2)]) fanOut := by
  refine ⟨rfl, fun h => ?_⟩
  have hout : OutputsOf fanOut
      [succeeds fanOut[0] (some (Transcript.note 1)), succeeds fanOut[1] (some (Transcript.note 2))] :=
    .cons (outputOf_succeeds _ _) (.cons (outputOf_succeeds _ _) .nil)
  have heq := h {} ⟨[0, 0], 0⟩ _ _ hout (List.Perm.swap _ _ _)
  revert heq
  decide

end Juncture
