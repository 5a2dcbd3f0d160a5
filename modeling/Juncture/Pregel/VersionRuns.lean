import Juncture.Pregel.Frames

/-!
# Field versions along a run

A superstep bumps the version of every field it writes and lets every node it executed remember the
versions from before its writes were merged.  So the versions tell, for each node, which fields have
been written since it last ran, its own superstep included, as long as the version counter has not
saturated.

* `turn_versions` : what a turn does to the versions and to what the nodes have seen.
* `versions_sound` : what holds of the versions in every state of every run.
-/

namespace Juncture

namespace PregelLoop

variable {S σ : Type} [State S] {l l' l₁ : PregelLoop S σ} {result : SuperstepResult S}

/-- The nodes that a superstep executed. -/
def executedNodes (result : SuperstepResult S) : List String :=
  (result.taskOutputs.filter fun o => !o.circuitBlocked).map TaskOutput.nodeName

/-! ### What a superstep writes -/

/-- The fields that the commands of subgraphs to their parent change, one after the other. -/
def parentChanges : S → List (BubbleUp S) → List FieldsChanged
  | _, [] => []
  | state, .parentCommand c :: us =>
    match c.command.update with
    | none => parentChanges state us
    | some update =>
      match State.tryApply state update with
      | (state, .ok changed) => changed :: parentChanges state us
      | (state, .error _) => parentChanges state us
  | state, _ :: us => parentChanges state us

/-- What a superstep changes: the merged writes of its tasks, and the commands of subgraphs to their
parent, which count unless a node has interrupted the run. -/
def superstepChanges (l : PregelLoop S σ) (result : SuperstepResult S) : List FieldsChanged :=
  l.changedFields result ::
    if l.interruptRx.getD [] = [] then parentChanges (l.committed result).state result.bubbleUps
    else []

/-- Some change of the superstep writes the field. -/
def WritesField (l : PregelLoop S σ) (result : SuperstepResult S) (i : ℕ) : Prop :=
  ∃ changed ∈ l.superstepChanges result, changed.hasField i = true

/-! ### Versions and what is seen of them -/

/-- The part of the loop that the versions are kept in. -/
def versioning (l : PregelLoop S σ) : FieldVersionTracker × VersionsSeen :=
  (l.fieldVersions, l.versionsSeen)

theorem versioning_settled (h : l.Settled l') : l'.versioning = l.versioning := by
  obtain ⟨k, hk, _, _, _, _, _, _, _, _, _, _, _, rfl⟩ := h
  obtain rfl | rfl := hk
  · rfl
  · show l.finishAllChannels.versioning = l.versioning
    unfold finishAllChannels
    split_ifs <;> rfl

/-- The commands of subgraphs to their parent bump what they change. -/
theorem versioning_handleBubbleUps (bubbleUps : List (BubbleUp S)) (l : PregelLoop S σ) :
    (l.handleBubbleUps bubbleUps).1.versioning =
      ((parentChanges l.state bubbleUps).foldl .bumpAll l.fieldVersions, l.versionsSeen) := by
  have hfold : ∀ (us : List (BubbleUp S)) (acc : PregelLoop S σ × Bool),
      (us.foldl handleBubbleUp acc).1.versioning =
        ((parentChanges acc.1.state us).foldl .bumpAll acc.1.fieldVersions,
          acc.1.versionsSeen) := by
    intro us
    induction us with
    | nil => exact fun acc => rfl
    | cons u us ih =>
      intro acc
      rw [List.foldl_cons, ih]
      cases u with
      | interrupt i => rfl
      | drained d => rfl
      | parentCommand c =>
        simp only [handleBubbleUp, handleParentCommand, parentChanges]
        cases c.command.update with
        | none => rfl
        | some update =>
          rcases ht : State.tryApply acc.1.state update with ⟨s, e | changed⟩
          · simp only [ht]
          · simp only [ht, List.foldl_cons]
  exact hfold bubbleUps (l, false)

variable [InterruptHash]

/-- **What `after_tick` does to the versions.** -/
theorem versioning_afterTick (h : l.afterTick result = (l', .ok ())) :
    l'.versioning =
      ((l.superstepChanges result).foldl .bumpAll l.fieldVersions,
        (executedNodes result).foldl
          (fun v n => v.markConsumed n l.fieldVersions.versions) l.versionsSeen) := by
  obtain ⟨tasks, k, -, hk, hf⟩ := afterTick_advanced h
  have hseen : (l.committed result).versionsSeen =
      (executedNodes result).foldl
        (fun v n => v.markConsumed n l.fieldVersions.versions) l.versionsSeen := by
    obtain ⟨s, changed, -, -, hmerge, -⟩ := afterTick_phases h
    unfold committed
    rw [hmerge, executedNodes, List.foldl_map]
    rfl
  have hkv : k.versioning =
      (l.fieldVersions.bumpAll (l.changedFields result), (l.committed result).versionsSeen) := by
    obtain ⟨_, _, _, _, _, _, rfl⟩ := hk
    rfl
  have hkrx : k.interruptRx = l.interruptRx := by
    obtain ⟨_, _, _, _, _, _, rfl⟩ := hk
    rfl
  have hkstate : k.state = (l.committed result).state := by
    obtain ⟨_, _, _, _, _, _, rfl⟩ := hk
    rfl
  unfold superstepChanges
  rw [← hseen, ← hkrx, List.foldl_cons]
  obtain ⟨hsig, hset⟩ | ⟨hsig, hset⟩ := finishTick_settled hf
  · rw [if_neg hsig]
    exact (versioning_settled hset).trans hkv
  · rw [if_pos hsig, ← hkstate]
    refine (versioning_settled hset).trans ?_
    refine (versioning_handleBubbleUps result.bubbleUps { k with interruptRx := none }).trans ?_
    rw [show k.fieldVersions = _ from congrArg Prod.fst hkv,
      show k.versionsSeen = _ from congrArg Prod.snd hkv]

/-! ### Along a run -/

section Run

variable {l₀ : PregelLoop S σ} {rounds : ℕ → Round S} {n : ℕ}

/-- The superstep in round `n` executes the node. -/
def ExecutesAt (l₀ : PregelLoop S σ) (rounds : ℕ → Round S) (n : ℕ) (node : String) : Prop :=
  ∃ l₁ result l, l₀.TurnAt rounds n l₁ result l ∧ node ∈ executedNodes result

/-- The superstep in round `n` writes the field. -/
def WritesAt (l₀ : PregelLoop S σ) (rounds : ℕ → Round S) (n i : ℕ) : Prop :=
  ∃ l₁ result l, l₀.TurnAt rounds n l₁ result l ∧ l₁.WritesField result i

/-- After `n` supersteps, the node was last executed by superstep `s`. -/
structure LastExecuted (l₀ : PregelLoop S σ) (rounds : ℕ → Round S) (n s : ℕ) (node : String) :
    Prop where
  /-- The superstep is one of them. -/
  lt : s < n
  /-- It executed the node. -/
  executed : l₀.ExecutesAt rounds s node
  /-- No later one did. -/
  last : ∀ m, s < m → m < n → ¬ l₀.ExecutesAt rounds m node

theorem TurnAt.unique {l₁ l₁' l l' : PregelLoop S σ} {result result' : SuperstepResult S}
    (h : l₀.TurnAt rounds n l₁ result l) (h' : l₀.TurnAt rounds n l₁' result' l') :
    l₁ = l₁' ∧ result = result' ∧ l = l' := by
  obtain ⟨t, ht, hs, ha⟩ := h
  obtain ⟨t', ht', hs', ha'⟩ := h'
  cases ht.symm.trans ht'
  cases hs.symm.trans hs'
  cases ha.symm.trans ha'
  exact ⟨rfl, rfl, rfl⟩

/-- The versions after some supersteps, from the versions before them: a sequence of bumps of the
fields that these supersteps write. -/
def BumpedSince (l₀ : PregelLoop S σ) (rounds : ℕ → Round S) (s n : ℕ)
    (t t' : FieldVersionTracker) : Prop :=
  ∃ is : List ℕ, t' = is.foldl .bump t ∧
    ∀ i, i ∈ is ↔ i < t.versions.length ∧ ∃ m, s ≤ m ∧ m < n ∧ l₀.WritesAt rounds m i

theorem BumpedSince.refl (s : ℕ) (t : FieldVersionTracker) : BumpedSince l₀ rounds s s t t :=
  ⟨[], rfl, fun i => by simp; intros; omega⟩

theorem BumpedSince.trans {s m : ℕ} {t t' t'' : FieldVersionTracker} (hsm : s ≤ m) (hmn : m ≤ n)
    (h : BumpedSince l₀ rounds s m t t') (h' : BumpedSince l₀ rounds m n t' t'') :
    BumpedSince l₀ rounds s n t t'' := by
  obtain ⟨is, rfl, his⟩ := h
  obtain ⟨js, rfl, hjs⟩ := h'
  refine ⟨is ++ js, (List.foldl_append ..).symm, fun i => ?_⟩
  rw [List.mem_append, his, hjs, FieldVersionTracker.length_foldl_bump, ← and_or_left]
  refine and_congr_right fun _ => ⟨?_, ?_⟩
  · rintro (⟨k, hk, hk', hw⟩ | ⟨k, hk, hk', hw⟩)
    · exact ⟨k, hk, by omega, hw⟩
    · exact ⟨k, by omega, hk', hw⟩
  · rintro ⟨k, hk, hk', hw⟩
    by_cases hkm : k < m
    · exact .inl ⟨k, hk, hkm, hw⟩
    · exact .inr ⟨k, by omega, hk', hw⟩

/-- **What a turn does to the versions**: it bumps the fields written, and the nodes executed have
seen the versions from before. -/
theorem turn_versions {t : PregelLoop S σ} (ht : l₀.head rounds n = some t)
    (h : l₀.TurnAt rounds n l₁ result l) :
    BumpedSince l₀ rounds n (n + 1) t.fieldVersions l.fieldVersions ∧
      ∀ node, l.versionsSeen.seen.lookup node =
        if node ∈ executedNodes result then
          (t.versionsSeen.seen.lookup node).map fun _ => t.fieldVersions.versions
        else t.versionsSeen.seen.lookup node := by
  obtain ⟨t', ht', hs, ha⟩ := id h
  cases ht.symm.trans ht'
  have hran : l₁.versioning = t.versioning := by
    obtain ⟨_, _, _, _, _, _, _, _, _, _, _, _, rfl⟩ := ran_superstep hs
    rfl
  have hfv : l₁.fieldVersions = t.fieldVersions := congrArg Prod.fst hran
  have hvs : l₁.versionsSeen = t.versionsSeen := congrArg Prod.snd hran
  have hafter := versioning_afterTick ha
  rw [hfv, hvs] at hafter
  constructor
  · obtain ⟨is, heq, his⟩ :=
      FieldVersionTracker.exists_foldl_bumpAll (l₁.superstepChanges result) t.fieldVersions
    refine ⟨is, (congrArg Prod.fst hafter).trans heq, fun i => (his i).trans ?_⟩
    refine and_congr_right fun _ => ⟨?_, ?_⟩
    · rintro ⟨c, hc, hi⟩
      exact ⟨n, le_rfl, Nat.lt_succ_self n, l₁, result, l, h, c, hc, hi⟩
    · rintro ⟨m, hm, hm', l₂, result', l'', h', hw⟩
      obtain rfl : m = n := by omega
      obtain ⟨rfl, rfl, -⟩ := h'.unique h
      exact hw
  · intro node
    rw [show l.versionsSeen = _ from congrArg Prod.snd hafter]
    exact VersionsSeen.lookup_foldl_markConsumed _ node _ _

/-- **What the versions of a run are made of.** -/
theorem bumpedSince_of_head {s : ℕ} {t : PregelLoop S σ} (ht : l₀.head rounds s = some t)
    (hsn : s ≤ n) (hl : l₀.head rounds n = some l) :
    BumpedSince l₀ rounds s n t.fieldVersions l.fieldVersions := by
  induction n, hsn using Nat.le_induction generalizing l with
  | base =>
    cases ht.symm.trans hl
    exact .refl s _
  | succ n hsn ih =>
    obtain ⟨l₁, result, hturn⟩ := head_succ_eq_some_iff.1 hl
    obtain ⟨k, hk, -⟩ := id hturn
    exact (ih hk).trans hsn (Nat.le_succ n) (turn_versions hk hturn).1

/-- What a node that superstep `s` executed last has seen: the versions when the superstep began. -/
theorem seen_of_lastExecuted {s : ℕ} {node : String} {t : PregelLoop S σ}
    (h : LastExecuted l₀ rounds n s node) (ht : l₀.head rounds s = some t)
    (htracked : (t.versionsSeen.seen.lookup node).isSome = true) (hl : l₀.head rounds n = some l) :
    l.versionsSeen.seen.lookup node = some t.fieldVersions.versions := by
  obtain ⟨hlt, hexec, hlast⟩ := h
  rw [← Nat.succ_le_iff] at hlt
  induction n, hlt using Nat.le_induction generalizing l with
  | base =>
    obtain ⟨l₁, result, l', hturn, hmem⟩ := hexec
    cases (head_succ_eq_some_iff.2 ⟨l₁, result, hturn⟩).symm.trans hl
    rw [(turn_versions ht hturn).2 node, if_pos hmem]
    obtain ⟨seen, hseen⟩ := Option.isSome_iff_exists.1 htracked
    rw [hseen]
    rfl
  | succ n hsn ih =>
    obtain ⟨l₁, result, hturn⟩ := head_succ_eq_some_iff.1 hl
    obtain ⟨k, hk, -⟩ := id hturn
    have hnot : node ∉ executedNodes result := fun hmem =>
      hlast n (by omega) (Nat.lt_succ_self n) ⟨l₁, result, l, hturn, hmem⟩
    rw [(turn_versions hk hturn).2 node, if_neg hnot]
    exact ih hk fun m hm hm' => hlast m hm (by omega)

/-! ### The invariant -/

/-- What holds in every state of a run that tracks `numFields` fields of the nodes. -/
structure Versioned (numFields : ℕ) (nodes : List String) (l : PregelLoop S σ) : Prop where
  /-- The versions are sound. -/
  sound : l.fieldVersions.Sound
  /-- There is one for each field. -/
  length : l.fieldVersions.versions.length = numFields
  /-- The nodes are tracked. -/
  tracked : ∀ node ∈ nodes, (l.versionsSeen.seen.lookup node).isSome = true
  /-- No node has seen a version that is not there yet. -/
  seen : ∀ node seen, l.versionsSeen.seen.lookup node = some seen →
    ∀ i, seen.getD i 0 ≤ l.fieldVersions.get i

omit [InterruptHash] in
theorem versioned_new {numFields : ℕ} {nodes : List String}
    (hv : l₀.fieldVersions = .new numFields) (hs : l₀.versionsSeen = .new nodes numFields) :
    Versioned numFields nodes l₀ := by
  refine ⟨?_, ?_, ?_, ?_⟩
  · rw [hv]
    exact FieldVersionTracker.sound_new numFields
  · rw [hv]
    exact List.length_replicate
  · intro node hnode
    rw [hs, VersionsSeen.lookup_new, if_pos hnode]
    rfl
  · intro node seen hseen i
    rw [hs, VersionsSeen.lookup_new] at hseen
    split_ifs at hseen
    cases hseen
    have hzero : (List.replicate numFields 0).getD i 0 = 0 := by
      rw [List.getD_eq_getElem?_getD, List.getElem?_replicate]
      split_ifs <;> rfl
    rw [hzero]
    exact Nat.zero_le _

theorem BumpedSince.spec {s : ℕ} {t t' : FieldVersionTracker} (h : BumpedSince l₀ rounds s n t t')
    (ht : t.Sound) :
    t'.Sound ∧ t'.versions.length = t.versions.length ∧ (∀ i, t.get i ≤ t'.get i) ∧
      (t'.globalMax < u64Max → ∀ i, t.get i < t'.get i ↔
        i < t.versions.length ∧ ∃ m, s ≤ m ∧ m < n ∧ l₀.WritesAt rounds m i) := by
  obtain ⟨is, rfl, his⟩ := h
  obtain ⟨hsound, hlen, -, hle, hother, hnew⟩ := ht.foldl_bump is fun i hi => ((his i).1 hi).1
  refine ⟨hsound, hlen, hle, fun hmax i => ?_⟩
  rw [← his]
  constructor
  · intro hlt
    by_contra hi
    rw [hother i hi] at hlt
    exact lt_irrefl _ hlt
  · intro hi
    exact (ht.le i).trans_lt (hnew hmax i hi)

theorem Versioned.head {numFields : ℕ} {nodes : List String} (h : Versioned numFields nodes l₀)
    (hl : l₀.head rounds n = some l) : Versioned numFields nodes l := by
  refine Machine.trace_invariant (I := fun _ l => Versioned numFields nodes l) h ?_ hl
  intro n t u ht ih hturn
  obtain ⟨l₁, result, hs, ha⟩ := turn_eq_some_iff.1 hturn
  obtain ⟨hbump, hseen⟩ := turn_versions ht ⟨t, ht, hs, ha⟩
  obtain ⟨hsound, hlen, hle, -⟩ := hbump.spec ih.sound
  refine ⟨hsound, hlen.trans ih.length, fun node hnode => ?_, fun node seen hlookup i => ?_⟩
  · rw [hseen]
    split_ifs
    · rw [Option.isSome_map]
      exact ih.tracked node hnode
    · exact ih.tracked node hnode
  · rw [hseen] at hlookup
    split_ifs at hlookup
    · obtain ⟨_, -, rfl⟩ := Option.map_eq_some_iff.1 hlookup
      exact hle i
    · exact (ih.seen node seen hlookup i).trans (hle i)

/-- **What holds of the versions in a state of a run.** -/
structure VersionsHold (l : PregelLoop S σ) : Prop where
  /-- Every version is at most the maximum. -/
  le : ∀ i, l.fieldVersions.get i ≤ l.fieldVersions.globalMax
  /-- Versions other than `0` tell the fields apart. -/
  distinct : l.fieldVersions.globalMax < u64Max → ∀ i j, i ≠ j → l.fieldVersions.get i ≠ 0 →
    l.fieldVersions.get i ≠ l.fieldVersions.get j
  /-- A bump strictly increases the version of its field. -/
  bump_self : l.fieldVersions.globalMax < u64Max → ∀ i < l.fieldVersions.versions.length,
    l.fieldVersions.get i < (l.fieldVersions.bump i).get i
  /-- It leaves the others unchanged. -/
  bump_other : ∀ i j, j ≠ i → (l.fieldVersions.bump i).get j = l.fieldVersions.get j
  /-- What a node has seen is at most the current version. -/
  seen_le : ∀ node i, (l.versionsSeen.getSeen node).getD i 0 ≤ l.fieldVersions.get i

omit [InterruptHash] in
theorem Versioned.hold {numFields : ℕ} {nodes : List String} (h : Versioned numFields nodes l) :
    l.VersionsHold := by
  refine ⟨h.sound.le, h.sound.distinct, fun hmax i hi => h.sound.lt_bump hi hmax,
    fun i j hj => FieldVersionTracker.get_bump_of_ne hj, fun node i => ?_⟩
  unfold VersionsSeen.getSeen
  cases hseen : l.versionsSeen.seen.lookup node with
  | none => simp
  | some seen => exact h.seen node seen hseen i

/-- The trigger fields of a node that have been written since superstep `s` began. -/
noncomputable def writtenSince (l₀ : PregelLoop S σ) (rounds : ℕ → Round S) (s n : ℕ)
    (fields : List ℕ) : List ℕ :=
  open Classical in fields.filter fun i => ∃ m, s ≤ m ∧ m < n ∧ l₀.WritesAt rounds m i

/-- **Versions and activation**: as long as the version counter has not saturated, a node that
superstep `s` executed last is activated exactly by the trigger fields that a superstep from `s` on
has written. -/
theorem versions_sound (hv : l₀.fieldVersions = .new 64)
    (hs : l₀.versionsSeen = .new l₀.nodes.keys 64) (hl : l₀.head rounds n = some l) :
    l.VersionsHold ∧
      (l.fieldVersions.globalMax < u64Max → ∀ s node, node ∈ l₀.nodes.keys →
        LastExecuted l₀ rounds n s node → ∀ fields : List ℕ,
          (l.versionsSeen.shouldActivate node fields l.fieldVersions.versions = true ↔
            ∃ i ∈ fields, ∃ m, s ≤ m ∧ m < n ∧ l₀.WritesAt rounds m i) ∧
          l.versionsSeen.computeTriggeredFields node fields l.fieldVersions.versions =
            writtenSince l₀ rounds s n fields) := by
  have hinit := versioned_new hv hs
  refine ⟨(hinit.head hl).hold, fun hmax s node hnode hlast fields => ?_⟩
  obtain ⟨_, _, _, ⟨t, ht, -⟩, -⟩ := id hlast.executed
  have hI := hinit.head ht
  have hseen := seen_of_lastExecuted hlast ht (hI.tracked node hnode) hl
  obtain ⟨-, -, -, hlt⟩ := (bumpedSince_of_head ht hlast.lt.le hl).spec hI.sound
  -- a field index is below 64, so every field written has a version
  have hwritten : ∀ i, t.fieldVersions.versions.getD i 0 < l.fieldVersions.versions.getD i 0 ↔
      ∃ m, s ≤ m ∧ m < n ∧ l₀.WritesAt rounds m i := by
    intro i
    refine (hlt hmax i).trans ⟨And.right, fun hw => ⟨?_, hw⟩⟩
    obtain ⟨m, -, -, l₁, result, l', -, c, -, hc⟩ := hw
    rw [hI.length]
    exact BitVec.lt_of_getLsbD hc
  unfold VersionsSeen.shouldActivate VersionsSeen.computeTriggeredFields writtenSince
  rw [hseen]
  constructor
  · simp only [List.any_eq_true, decide_eq_true_eq, hwritten]
  · exact List.filter_congr fun i _ => decide_eq_decide.2 (hwritten i)

end Run

end PregelLoop

/-! ### A run that saturates the counter -/

/-- A node that writes both fields of the state. -/
def touching : Node Transcript :=
  ⟨fun _ _ => .done (.ok (.ofUpdate ({ log := some [], status := some 0 } : Transcript.Change)))⟩

/-- `a` over and over, up to the largest recursion limit. -/
def busy : PregelLoop Transcript Unit :=
  .withErrorHandlers {} (Dict.ofList [("a", touching)])
    (buildTriggerTable [.fixed START "a", .fixed "a" "a"]) { recursionLimit := 2 ^ 64 - 1 } 64 ∅ () 0

theorem versions_sound_busy : ∃ l, busy.head undisturbed 1 = some l ∧ l.VersionsHold := by
  have hsome : (busy.head undisturbed 1).isSome = true := by decide
  obtain ⟨l, hl⟩ := Option.isSome_iff_exists.1 hsome
  exact ⟨l, hl, (PregelLoop.versions_sound rfl rfl hl).1⟩

/-- What `busy` looks like after `n` supersteps. -/
def BusyAt (n : ℕ) (versions : FieldVersionTracker) (l : PregelLoop Transcript Unit) : Prop :=
  ∃ state fieldVersions pendingTasks nextUuid versionsSeen deltaCounters
    previousSuperstepChangedFields id,
    l = { busy with
      step := n
      state
      pendingTasks
      nextUuid
      fieldVersions
      versionsSeen
      deltaCounters
      previousSuperstepChangedFields } ∧
    state = {} ∧ fieldVersions = versions ∧ pendingTasks = [.pull id "a"]

/-- Every turn bumps both fields. -/
theorem BusyAt.turn {n : ℕ} {versions : FieldVersionTracker} {l : PregelLoop Transcript Unit}
    (h : BusyAt n versions l) (hn : n < 2 ^ 64 - 1) :
    ∃ l', l.turn {} = some l' ∧ BusyAt (n + 1) (versions.bumpAll 3#64) l' := by
  obtain ⟨_, _, _, _, _, _, p, id, rfl, rfl, rfl, rfl⟩ := h
  refine ⟨_, PregelLoop.turn_eq_some_iff.2 ⟨_, _, PregelLoop.superstep_eq_some_iff.2
    ⟨⟨hn, rfl, rfl, by simp [PregelLoop.outside], rfl⟩, _, rfl, rfl⟩, rfl⟩, ?_⟩
  refine ⟨_, _, _, _, _, _, _, _, rfl, ?_, ?_, rfl⟩
  · -- consuming fields does nothing
    exact List.foldl_fixed' (fun _ => rfl) ((List.range 2).filter p.hasField)
  · have hboth : FieldsChanged.none.merge ((FieldsChanged.none.setField 0).setField 1) = 3#64 := by
      decide
    exact congrArg (FieldVersionTracker.bumpAll _) hboth

/-- The versions of `busy` after `n` supersteps, which saturate. -/
structure BusyVersions (n : ℕ) (t : FieldVersionTracker) : Prop where
  length : t.versions.length = 64
  max : t.globalMax = min (2 * n) u64Max
  first : t.get 0 = min (2 * n - 1) u64Max
  second : t.get 1 = min (2 * n) u64Max

theorem BusyVersions.bumpAll {n : ℕ} {t : FieldVersionTracker} (h : BusyVersions n t) :
    BusyVersions (n + 1) (t.bumpAll 3#64) := by
  have hbump : t.bumpAll 3#64 = (t.bump 0).bump 1 := by
    rw [FieldVersionTracker.bumpAll_eq, h.length,
      show (List.range 64).filter (FieldsChanged.hasField 3#64) = [0, 1] by decide]
    rfl
  have hlen := h.length
  have hmax := h.max
  rw [hbump]
  refine ⟨by simpa using hlen, ?_, ?_, ?_⟩
  · rw [FieldVersionTracker.globalMax_bump, FieldVersionTracker.globalMax_bump]
    omega
  · rw [FieldVersionTracker.get_bump_of_ne (by decide),
      FieldVersionTracker.get_bump_self (by omega)]
    omega
  · rw [FieldVersionTracker.get_bump_self (by rw [FieldVersionTracker.length_bump]; omega),
      FieldVersionTracker.globalMax_bump]
    omega

theorem busy_head (n : ℕ) (hn : n ≤ 2 ^ 64 - 1) :
    ∃ l t, busy.head undisturbed n = some l ∧ BusyAt n t l ∧ BusyVersions n t := by
  induction n with
  | zero =>
    exact ⟨busy, busy.fieldVersions, rfl, ⟨_, _, _, _, _, _, _, _, rfl, rfl, rfl, rfl⟩,
      by decide, by decide, by decide, by decide⟩
  | succ n ih =>
    obtain ⟨l, t, hl, hat, hv⟩ := ih (by omega)
    obtain ⟨l', hturn, hat'⟩ := hat.turn (by omega)
    exact ⟨l', _, Machine.trace_succ_eq_some_iff.2 ⟨l, hl, hturn⟩, hat', hv.bumpAll⟩

/-- **Past `2 ^ 63` supersteps two fields have the same version.** -/
theorem busy_versions_coincide :
    ∃ n l, busy.head undisturbed n = some l ∧ l.fieldVersions.get 0 ≠ 0 ∧
      l.fieldVersions.get 0 = l.fieldVersions.get 1 := by
  obtain ⟨l, t, hl, hat, hv⟩ := busy_head (2 ^ 63) (by omega)
  have ht : l.fieldVersions = t := by
    obtain ⟨_, _, _, _, _, _, _, _, rfl, -, rfl, -⟩ := hat
    rfl
  have hfirst := hv.first
  have hsecond := hv.second
  unfold u64Max at hfirst hsecond
  refine ⟨2 ^ 63, l, hl, ?_, ?_⟩
  · rw [ht]
    omega
  · rw [ht]
    omega

end Juncture
