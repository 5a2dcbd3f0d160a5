import Juncture.Core.State

/-!
# Field versions

Every field of the state has a version; a superstep gives each field it changed a new one.  Nodes
remember the versions that were current when they last ran.
-/

namespace Juncture

/-- `u64::MAX`, at which version counters saturate. -/
def u64Max : ℕ := 2 ^ 64 - 1

/-- `FieldVersionTracker`. -/
structure FieldVersionTracker where
  /-- Version of each field. -/
  versions : List ℕ
  /-- Largest version given out so far. -/
  globalMax : ℕ := 0
deriving DecidableEq

namespace FieldVersionTracker

/-- `new`. -/
def new (numFields : ℕ) : FieldVersionTracker := ⟨List.replicate numFields 0, 0⟩

/-- `bump`. -/
def bump (t : FieldVersionTracker) (fieldIdx : ℕ) : FieldVersionTracker :=
  let v := min (t.globalMax + 1) u64Max
  ⟨t.versions.set fieldIdx v, v⟩

/-- `bump_all`: new versions for the changed fields, in index order. -/
def bumpAll (t : FieldVersionTracker) (changed : FieldsChanged) : FieldVersionTracker :=
  (List.range t.versions.length).foldl
    (fun t i => if changed.hasField i then t.bump i else t) t

/-- `get`. -/
def get (t : FieldVersionTracker) (fieldIdx : ℕ) : ℕ := t.versions.getD fieldIdx 0

/-- What holds of the versions of every run: none is larger than the maximum, and as long as the
maximum has not saturated, no two fields have the same version but `0`. -/
structure Sound (t : FieldVersionTracker) : Prop where
  /-- The maximum bounds the versions. -/
  le : ∀ i, t.get i ≤ t.globalMax
  /-- The maximum is a `u64`. -/
  max_le : t.globalMax ≤ u64Max
  /-- Versions tell fields apart. -/
  distinct : t.globalMax < u64Max → ∀ i j, i ≠ j → t.get i ≠ 0 → t.get i ≠ t.get j

variable {t : FieldVersionTracker} {i j : ℕ}

theorem sound_new (numFields : ℕ) : (new numFields).Sound := by
  have hzero : ∀ i, (new numFields).get i = 0 := by
    intro i
    simp [new, get, List.getD_eq_getElem?_getD, List.getElem?_replicate]
    split_ifs <;> rfl
  refine ⟨fun i => Nat.le_of_eq (hzero i), Nat.zero_le _, fun _ i j _ h => ?_⟩
  exact absurd (hzero i) h

@[simp] theorem length_bump (t : FieldVersionTracker) (i : ℕ) :
    (t.bump i).versions.length = t.versions.length := List.length_set

theorem globalMax_bump (t : FieldVersionTracker) (i : ℕ) :
    (t.bump i).globalMax = min (t.globalMax + 1) u64Max := rfl

theorem get_bump_self (h : i < t.versions.length) :
    (t.bump i).get i = min (t.globalMax + 1) u64Max := by
  simp [bump, get, List.getD_eq_getElem?_getD, h]

/-- A bump leaves the other versions unchanged. -/
theorem get_bump_of_ne (h : j ≠ i) : (t.bump i).get j = t.get j := by
  simp [bump, get, List.getD_eq_getElem?_getD, Ne.symm h]

/-- A bump strictly increases the version of its field, unless the maximum has saturated. -/
theorem Sound.lt_bump (h : t.Sound) (hi : i < t.versions.length) (hmax : t.globalMax < u64Max) :
    t.get i < (t.bump i).get i := by
  have hle := h.le i
  rw [get_bump_self hi]
  omega

theorem Sound.le_bump (h : t.Sound) : t.get j ≤ (t.bump i).get j := by
  by_cases hj : j = i
  · subst hj
    by_cases hlen : j < t.versions.length
    · have hle := h.le j
      have hmax := h.max_le
      rw [get_bump_self hlen]
      omega
    · have hlen : t.versions.length ≤ j := by omega
      simp [bump, get, List.getD_eq_getElem?_getD, hlen]
  · rw [get_bump_of_ne hj]

theorem Sound.bumped (h : t.Sound) (i : ℕ) : (t.bump i).Sound := by
  have hmax := h.max_le
  have hget : ∀ j, (t.bump i).get j = t.get j ∨
      j = i ∧ (t.bump i).get j = min (t.globalMax + 1) u64Max := by
    intro j
    by_cases hj : j = i
    · subst hj
      by_cases hlen : j < t.versions.length
      · exact .inr ⟨rfl, get_bump_self hlen⟩
      · have hlen : t.versions.length ≤ j := by omega
        exact .inl (by simp [bump, get, List.getD_eq_getElem?_getD, hlen])
    · exact .inl (get_bump_of_ne hj)
  refine ⟨fun j => ?_, ?_, fun hlt j k hjk hj => ?_⟩
  · rw [globalMax_bump]
    have hle := h.le j
    obtain hj | ⟨-, hj⟩ := hget j <;> omega
  · rw [globalMax_bump]
    exact min_le_right _ _
  · rw [globalMax_bump] at hlt
    have hlt' : t.globalMax < u64Max := by omega
    have hlej := h.le j
    have hlek := h.le k
    obtain hj' | ⟨rfl, hj'⟩ := hget j <;> obtain hk' | ⟨hk, hk'⟩ := hget k
    · rw [hj'] at hj
      rw [hj', hk']
      exact h.distinct hlt' j k hjk hj
    · omega
    · omega
    · exact absurd hk.symm hjk

/-- **What a sequence of bumps does**: it keeps the versions sound, leaves the fields it does not
name alone, and puts those it names above the old maximum, unless the maximum saturates. -/
theorem Sound.foldl_bump (h : t.Sound) (is : List ℕ) (hlen : ∀ i ∈ is, i < t.versions.length) :
    (is.foldl bump t).Sound ∧ (is.foldl bump t).versions.length = t.versions.length ∧
      t.globalMax ≤ (is.foldl bump t).globalMax ∧
      (∀ j, t.get j ≤ (is.foldl bump t).get j) ∧
      (∀ j, j ∉ is → (is.foldl bump t).get j = t.get j) ∧
      ((is.foldl bump t).globalMax < u64Max → ∀ j ∈ is, t.globalMax < (is.foldl bump t).get j) := by
  induction is generalizing t with
  | nil => exact ⟨h, rfl, le_rfl, fun _ => le_rfl, fun _ _ => rfl, fun _ _ hj => nomatch hj⟩
  | cons i is ih =>
    have hi : i < t.versions.length := hlen i List.mem_cons_self
    obtain ⟨hs, hl, hmax, hle, hother, hnew⟩ := ih (h.bumped i) fun j hj => by
      rw [length_bump]
      exact hlen j (List.mem_cons_of_mem _ hj)
    have hmax' : t.globalMax ≤ (t.bump i).globalMax := by
      have := h.max_le
      rw [globalMax_bump]
      omega
    refine ⟨hs, hl.trans (length_bump t i), Nat.le_trans hmax' hmax,
      fun j => Nat.le_trans h.le_bump (hle j),
      fun j hj => ?_, fun hlt j hj => ?_⟩
    · rw [List.mem_cons, not_or] at hj
      exact (hother j hj.2).trans (get_bump_of_ne hj.1)
    · have hlt' : (t.bump i).globalMax < u64Max := Nat.lt_of_le_of_lt hmax hlt
      rw [globalMax_bump] at hlt'
      obtain rfl | hj := List.mem_cons.1 hj
      · refine Nat.lt_of_lt_of_le ?_ (hle j)
        rw [get_bump_self hi]
        omega
      · exact Nat.lt_of_le_of_lt hmax' (hnew hlt j hj)

/-- `bump_all` as a sequence of bumps. -/
theorem bumpAll_eq (t : FieldVersionTracker) (changed : FieldsChanged) :
    t.bumpAll changed = ((List.range t.versions.length).filter changed.hasField).foldl bump t := by
  unfold bumpAll
  generalize List.range t.versions.length = is
  induction is generalizing t with
  | nil => rfl
  | cons i is ih =>
    rw [List.foldl_cons, List.filter_cons]
    by_cases hi : changed.hasField i = true
    · rw [if_pos hi, if_pos hi, List.foldl_cons, ih]
    · rw [if_neg hi, if_neg hi, ih]

theorem length_foldl_bump (is : List ℕ) :
    ∀ t : FieldVersionTracker, (is.foldl bump t).versions.length = t.versions.length := by
  induction is with
  | nil => exact fun t => rfl
  | cons i is ih => exact fun t => (ih (t.bump i)).trans (length_bump t i)

/-- **The version a bump gives.**  In a sequence of bumps of different fields, each field gets the
next version in turn, and the others keep theirs. -/
theorem get_foldl_bump {is : List ℕ} (hnodup : is.Nodup) (t : FieldVersionTracker)
    (hlen : ∀ i ∈ is, i < t.versions.length) (j : ℕ) :
    (is.foldl bump t).get j =
      if j ∈ is then min (t.globalMax + (is.idxOf j + 1)) u64Max else t.get j := by
  induction is generalizing t with
  | nil => rfl
  | cons i is ih =>
    obtain ⟨hi, hnodup⟩ := List.nodup_cons.mp hnodup
    have hlen' : ∀ k ∈ is, k < (t.bump i).versions.length := fun k hk => by
      rw [length_bump]
      exact hlen k (List.mem_cons_of_mem i hk)
    rw [List.foldl_cons, ih hnodup _ hlen']
    by_cases hj : j ∈ is
    · have hne : i ≠ j := fun h => hi (h ▸ hj)
      have hmem : j ∈ i :: is := List.mem_cons_of_mem i hj
      rw [if_pos hj, if_pos hmem, List.idxOf_cons_ne is hne, globalMax_bump]
      -- saturating twice is saturating once
      omega
    · rw [if_neg hj]
      by_cases hji : j = i
      · subst hji
        rw [if_pos List.mem_cons_self, List.idxOf_cons_self,
          get_bump_self (hlen j List.mem_cons_self)]
      · rw [if_neg (by simp [hji, hj]), get_bump_of_ne hji]

/-- Several changes, one after the other, as a sequence of bumps. -/
theorem exists_foldl_bumpAll (changes : List FieldsChanged) (t : FieldVersionTracker) :
    ∃ is : List ℕ, changes.foldl bumpAll t = is.foldl bump t ∧
      ∀ i, i ∈ is ↔ i < t.versions.length ∧ ∃ c ∈ changes, c.hasField i = true := by
  induction changes generalizing t with
  | nil => exact ⟨[], rfl, by simp⟩
  | cons c changes ih =>
    obtain ⟨is, heq, hmem⟩ := ih (t.bumpAll c)
    refine ⟨(List.range t.versions.length).filter c.hasField ++ is, ?_, fun i => ?_⟩
    · rw [List.foldl_cons, heq, List.foldl_append, ← bumpAll_eq]
    · have hlen : (t.bumpAll c).versions.length = t.versions.length := by
        rw [bumpAll_eq, length_foldl_bump]
      rw [List.mem_append, hmem, hlen, List.mem_filter, List.mem_range, ← and_or_left]
      simp

end FieldVersionTracker

/-- `VersionsSeen`: the versions each node has seen. -/
structure VersionsSeen where
  /-- By node name. -/
  seen : Dict (List ℕ)

namespace VersionsSeen

/-- `new`. -/
def new (nodeNames : List String) (numFields : ℕ) : VersionsSeen :=
  ⟨Dict.ofList (nodeNames.map fun n => (n, List.replicate numFields 0))⟩

theorem lookup_new (nodeNames : List String) (numFields : ℕ) (n : String) :
    (new nodeNames numFields).seen.lookup n =
      if n ∈ nodeNames then some (List.replicate numFields 0) else none := by
  have hfold : ∀ (names : List String) (d : Dict (List ℕ)),
      ((names.map fun m => (m, List.replicate numFields 0)).foldl
        (fun d kv => d.insert kv.1 kv.2) d).lookup n =
        if n ∈ names then some (List.replicate numFields 0) else d.lookup n := by
    intro names
    induction names with
    | nil => exact fun d => rfl
    | cons m names ih =>
      intro d
      rw [List.map_cons, List.foldl_cons, ih]
      by_cases hn : n = m
      · subst hn
        simp
      · simp [hn, AList.lookup_insert_ne hn]
  exact hfold nodeNames ∅

/-- `mark_consumed`: a node that is not tracked stays untracked. -/
def markConsumed (v : VersionsSeen) (nodeName : String) (current : List ℕ) : VersionsSeen :=
  if v.seen.containsKey nodeName then ⟨v.seen.insert nodeName current⟩ else v

/-- `get_seen`. -/
def getSeen (v : VersionsSeen) (nodeName : String) : List ℕ := (v.seen.lookup nodeName).getD []

/-- `should_activate`.  A node that is not tracked is always activated. -/
def shouldActivate (v : VersionsSeen) (nodeName : String) (triggerFields : List ℕ)
    (current : List ℕ) : Bool :=
  match v.seen.lookup nodeName with
  | none => true
  | some seen => triggerFields.any fun i => decide (seen.getD i 0 < current.getD i 0)

/-- `compute_triggered_fields`. -/
def computeTriggeredFields (v : VersionsSeen) (nodeName : String) (triggerFields : List ℕ)
    (current : List ℕ) : List ℕ :=
  match v.seen.lookup nodeName with
  | none => triggerFields
  | some seen => triggerFields.filter fun i => decide (seen.getD i 0 < current.getD i 0)

theorem lookup_markConsumed (v : VersionsSeen) (nodeName n : String) (current : List ℕ) :
    (v.markConsumed nodeName current).seen.lookup n =
      if n = nodeName then (v.seen.lookup n).map fun _ => current else v.seen.lookup n := by
  unfold markConsumed
  by_cases hn : n = nodeName
  · subst hn
    rw [if_pos rfl]
    cases hl : v.seen.lookup n with
    | none => simp [Dict.containsKey, hl]
    | some seen => simp [Dict.containsKey, hl]
  · rw [if_neg hn]
    split_ifs
    · exact AList.lookup_insert_ne hn
    · rfl

/-- The nodes of a list have seen the given versions. -/
theorem lookup_foldl_markConsumed (current : List ℕ) (n : String) :
    ∀ (names : List String) (v : VersionsSeen),
      (names.foldl (fun v m => v.markConsumed m current) v).seen.lookup n =
        if n ∈ names then (v.seen.lookup n).map fun _ => current else v.seen.lookup n := by
  intro names
  induction names with
  | nil => exact fun v => rfl
  | cons m names ih =>
    intro v
    rw [List.foldl_cons, ih, lookup_markConsumed]
    by_cases hm : n = m
    · subst hm
      cases hl : v.seen.lookup n <;> simp
    · by_cases hn : n ∈ names
      · simp [hm, hn]
      · simp [hm, hn]

end VersionsSeen

end Juncture
