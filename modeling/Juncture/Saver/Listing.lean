import Juncture.Lib.Windows
import Juncture.Saver.Memory

/-!
# What a filter lists

A `CheckpointFilter` asks for a source, a range of steps, and for checkpoints on one side of a named one.
Each condition alone is about the list as it is stored.  The savers apply them one after the other, though,
and look a named checkpoint up in what the conditions before have left: if they have dropped it, then the
condition that names it is dropped as well.

* `answer` : what a filter asks for, by the positions in the whole list.
* `apply_eq` : what it gets.
* `list_exact` : the two are the same in particular if the conditions leave the checkpoints that the
  filter names, and otherwise only if nothing stands on the wrong side of them that could be listed.
-/

namespace Juncture

namespace Saver

/-- The checkpoint has the identifier, if there is one. -/
def CheckpointTuple.isNamed (t : CheckpointTuple) (id : Option String) : Bool :=
  id.any fun id => t.checkpoint.id == id

namespace CheckpointFilter

variable (f : CheckpointFilter) (ts : List CheckpointTuple)

/-- The conditions on the metadata. -/
def passes (t : CheckpointTuple) : Bool :=
  f.source.all (fun source => t.metadata.source == source) &&
    f.stepGte.all (fun step => decide (step ≤ t.metadata.step)) &&
    f.stepLte.all fun step => decide (t.metadata.step ≤ step)

/-- Where the named checkpoint stands. -/
def position (id : Option String) : Option ℕ :=
  id.bind fun id => ts.findIdx? fun t => t.checkpoint.id == id

/-- The conditions on the position. -/
def within (i : ℕ) : Bool :=
  (position ts f.before).all (fun pos => decide (i < pos)) &&
    (position ts f.after).all fun pos => decide (pos < i)

/-- The checkpoints that satisfy every condition. -/
def matching : List CheckpointTuple :=
  (ts.zipIdx.filter fun p => f.passes p.1 && f.within ts p.2).map Prod.fst

/-- What the filter asks for: the first of them. -/
def answer : List CheckpointTuple :=
  match f.limit with
  | some limit => (f.matching ts).take limit
  | none => f.matching ts

/-- The conditions of the filter, each as a filter of its own. -/
def conditions : List CheckpointFilter :=
  [{ source := f.source }, { stepGte := f.stepGte }, { stepLte := f.stepLte }, { before := f.before },
    { after := f.after }]

/-- What is listed is what the filter asks for, and nothing that one condition alone excludes. -/
structure Exact (out : List CheckpointTuple) : Prop where
  /-- The first checkpoints that satisfy every condition, in order. -/
  eq_answer : out = f.answer ts
  /-- Each is also listed for each condition alone. -/
  alone : ∀ t ∈ out, ∀ g ∈ f.conditions, t ∈ g.apply ts

/-! ### When it is -/

/-- Where the list is cut for `before`: at the checkpoint of this name that passes. -/
def cut : Option ℕ := Window.first (fun _ t => f.passes t && t.isNamed f.before) ts

/-- The checkpoint at this position passes, and stands before the cut. -/
def kept (i : ℕ) (t : CheckpointTuple) : Bool :=
  f.passes t && (f.cut ts).all fun pos => decide (i < pos)

/-- If `after` names a checkpoint of the list, then this one is kept, or all that are kept stand after it
and have other names. -/
def StartsRight : Prop :=
  ∀ pos ∈ position ts f.after, (∃ t, ts[pos]? = some t ∧ f.kept ts pos t = true) ∨
    ∀ i t, ts[i]? = some t → f.kept ts i t = true → pos < i ∧ t.isNamed f.after = false

/-- If `before` names a checkpoint of the list, then this one passes, or all that are kept, and stand after
the one that `after` names, stand before it, or there are enough checkpoints that satisfy every
condition. -/
def EndsRight : Prop :=
  ∀ pos ∈ position ts f.before, (∃ t, ts[pos]? = some t ∧ f.passes t = true) ∨
    (∀ i t, ts[i]? = some t → f.kept ts i t = true →
      ((position ts f.after).all fun start => decide (start < i)) = true → i < pos) ∨
    ∃ limit ∈ f.limit, limit ≤ (f.matching ts).length

/-- Nothing is asked for, or both ends are right. -/
def Resolved : Prop := f.limit = some 0 ∨ f.StartsRight ts ∧ f.EndsRight ts

/-! ### What the savers compute -/

/-- Where the list starts for `after`: behind the checkpoint of this name that is kept. -/
def start : Option ℕ := Window.first (fun i t => f.kept ts i t && t.isNamed f.after) ts

/-- The checkpoint at this position is left by all conditions, as they are applied. -/
def chosen (i : ℕ) (t : CheckpointTuple) : Bool :=
  f.kept ts i t && (f.start ts).all fun pos => decide (pos < i)

/-- The checkpoint at this position is kept, and stands behind the one that `after` names. -/
def behind (i : ℕ) (t : CheckpointTuple) : Bool :=
  f.kept ts i t && (position ts f.after).all fun pos => decide (pos < i)

variable {f ts}

theorem takeBefore_eq (id : Option String) (ts : List CheckpointTuple) :
    MemorySaver.takeBefore id ts = Window.takeTo (fun t => t.isNamed id) ts := by
  cases id with
  | none =>
    have hnone : (ts.findIdx? fun _ => false) = none := List.findIdx?_eq_none_iff.mpr fun _ _ => rfl
    simp [MemorySaver.takeBefore, Window.takeTo, CheckpointTuple.isNamed, hnone]
  | some id => rfl

theorem dropThrough_eq (id : Option String) (ts : List CheckpointTuple) :
    MemorySaver.dropThrough id ts = Window.dropTo (fun t => t.isNamed id) ts := by
  cases id with
  | none =>
    have hnone : (ts.findIdx? fun _ => false) = none := List.findIdx?_eq_none_iff.mpr fun _ _ => rfl
    simp [MemorySaver.dropThrough, Window.dropTo, CheckpointTuple.isNamed, hnone]
  | some id => rfl

theorem position_eq (id : Option String) (ts : List CheckpointTuple) :
    position ts id = Window.first (fun _ t => t.isNamed id) ts := by
  rw [← Window.findIdx?_eq_first]
  cases id with
  | none => exact (List.findIdx?_eq_none_iff.mpr fun _ _ => rfl).symm
  | some id => rfl

theorem matching_eq : f.matching ts = Window.select (fun i t => f.passes t && f.within ts i) ts := rfl

/-- What the savers list, by the positions in the whole list. -/
theorem apply_eq (f : CheckpointFilter) (ts : List CheckpointTuple) :
    f.apply ts =
      match f.limit with
      | some limit => (Window.select (f.chosen ts) ts).take limit
      | none => Window.select (f.chosen ts) ts := by
  have hfilter : (((ts.filter fun t => f.source.all fun source => t.metadata.source == source).filter
      fun t => f.stepGte.all fun step => decide (step ≤ t.metadata.step)).filter
      fun t => f.stepLte.all fun step => decide (t.metadata.step ≤ step)) =
      Window.select (fun _ => f.passes) ts := by
    rw [List.filter_filter, List.filter_filter, ← Window.filter_eq_select]
    refine List.filter_congr fun t _ => ?_
    unfold passes
    ac_rfl
  unfold CheckpointFilter.apply
  simp only [hfilter, takeBefore_eq, dropThrough_eq, Window.takeTo_select, Window.dropTo_select]
  rfl

/-! ### When the ends are right -/

/-- The cut is where `before` stands, or further back. -/
theorem lt_cut {pos : ℕ} (hpos : position ts f.before = some pos) {i : ℕ} (h : i < pos) :
    ((f.cut ts).all fun pos => decide (i < pos)) = true := by
  rw [Option.all_eq_true]
  intro k hk
  rw [position_eq] at hpos
  exact decide_eq_true (h.trans_le (Window.le_of_first_and hpos hk))

theorem cut_eq_none (hpos : position ts f.before = none) : f.cut ts = none := by
  rw [position_eq] at hpos
  exact Window.first_and_eq_none hpos

theorem cut_eq_some {pos : ℕ} {t : CheckpointTuple} (hpos : position ts f.before = some pos)
    (ht : ts[pos]? = some t) (hpass : f.passes t = true) : f.cut ts = some pos := by
  rw [position_eq] at hpos
  exact Window.first_and_eq_some hpos ht hpass

/-- If nothing that is kept has the name, then the list is not cut for `after`. -/
theorem start_eq_none
    (h : ∀ i t, ts[i]? = some t → f.kept ts i t = true → t.isNamed f.after = false) :
    f.start ts = none := by
  refine Window.first_eq_none_iff.mpr fun i t ht => ?_
  cases hkept : f.kept ts i t with
  | false => rfl
  | true => exact h i t ht hkept

/-- Where the start is right, it is that of the filter for all that is kept. -/
theorem StartsRight.start_eq (h : f.StartsRight ts) {i : ℕ} {t : CheckpointTuple}
    (ht : ts[i]? = some t) (hkept : f.kept ts i t = true) :
    ((f.start ts).all fun pos => decide (pos < i)) =
      (position ts f.after).all fun pos => decide (pos < i) := by
  cases hpos : position ts f.after with
  | none =>
    rw [position_eq] at hpos
    have hstart : f.start ts = none := Window.first_and_eq_none hpos
    rw [hstart]
  | some pos =>
    obtain ⟨u, hu, hkeptu⟩ | hafter := h pos hpos
    · rw [position_eq] at hpos
      have hstart : f.start ts = some pos := Window.first_and_eq_some hpos hu hkeptu
      rw [hstart]
    · rw [start_eq_none fun j u hu hkeptu => (hafter j u hu hkeptu).2]
      simpa using (hafter i t ht hkept).1

/-- What the savers choose, where the start is right. -/
theorem StartsRight.chosen_eq (h : f.StartsRight ts) :
    Window.select (f.chosen ts) ts = Window.select (f.behind ts) ts := by
  refine Window.select_congr fun i t ht => ?_
  unfold chosen behind
  cases hkept : f.kept ts i t with
  | false => rfl
  | true => rw [h.start_eq ht hkept]

theorem select_behind (hpos : position ts f.before = none) :
    Window.select (f.behind ts) ts = f.matching ts := by
  rw [matching_eq]
  refine Window.select_congr fun i t _ => ?_
  simp [behind, kept, within, cut_eq_none hpos, hpos]

/-- What satisfies every condition is what stands before `before` of the rest. -/
theorem select_behind_append {pos : ℕ} (hpos : position ts f.before = some pos) :
    Window.select (f.behind ts) ts =
      f.matching ts ++ Window.select (fun i t => f.behind ts i t && decide (pos ≤ i)) ts := by
  have hfront : Window.select (fun i t => f.behind ts i t && decide (i < pos)) ts = f.matching ts := by
    rw [matching_eq]
    refine Window.select_congr fun i t _ => ?_
    by_cases hi : i < pos
    · simp [behind, kept, within, hpos, lt_cut hpos hi, hi]
    · simp [within, hpos, hi]
  rw [← hfront]
  exact Window.select_eq_append pos ts

/-- If no kept checkpoint is left behind `before`, then nothing else is chosen. -/
theorem select_behind_of_lt {pos : ℕ} (hpos : position ts f.before = some pos)
    (h : ∀ i t, ts[i]? = some t → f.kept ts i t = true →
      ((position ts f.after).all fun start => decide (start < i)) = true → i < pos) :
    Window.select (f.behind ts) ts = f.matching ts := by
  have hback : Window.select (fun i t => f.behind ts i t && decide (pos ≤ i)) ts = [] := by
    refine Window.select_eq_nil fun i t ht => ?_
    by_contra hne
    simp only [behind, Bool.not_eq_false, Bool.and_eq_true, decide_eq_true_eq] at hne
    exact absurd (h i t ht hne.1.1 hne.1.2) (Nat.not_lt.mpr hne.2)
  rw [select_behind_append hpos, hback, List.append_nil]

/-- **Enough for a filter.**  If both ends are right, then what is listed is what is asked for. -/
theorem apply_eq_answer (h : f.Resolved ts) : f.apply ts = f.answer ts := by
  rw [apply_eq, answer]
  obtain hzero | ⟨hstart, hend⟩ := h
  · simp [hzero]
  rw [hstart.chosen_eq]
  cases hpos : position ts f.before with
  | none => rw [select_behind hpos]
  | some pos =>
    obtain ⟨u, hu, hpass⟩ | hnone | ⟨limit, hlimit, hle⟩ := hend pos hpos
    · -- the list is cut where `before` stands
      rw [select_behind_of_lt hpos fun i t _ hkept _ => ?_]
      have hcut := (Bool.and_eq_true_iff.mp hkept).2
      rw [cut_eq_some hpos hu hpass] at hcut
      simpa using hcut
    · rw [select_behind_of_lt hpos hnone]
    · obtain hlimit : f.limit = some limit := hlimit
      rw [hlimit, select_behind_append hpos]
      exact List.take_append_of_le_length hle

/-! ### Conditions alone -/

theorem resolved_of_no_names (hbefore : f.before = none) (hafter : f.after = none) : f.Resolved ts := by
  refine .inr ⟨fun pos hpos => ?_, fun pos hpos => ?_⟩
  · simp [position, hafter] at hpos
  · simp [position, hbefore] at hpos

theorem exists_of_position {id : Option String} {pos : ℕ} (h : position ts id = some pos) :
    ∃ t, ts[pos]? = some t ∧ t.isNamed id = true := by
  rw [position_eq, Window.first_eq_some_iff] at h
  exact h.1

theorem resolved_conditions {g : CheckpointFilter} (hg : g ∈ f.conditions) : g.Resolved ts := by
  simp only [conditions, List.mem_cons, List.not_mem_nil, or_false] at hg
  obtain rfl | rfl | rfl | rfl | rfl := hg
  · exact resolved_of_no_names rfl rfl
  · exact resolved_of_no_names rfl rfl
  · exact resolved_of_no_names rfl rfl
  · refine .inr ⟨fun pos hpos => by simp [position] at hpos, fun pos hpos => .inl ?_⟩
    obtain ⟨t, ht, -⟩ := exists_of_position hpos
    exact ⟨t, ht, rfl⟩
  · refine .inr ⟨fun pos hpos => .inl ?_, fun pos hpos => by simp [position] at hpos⟩
    obtain ⟨t, ht, -⟩ := exists_of_position hpos
    refine ⟨t, ht, ?_⟩
    rw [kept, cut_eq_none rfl]
    rfl

/-- What satisfies every condition satisfies each. -/
theorem mem_apply_of_mem_matching {t : CheckpointTuple} (ht : t ∈ f.matching ts)
    {g : CheckpointFilter} (hg : g ∈ f.conditions) : t ∈ g.apply ts := by
  have hanswer : g.apply ts = g.matching ts := by
    rw [apply_eq_answer (resolved_conditions hg), answer]
    simp only [conditions, List.mem_cons, List.not_mem_nil, or_false] at hg
    obtain rfl | rfl | rfl | rfl | rfl := hg <;> rfl
  rw [matching_eq] at ht
  obtain ⟨i, hi, h⟩ := Window.mem_select.mp ht
  rw [hanswer, matching_eq]
  refine Window.mem_select.mpr ⟨i, hi, ?_⟩
  simp only [passes, within, Bool.and_eq_true] at h
  obtain ⟨⟨⟨hsource, hgte⟩, hlte⟩, hbefore, hafter⟩ := h
  simp only [conditions, List.mem_cons, List.not_mem_nil, or_false] at hg
  obtain rfl | rfl | rfl | rfl | rfl := hg <;>
    simp only [passes, within, position, Option.bind_none, Option.all_none, Bool.true_and, Bool.and_true]
  all_goals assumption

/-! ### When the ends have to be right -/

/-- If the answer is right, then the limit is reached before any checkpoint that is chosen wrongly. -/
theorem limit_le_of_ne (hts : ts.Nodup) (h : f.apply ts = f.answer ts) {i : ℕ} {t : CheckpointTuple}
    (ht : ts[i]? = some t) (hne : f.chosen ts i t ≠ (f.passes t && f.within ts i)) :
    ∃ limit ∈ f.limit, limit ≤ (Window.select (fun j u => (f.passes u && f.within ts j) &&
      decide (j < i)) ts).length := by
  rw [apply_eq, answer, matching_eq] at h
  cases hlimit : f.limit with
  | some limit =>
    rw [hlimit] at h
    exact ⟨limit, rfl, Window.le_of_take_select_eq hts h ht hne⟩
  | none =>
    rw [hlimit] at h
    have hle := Window.le_of_take_select_eq hts (congrArg (List.take (ts.length + 1)) h) ht hne
    have hlength : (Window.select (fun j u => (f.passes u && f.within ts j) && decide (j < i)) ts).length ≤
        ts.length := Window.select_sublist.length_le
    omega

/-- Only one checkpoint has the name if the identifiers are distinct. -/
theorem eq_position (hids : (ts.map fun t => t.checkpoint.id).Nodup) {id : Option String} {pos j : ℕ}
    (hpos : position ts id = some pos) {u : CheckpointTuple} (hu : ts[j]? = some u)
    (hnamed : u.isNamed id = true) : j = pos := by
  obtain ⟨v, hv, hnamedv⟩ := exists_of_position hpos
  cases id with
  | none => cases hnamed
  | some id =>
    have hsame : u.checkpoint.id = v.checkpoint.id := by
      simp only [CheckpointTuple.isNamed, Option.any_some, beq_iff_eq] at hnamed hnamedv
      rw [hnamed, hnamedv]
    refine (List.getElem?_inj ?_ hids).mp ?_
    · rw [List.length_map]
      exact (List.getElem?_eq_some_iff.mp hu).1
    · rw [List.getElem?_map, List.getElem?_map, hu, hv, Option.map_some, Option.map_some, hsame]

theorem startsRight_of_answer (hids : (ts.map fun t => t.checkpoint.id).Nodup)
    (h : f.apply ts = f.answer ts) (hzero : f.limit ≠ some 0) : f.StartsRight ts := by
  intro pos (hpos : position ts f.after = some pos)
  by_cases hkeeps : ∃ t, ts[pos]? = some t ∧ f.kept ts pos t = true
  · exact .inl hkeeps
  -- no other checkpoint has the name, so that the condition is dropped
  have hother : ∀ j u, ts[j]? = some u → f.kept ts j u = true → u.isNamed f.after = false := by
    intro j u hu hkept
    by_contra hnamed
    obtain rfl := eq_position hids hpos hu (by simpa using hnamed)
    exact hkeeps ⟨u, hu, hkept⟩
  have hstart := start_eq_none hother
  refine .inr fun i t ht hkept => ⟨?_, hother i t ht hkept⟩
  by_contra hi
  have hspec : f.within ts i = false := by simp [within, hpos, hi]
  have hchosen : f.chosen ts i t = true := by rw [chosen, hkept, hstart]; rfl
  obtain ⟨limit, hlimit, hle⟩ := limit_le_of_ne hids.of_map h ht (by rw [hchosen, hspec, Bool.and_false]; decide)
  rw [Window.select_eq_nil fun j u _ => ?_] at hle
  · exact hzero (Nat.le_zero.mp hle ▸ hlimit)
  · by_contra hne
    simp only [within, hpos, Option.all_some, Bool.not_eq_false, Bool.and_eq_true, decide_eq_true_eq] at hne
    omega

theorem endsRight_of_answer (hts : ts.Nodup) (h : f.apply ts = f.answer ts) (hstart : f.StartsRight ts) :
    f.EndsRight ts := by
  intro pos (hpos : position ts f.before = some pos)
  by_cases hfew : ∃ limit ∈ f.limit, limit ≤ (f.matching ts).length
  · exact .inr (.inr hfew)
  refine .inr (.inl fun i t ht hkept hafter => ?_)
  by_contra hi
  have hspec : f.within ts i = false := by simp [within, hpos, hi]
  have hchosen : f.chosen ts i t = true := by rw [chosen, hkept, hstart.start_eq ht hkept]; exact hafter
  obtain ⟨limit, hlimit, hle⟩ := limit_le_of_ne hts h ht (by rw [hchosen, hspec, Bool.and_false]; decide)
  refine hfew ⟨limit, hlimit, hle.trans ?_⟩
  have hsplit := congrArg List.length
    (Window.select_eq_append (p := fun j u => f.passes u && f.within ts j) i ts)
  rw [List.length_append] at hsplit
  exact (Nat.le_add_right _ _).trans hsplit.ge

/-- **What a filter lists.**  It is what it asks for if both ends are right, and, where identifiers are
distinct, only then. -/
theorem list_exact (f : CheckpointFilter) (ts : List CheckpointTuple) :
    (f.Resolved ts → f.Exact ts (f.apply ts)) ∧
      ((ts.map fun t => t.checkpoint.id).Nodup → f.Exact ts (f.apply ts) → f.Resolved ts) := by
  refine ⟨fun h => ?_, fun hids h => ?_⟩
  · have hanswer := apply_eq_answer h
    refine ⟨hanswer, fun t ht g hg => mem_apply_of_mem_matching ?_ hg⟩
    rw [hanswer, answer] at ht
    cases hlimit : f.limit with
    | none => rwa [hlimit] at ht
    | some limit =>
      rw [hlimit] at ht
      exact List.mem_of_mem_take ht
  · by_cases hzero : f.limit = some 0
    · exact .inl hzero
    have hstart := startsRight_of_answer hids h.eq_answer hzero
    exact .inr ⟨hstart, endsRight_of_answer hids.of_map h.eq_answer hstart⟩

/-- A checkpoint of the loop, or of an input. -/
def sampleTuple (id : String) (source : CheckpointSource) : CheckpointTuple where
  config := {}
  checkpoint := { id, createdAt := "" }
  metadata := { source, step := 0 }

/-- The checkpoint that `before` names is none of the loop: the condition is dropped with it. -/
theorem inputCursor_not_exact :
    ¬ ({ source := some .loop, before := some "c1" } : CheckpointFilter).Exact
        [sampleTuple "c2" .loop, sampleTuple "c1" .input, sampleTuple "c0" .loop]
        (CheckpointFilter.apply { source := some .loop, before := some "c1" }
          [sampleTuple "c2" .loop, sampleTuple "c1" .input, sampleTuple "c0" .loop]) :=
  fun h => absurd (congrArg List.length h.eq_answer) (by decide)

end CheckpointFilter

/-- `MemorySaver` lists what the filter gets from the checkpoints that are left after cleaning up. -/
theorem MemorySaver.list_eq_apply [Chrono] (ttl : TtlConfig) (now : ℕ → ℤ) (s : MemorySaver)
    {config : Config} {threadId : String} (h : config.getThreadId = .ok threadId) (f : CheckpointFilter) :
    (s.list ttl now config (some f)).2 =
      .ok (f.apply ((s.lazyCleanup ttl now threadId config.getCheckpointNs).checkpoints
        (threadId, config.getCheckpointNs))) := by
  simp only [MemorySaver.list, h]

end Saver

end Juncture
