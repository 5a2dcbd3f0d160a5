import Juncture.Saver.Memory
import Mathlib.Data.List.Chain
import Mathlib.Data.List.Induction

/-!
# Which checkpoint a `MemorySaver` returns

A thread goes on from its last checkpoint, and `invoke` files a checkpoint once more to record what
the run returned.  So what is put last should be what `get_tuple` returns.  But the checkpoints are
ordered by their texts of time and identifier, and one that is put does not take the place of one
with its identifier.

* `MemorySaver.select_sortCheckpoints` : what a new checkpoint changes.
* `readsLast_iff` : when what was put last is what is returned, over every history.
-/

namespace Juncture

namespace Saver

variable [Chrono]

/-- A call of a `MemorySaver`. -/
inductive Op where
  | put (config : Config) (checkpoint : Checkpoint) (metadata : CheckpointMetadata)
  | getTuple (config : Config) (now : ℕ → ℤ)

/-- What a call leaves behind, when nothing expires. -/
def Op.step (s : MemorySaver) : Op → MemorySaver
  | .put config checkpoint metadata => (s.put config checkpoint metadata).1
  | .getTuple config now => (s.getTuple .disabled now config).1

/-- The saver after a history of calls. -/
def runOps (h : List Op) : MemorySaver := h.foldl Op.step {}

/-- What a call puts in a thread and namespace. -/
def Op.putAt (key : Place) : Op → Option CheckpointTuple
  | .put config checkpoint metadata =>
    config.threadId.bind fun threadId =>
      if config.place threadId = key then some { config, checkpoint, metadata } else none
  | .getTuple _ _ => none

/-- What a history has put in a thread and namespace. -/
def puts (h : List Op) (key : Place) : List CheckpointTuple := h.filterMap (Op.putAt key)

/-- The last of them that a configuration asks for. -/
def lastPut (config : Config) (ts : List CheckpointTuple) : Option CheckpointTuple :=
  match config.checkpointId with
  | none => ts.getLast?
  | some id => (ts.filter fun t => t.checkpoint.id == id).getLast?

/-- Whenever it is asked, the saver returns what was put last, with the metadata of that put. -/
def ReadsLast (h : List Op) : Prop :=
  ∀ pre, pre <+: h → ∀ config threadId now, config.threadId = some threadId →
    (((runOps pre).getTuple .disabled now config).2.map fun found =>
        found.map CheckpointTuple.content) =
      .ok ((lastPut config (puts pre (config.place threadId))).map CheckpointTuple.content)

/-- The checkpoint `t` comes after `q`, by the texts of time and identifier. -/
def Newer (t q : CheckpointTuple) : Prop :=
  q.checkpoint.createdAt < t.checkpoint.createdAt ∨
    q.checkpoint.createdAt = t.checkpoint.createdAt ∧ q.checkpoint.id < t.checkpoint.id

omit [Chrono] in
theorem newer_iff {t q : CheckpointTuple} : Newer t q ↔ ¬ MemorySaver.NewerOrSame q t := by
  unfold Newer MemorySaver.NewerOrSame
  obtain h | h | h := lt_trichotomy q.checkpoint.createdAt t.checkpoint.createdAt
  · simp [h, h.not_gt, h.ne']
  · simp [h]
  · simp [h, h.not_gt, h.ne']

namespace MemorySaver

/-! ### The list of a thread and namespace -/

@[simp] theorem unexpired_disabled (now : ℕ → ℤ) (ts : List CheckpointTuple) :
    unexpired .disabled now ts = ts := by
  have hnot : ∀ p : CheckpointTuple × ℕ,
      (!TtlConfig.disabled.isExpired (now p.2) p.1.checkpoint.createdAt) = true := fun _ => rfl
  simp [unexpired, hnot]

/-- Without expiry the cleanup changes nothing. -/
theorem checkpoints_lazyCleanup_disabled (s : MemorySaver) (now : ℕ → ℤ) (threadId ns : String)
    (key : Place) : (s.lazyCleanup .disabled now threadId ns).checkpoints key = s.checkpoints key := by
  simp only [lazyCleanup, TtlConfig.disabled, checkpoints]
  by_cases hkey : key = (threadId, ns)
  · rw [hkey, AList.lookup_insert]
    exact unexpired_disabled now _
  · rw [AList.lookup_insert_ne hkey]

omit [Chrono] in
theorem checkpoints_put (s : MemorySaver) (config : Config) (checkpoint : Checkpoint)
    (metadata : CheckpointMetadata) (key : Place) :
    (s.put config checkpoint metadata).1.checkpoints key =
      match (Op.put config checkpoint metadata).putAt key with
      | some t => sortCheckpoints (s.checkpoints key ++ [t])
      | none => s.checkpoints key := by
  cases hthread : config.threadId with
  | none => simp [put, Op.putAt, Config.getThreadId, hthread]
  | some threadId =>
    simp only [put, Op.putAt, Config.getThreadId, hthread, Option.bind_some]
    by_cases hkey : config.place threadId = key
    · rw [if_pos hkey, ← hkey]
      simp [checkpoints, Config.place]
    · rw [if_neg hkey]
      exact congrArg (Option.getD · []) (AList.lookup_insert_ne (Ne.symm hkey))

theorem checkpoints_step_getTuple (s : MemorySaver) (config : Config) (now : ℕ → ℤ) (key : Place) :
    (Op.step s (.getTuple config now)).checkpoints key = s.checkpoints key := by
  cases hthread : config.threadId with
  | none => simp [Op.step, getTuple, Config.getThreadId, hthread]
  | some threadId =>
    simp [Op.step, getTuple, Config.getThreadId, hthread, checkpoints_lazyCleanup_disabled]

theorem getTuple_content (s : MemorySaver) {config : Config} {threadId : String}
    (hthread : config.threadId = some threadId) (now : ℕ → ℤ) :
    ((s.getTuple .disabled now config).2.map fun found => found.map CheckpointTuple.content) =
      .ok ((select config (s.checkpoints (config.place threadId))).map CheckpointTuple.content) := by
  simp only [getTuple, Config.getThreadId, hthread, checkpoints_lazyCleanup_disabled, Except.map,
    Option.map_map, Config.place]
  rfl

/-- The stored checkpoints `ts` answer as if the last of `ps` counted. -/
def Tracks (ts ps : List CheckpointTuple) : Prop :=
  ∀ config, (select config ts).map CheckpointTuple.content =
    (lastPut config ps).map CheckpointTuple.content

omit [Chrono] in
theorem newer_congr {t q u : CheckpointTuple} (h : u.content = q.content) : Newer t u ↔ Newer t q := by
  obtain ⟨hcheckpoint, -⟩ := Prod.ext_iff.1 h
  simp only [CheckpointTuple.content] at hcheckpoint
  simp only [Newer, hcheckpoint]

omit [Chrono] in
/-- The newest checkpoint on file has the content of the last put. -/
theorem Tracks.head {ts ps : List CheckpointTuple} (h : Tracks ts ps) {q : CheckpointTuple}
    (hq : ps.getLast? = some q) : ∃ u rest, ts = u :: rest ∧ u.content = q.content := by
  have hhead := h {}
  simp only [select, lastPut, hq, Option.map_some] at hhead
  cases ts with
  | nil => simp at hhead
  | cons u rest => exact ⟨u, rest, rfl, by simpa using hhead⟩

omit [Chrono] in
theorem lastPut_append_self (config : Config) (ps : List CheckpointTuple) (t : CheckpointTuple) :
    lastPut config (ps ++ [t]) =
      if config.checkpointId.all fun id => t.checkpoint.id == id then some t
      else lastPut config ps := by
  cases hid : config.checkpointId with
  | none => simp [lastPut, hid]
  | some id =>
    by_cases ht : t.checkpoint.id = id <;> simp [lastPut, hid, ht, List.filter_append]

omit [Chrono] in
/-- A checkpoint that comes after the last one stands first from now on. -/
theorem Tracks.append_newer {ts ps : List CheckpointTuple} {t : CheckpointTuple}
    (hsorted : ts.Pairwise NewerOrSame) (h : Tracks ts ps)
    (hnew : ∀ q ∈ ps.getLast?, Newer t q) : Tracks (sortCheckpoints (ts ++ [t])) (ps ++ [t]) := by
  have hfront : sortCheckpoints (ts ++ [t]) = t :: ts := by
    rw [sortCheckpoints_append hsorted]
    cases ts with
    | nil => rfl
    | cons u rest =>
      -- `u` has the content of the last put, so `t` is newer than `u` as well
      have hu : ¬ NewerOrSame u t := by
        cases hq : ps.getLast? with
        | none =>
          have hnone := h {}
          simp [select, lastPut, hq] at hnone
        | some q =>
          obtain ⟨u', rest', hts, hcontent⟩ := h.head hq
          obtain ⟨rfl, rfl⟩ := List.cons.inj hts
          exact newer_iff.1 ((newer_congr hcontent).2 (hnew q hq))
      rw [List.takeWhile_cons_of_neg (by simpa using hu),
        List.dropWhile_cons_of_neg (by simpa using hu), List.nil_append]
  intro config
  rw [hfront, lastPut_append_self]
  cases hid : config.checkpointId with
  | none => simp [select, hid]
  | some id =>
    have hrest := h config
    simp only [select, hid] at hrest ⊢
    by_cases ht : t.checkpoint.id = id
    · simp [ht]
    · simpa [ht] using hrest

omit [Chrono] in
/-- One with the content of the last is sorted in behind it, and is not missed. -/
theorem Tracks.append_same {ts ps : List CheckpointTuple} {t q : CheckpointTuple}
    (hsorted : ts.Pairwise NewerOrSame) (h : Tracks ts ps) (hq : ps.getLast? = some q)
    (hsame : q.content = t.content) : Tracks (sortCheckpoints (ts ++ [t])) (ps ++ [t]) := by
  obtain ⟨u, rest, rfl, hcontent⟩ := h.head hq
  obtain ⟨hcheckpoint, -⟩ := Prod.ext_iff.1 (hcontent.trans hsame)
  simp only [CheckpointTuple.content] at hcheckpoint
  have hu : NewerOrSame u t := .inr ⟨by rw [hcheckpoint], by rw [hcheckpoint]⟩
  intro config
  rw [sortCheckpoints_append hsorted, List.takeWhile_cons_of_pos (by simpa using hu),
    List.dropWhile_cons_of_pos (by simpa using hu), List.cons_append, lastPut_append_self]
  cases hid : config.checkpointId with
  | none => simp [select, hid, hcontent, hsame]
  | some id =>
    by_cases ht : t.checkpoint.id = id
    · simp [select, hid, hcheckpoint, ht, hcontent, hsame]
    · -- another identifier is searched for past `t`
      have hrest := h config
      have hut : u.checkpoint.id ≠ id := hcheckpoint ▸ ht
      have hpast : (rest.takeWhile (fun u => decide (NewerOrSame u t)) ++
          t :: rest.dropWhile fun u => decide (NewerOrSame u t)).find?
            (fun t => t.checkpoint.id == id) = rest.find? fun t => t.checkpoint.id == id := by
        rw [List.find?_append, List.find?_cons_of_neg (by simpa using ht), ← List.find?_append,
          List.takeWhile_append_dropWhile]
      simpa [select, hid, hut, ht, hpast] using hrest

omit [Chrono] in
theorem pairwise_sortCheckpoints (ts : List CheckpointTuple) :
    (sortCheckpoints ts).Pairwise NewerOrSame :=
  List.pairwise_insertionSort NewerOrSame ts

end MemorySaver

/-! ### Histories -/

open Saver.MemorySaver

omit [Chrono] in
@[simp] theorem puts_append (h₁ h₂ : List Op) (key : Place) :
    puts (h₁ ++ h₂) key = puts h₁ key ++ puts h₂ key := List.filterMap_append

theorem runOps_snoc (h : List Op) (op : Op) : runOps (h ++ [op]) = op.step (runOps h) := by
  simp [runOps]

theorem checkpoints_runOps_snoc (h : List Op) (op : Op) (key : Place) :
    (runOps (h ++ [op])).checkpoints key =
      match op.putAt key with
      | some t => sortCheckpoints ((runOps h).checkpoints key ++ [t])
      | none => (runOps h).checkpoints key := by
  rw [runOps_snoc]
  cases op with
  | put config checkpoint metadata => exact checkpoints_put _ config checkpoint metadata key
  | getTuple config now => exact checkpoints_step_getTuple _ config now key

theorem pairwise_checkpoints (h : List Op) (key : Place) :
    ((runOps h).checkpoints key).Pairwise NewerOrSame := by
  induction h using List.reverseRecOn with
  | nil => exact List.Pairwise.nil
  | append_singleton h op ih =>
    rw [checkpoints_runOps_snoc]
    cases op.putAt key with
    | none => exact ih
    | some t => exact pairwise_sortCheckpoints _

/-- Each checkpoint of a thread and namespace comes after the one put before, or is a repetition of it. -/
def InOrder (ps : List CheckpointTuple) : Prop :=
  ps.IsChain fun q t => Newer t q ∨ q.content = t.content

omit [Chrono] in
theorem inOrder_snoc {ps : List CheckpointTuple} {t : CheckpointTuple} :
    InOrder (ps ++ [t]) ↔
      InOrder ps ∧ ∀ q ∈ ps.getLast?, Newer t q ∨ q.content = t.content := by
  simp [InOrder, List.isChain_append]

/-- While the puts come in order, what is on file answers with the last of them. -/
theorem tracks_of_inOrder {key : Place} {h : List Op} (horder : InOrder (puts h key)) :
    Tracks ((runOps h).checkpoints key) (puts h key) := by
  induction h using List.reverseRecOn with
  | nil =>
    intro config
    cases hid : config.checkpointId <;> simp [runOps, puts, checkpoints, select, lastPut, hid]
  | append_singleton h op ih =>
    rw [checkpoints_runOps_snoc]
    rw [puts_append] at horder ⊢
    cases hop : op.putAt key with
    | none => simpa [puts, hop] using ih (by simpa [puts, hop] using horder)
    | some t =>
      have hone : puts [op] key = [t] := by simp [puts, hop]
      rw [hone] at horder ⊢
      obtain ⟨hbefore, hlast⟩ := inOrder_snoc.1 horder
      have htracks := ih hbefore
      by_cases hsame : ∃ q, (puts h key).getLast? = some q ∧ q.content = t.content
      · obtain ⟨q, hq, hsame⟩ := hsame
        exact htracks.append_same (pairwise_checkpoints h key) hq hsame
      · refine htracks.append_newer (pairwise_checkpoints h key) fun q hq => ?_
        exact (hlast q hq).resolve_right fun heq => hsame ⟨q, hq, heq⟩

/-- What a thread is asked for without an identifier. -/
def latestOf (key : Place) : Config := { threadId := some key.1, checkpointNs := some key.2 }

/-- If each put of a history can be read back, they come in order. -/
theorem inOrder_of_tracks {key : Place} {h : List Op}
    (hreads : ∀ pre, pre <+: h → Tracks ((runOps pre).checkpoints key) (puts pre key)) :
    InOrder (puts h key) := by
  induction h using List.reverseRecOn with
  | nil => exact List.IsChain.nil
  | append_singleton h op ih =>
    have hbefore := ih fun pre hpre => hreads pre (hpre.trans (List.prefix_append _ _))
    rw [puts_append]
    cases hop : op.putAt key with
    | none => simpa [puts, hop] using hbefore
    | some t =>
      have hone : puts [op] key = [t] := by simp [puts, hop]
      rw [hone]
      refine inOrder_snoc.2 ⟨hbefore, fun q hq => ?_⟩
      by_cases hnew : Newer t q
      · exact .inl hnew
      · -- then the newest on file stays in front of `t`, and is returned for it
        right
        obtain ⟨u, rest, hts, hcontent⟩ := (tracks_of_inOrder hbefore).head hq
        have hu : NewerOrSame u t := by
          by_contra hnot
          exact hnew ((newer_congr hcontent).1 (newer_iff.2 hnot))
        have hsorted := pairwise_checkpoints h key
        have hread := hreads _ List.prefix_rfl {}
        rw [checkpoints_runOps_snoc, hop, puts_append, hone] at hread
        simp only [hts] at hread hsorted
        rw [sortCheckpoints_append hsorted, List.takeWhile_cons_of_pos (by simpa using hu)] at hread
        simp only [select, lastPut, List.cons_append, List.head?_cons, List.getLast?_append,
          List.getLast?_singleton, Option.some_or, Option.map_some, Option.some.injEq] at hread
        exact hcontent.symm.trans hread

theorem readsLast_iff_tracks {h : List Op} :
    ReadsLast h ↔
      ∀ key pre, pre <+: h → Tracks ((runOps pre).checkpoints key) (puts pre key) := by
  constructor
  · intro hreads key pre hpre config
    have hread := hreads pre hpre { latestOf key with checkpointId := config.checkpointId } key.1
      (fun _ => 0) rfl
    rw [getTuple_content _ rfl] at hread
    exact Except.ok.inj hread
  · intro htracks pre hpre config threadId now hthread
    rw [getTuple_content _ hthread, htracks _ pre hpre config]

/-- The saver returns what was put last, whenever and for whichever thread, namespace and identifier it
is asked, exactly if in every thread and namespace each checkpoint has a later time than the one put
before, or the same time and a greater identifier, or repeats it with its metadata. -/
theorem readsLast_iff (h : List Op) : ReadsLast h ↔ ∀ key, InOrder (puts h key) := by
  rw [readsLast_iff_tracks]
  constructor
  · exact fun htracks key => inOrder_of_tracks (htracks key)
  · intro horder key pre hpre
    obtain ⟨rest, rfl⟩ := hpre
    refine tracks_of_inOrder ?_
    have hkey := horder key
    rw [puts_append] at hkey
    exact (List.isChain_append.1 hkey).1

end Saver

open Saver

/-- A run has saved its only checkpoint, and `invoke` files it once more with the result. -/
def savedAgain : List Op :=
  [.put { threadId := some "thread" } { id := "1", createdAt := "1970-01-01T00:00:00+00:00" }
      { source := .loop, step := 1 },
    .put { threadId := some "thread" } { id := "1", createdAt := "1970-01-01T00:00:00+00:00" }
      { source := .loop, step := 1, returnValue := some (.bool true) }]

/-- The result is not returned: the checkpoint of the first put stays in front. -/
theorem savedAgain_not_readsLast : ¬ ∀ h, @ReadsLast epochChrono h := by
  intro hreads
  have htracks := (@readsLast_iff_tracks epochChrono savedAgain).1 (hreads _)
    ("thread", "") savedAgain List.prefix_rfl {}
  have hresult := congrArg (Option.map fun c => c.2.returnValue) htracks
  revert hresult
  decide

end Juncture
