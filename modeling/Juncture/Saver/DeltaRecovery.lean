import Juncture.Lib.Roster
import Juncture.Saver.Types
import Mathlib.Data.List.Sort
import Mathlib.Data.String.Basic

/-!
# Recovery from deltas

A checkpoint between two full snapshots need not have the state: it is recovered from the last full snapshot
before it and the writes that were added since.  The checkpoints come in the order of their steps, but
`recover_from_deltas` tells by their identifiers, as text, which of them come after the snapshot, and in
which order.

* `recoverFromDeltas` : the function.
* `replayed` : what is to be recovered, by the order of the list.
* `recovers_iff` : it is recovered if the writes can be merged, and each channel has the same last value, or
  the same items, in both orders.
* `consistent_of_ascending` : for this it is enough that the identifiers ascend.
-/

namespace Juncture

namespace Saver

/-! ### The members of an object -/

/-- The members of an object. -/
abbrev Members := List (String × Json)

/-- `get` of an object. -/
def member (channel : String) (members : Members) : Option Json :=
  (Roster.lookup Prod.fst channel members).map Prod.snd

/-- `insert` of an object. -/
def insertMember (channel : String) (value : Json) (members : Members) : Members :=
  Roster.put Prod.fst (channel, value) members

theorem member_insertMember (channel channel' : String) (value : Json) (members : Members) :
    member channel' (insertMember channel value members) =
      if channel = channel' then some value else member channel' members := by
  unfold member insertMember
  rw [Roster.lookup_put]
  split <;> rfl

theorem get_obj (members : Members) (channel : String) :
    (Json.obj members).get channel = member channel members := rfl

/-! ### Recovery -/

/-- A full snapshot has a state that is an object with members. -/
def Checkpoint.isFull (c : Checkpoint) : Bool :=
  match c.channelValues with
  | .obj members => !members.isEmpty
  | _ => false

/-- The members of the state. -/
def Checkpoint.members (c : Checkpoint) : Members :=
  match c.channelValues with
  | .obj members => members
  | _ => []

/-- The replay of one write: the items of an array are appended to an array, or to nothing, and lost
otherwise; any other value replaces what is there. -/
def applyWrite (members : Members) (write : PendingWrite) : Members :=
  match write.value with
  | .arr values =>
    match (member write.channel members).getD (.arr []) with
    | .arr items => insertMember write.channel (.arr (items ++ values)) members
    | _ => members
  | value => insertMember write.channel value members

/-- `modified_channels`: how often each channel was written. -/
def modifiedChannels (writes : List PendingWrite) : Dict ℕ :=
  writes.foldl (fun d write => d.insert write.channel ((d.lookup write.channel).getD 0 + 1)) ∅

/-- The channel versions after these modifications. -/
def bumpVersions (versions modified : Dict ℕ) : Dict ℕ :=
  modified.entries.foldl (fun d e => d.insert e.1 ((d.lookup e.1).getD 0 + e.2)) versions

/-- `all_deltas`: the writes of the checkpoints whose identifiers are greater, by identifier. -/
def allDeltas (relevant : List CheckpointTuple) (baseId : String) : List (String × PendingWrite) :=
  (relevant.flatMap fun t =>
    if t.checkpoint.id ≤ baseId then []
    else t.pendingWrites.map fun write => (t.checkpoint.id, write)).insertionSort fun a b => a.1 ≤ b.1

/-- `recover_from_deltas`. -/
def recoverFromDeltas (checkpoints : List CheckpointTuple) (targetCheckpointId : String) :
    Except CheckpointError (Option Checkpoint) :=
  match checkpoints.findIdx? fun t => t.checkpoint.id == targetCheckpointId with
  | none => .ok none
  | some targetIdx =>
    let relevant := checkpoints.take (targetIdx + 1)
    match relevant.reverse.find? fun t => t.checkpoint.isFull with
    | none => .error (.deserialize "No full snapshot found in checkpoint chain")
    | some base =>
      let writes := (allDeltas relevant base.checkpoint.id).map Prod.snd
      match base.checkpoint.channelValues with
      | .obj channelValues =>
        let modified := modifiedChannels writes
        .ok (some { base.checkpoint with
          channelValues := .obj (writes.foldl applyWrite channelValues)
          channelVersions := bumpVersions base.checkpoint.channelVersions modified
          newVersions := modified
          countersSinceDeltaSnapshot := ∅ })
      | _ => .error (.deserialize "Base checkpoint channel_values is not an object")

/-! ### What is to be recovered -/

/-- The writes of the checkpoints after the last full snapshot, in the order of the list. -/
def writesSince (relevant : List CheckpointTuple) : List PendingWrite :=
  (relevant.reverse.takeWhile fun t => !t.checkpoint.isFull).reverse.flatMap CheckpointTuple.pendingWrites

/-- The replay of one write, unless it is an array for a channel that has another value. -/
def mergeWrite (members : Members) (write : PendingWrite) : Option Members :=
  match write.value, (member write.channel members).getD (.arr []) with
  | .arr values, .arr items => some (insertMember write.channel (.arr (items ++ values)) members)
  | .arr _, _ => none
  | value, _ => some (insertMember write.channel value members)

/-- The state to recover, if there is a full snapshot and the writes since can be merged. -/
def replayed (relevant : List CheckpointTuple) : Option Members :=
  (relevant.reverse.find? fun t => t.checkpoint.isFull).bind fun base =>
    (writesSince relevant).foldlM mergeWrite base.checkpoint.members

/-- If the target is there, then its state is recovered, or an error tells that there is none. -/
def Recovers (checkpoints : List CheckpointTuple) (targetCheckpointId : String) : Prop :=
  ∀ targetIdx, (checkpoints.findIdx? fun t => t.checkpoint.id == targetCheckpointId) = some targetIdx →
    match replayed (checkpoints.take (targetIdx + 1)) with
    | some members => ∃ c, recoverFromDeltas checkpoints targetCheckpointId = .ok (some c) ∧
        ∀ channel, c.channelValues.get channel = member channel members
    | none => ∃ e, recoverFromDeltas checkpoints targetCheckpointId = .error e

/-! ### When it is recovered -/

/-- The value is an array. -/
def isArray : Json → Bool
  | .arr _ => true
  | _ => false

/-- The items of an array. -/
def itemsOf : Json → List Json
  | .arr items => items
  | _ => []

/-- The values of a channel: that of the snapshot, if it has one, and those that are written. -/
def history (members : Members) (writes : List PendingWrite) (channel : String) : List Json :=
  (member channel members).toList ++
    (writes.filter fun write => write.channel == channel).map PendingWrite.value

/-- No array comes after another value. -/
def Mergeable (values : List Json) : Prop :=
  values.Pairwise fun a b => isArray b = true → isArray a = true

instance (values : List Json) : Decidable (Mergeable values) :=
  inferInstanceAs (Decidable (values.Pairwise fun a b => isArray b = true → isArray a = true))

/-- The last value that is not an array. -/
def lastValue (values : List Json) : Option Json := (values.filter fun v => !isArray v).getLast?

/-- The same last value, or, where there are only arrays, the same items. -/
structure Alike (values values' : List Json) : Prop where
  /-- The last value that is not an array is the same. -/
  last : lastValue values = lastValue values'
  /-- Arrays have the same items, and are there or not there in both. -/
  items : lastValue values = none →
    values.flatMap itemsOf = values'.flatMap itemsOf ∧ (values = [] ↔ values' = [])

/-- If the target and a full snapshot are there, then the writes since the snapshot can be merged, and those
with greater identifiers, by identifier, are alike for each channel. -/
def Consistent (checkpoints : List CheckpointTuple) (targetCheckpointId : String) : Prop :=
  ∀ targetIdx, (checkpoints.findIdx? fun t => t.checkpoint.id == targetCheckpointId) = some targetIdx →
    let relevant := checkpoints.take (targetIdx + 1)
    ∀ base, (relevant.reverse.find? fun t => t.checkpoint.isFull) = some base →
      ∀ channel,
        let values := history base.checkpoint.members (writesSince relevant) channel
        Mergeable values ∧ Alike values
          (history base.checkpoint.members ((allDeltas relevant base.checkpoint.id).map Prod.snd) channel)

/-! ### The values of a channel -/

theorem lastValue_append (values values' : List Json) :
    lastValue (values ++ values') = (lastValue values').or (lastValue values) := by
  rw [lastValue, List.filter_append, List.getLast?_append]
  rfl

theorem lastValue_cons (v : Json) (values : List Json) :
    lastValue (v :: values) = (lastValue values).or (if isArray v then none else some v) := by
  rw [← List.singleton_append, lastValue_append]
  cases h : isArray v <;> simp [lastValue, h]

theorem isArray_of_lastValue {values : List Json} {v : Json} (h : lastValue values = some v) :
    isArray v = false := by
  simpa using List.of_mem_filter (List.mem_of_getLast? h)

/-- What a channel has after these values: the last that is not an array, or else all items. -/
def settled (values : List Json) : Option Json :=
  (lastValue values).or (if values.isEmpty then none else some (.arr (values.flatMap itemsOf)))

theorem settled_eq_iff {values values' : List Json} :
    settled values = settled values' ↔ Alike values values' := by
  have hlast : ∀ {l l' : List Json} {v : Json}, lastValue l = some v → settled l = settled l' →
      lastValue l' = some v := by
    intro l l' v hv heq
    have hnot := isArray_of_lastValue hv
    rw [settled, hv, Option.some_or, settled] at heq
    cases hv' : lastValue l' with
    | some v' => rw [hv', Option.some_or] at heq; exact heq.symm
    | none =>
      -- then the value would be an array
      rw [hv', Option.none_or] at heq
      split_ifs at heq
      rw [Option.some.inj heq] at hnot
      exact absurd hnot (by simp [isArray])
  constructor
  · intro heq
    cases hv : lastValue values with
    | some v => exact ⟨hv.trans (hlast hv heq).symm, fun hnone => by simp [hv] at hnone⟩
    | none =>
      have hv' : lastValue values' = none := by
        by_contra hsome
        obtain ⟨v', hv'⟩ := Option.ne_none_iff_exists'.mp hsome
        simp [hlast hv' heq.symm] at hv
      refine ⟨hv.trans hv'.symm, fun _ => ?_⟩
      rw [settled, settled, hv, hv', Option.none_or, Option.none_or] at heq
      cases values <;> cases values' <;> simp_all
  · rintro ⟨hlast, hitems⟩
    rw [settled, settled, ← hlast]
    cases hv : lastValue values with
    | some v => rfl
    | none =>
      obtain ⟨hitems, hnil⟩ := hitems hv
      cases values <;> cases values' <;> simp_all

/-- What one more value makes of that of a channel. -/
def put (v : Option Json) (x : Json) : Option Json :=
  match x with
  | .arr values =>
    match v.getD (.arr []) with
    | .arr items => some (.arr (items ++ values))
    | _ => v
  | x => some x

theorem member_applyWrite (members : Members) (write : PendingWrite) (channel : String) :
    member channel (applyWrite members write) =
      if write.channel = channel then put (member channel members) write.value
      else member channel members := by
  by_cases hchannel : write.channel = channel
  · subst hchannel
    rw [if_pos rfl]
    cases hvalue : write.value with
    | arr values =>
      cases hm : (member write.channel members).getD (.arr []) <;>
        simp [applyWrite, put, hvalue, hm, member_insertMember]
    | _ => simp [applyWrite, put, hvalue, member_insertMember]
  · rw [if_neg hchannel]
    cases hvalue : write.value with
    | arr values =>
      cases hm : (member write.channel members).getD (.arr []) <;>
        simp [applyWrite, hvalue, hm, member_insertMember, hchannel]
    | _ => simp [applyWrite, hvalue, member_insertMember, hchannel]

/-- One value is settled as it is. -/
theorem settled_singleton (v : Json) : settled [v] = some v := by
  cases v <;> simp [settled, lastValue, isArray, itemsOf]

theorem settled_put (v : Option Json) (x : Json) (rest : List Json) :
    settled ((put v x).toList ++ rest) = settled (v.toList ++ x :: rest) := by
  cases v with
  | none => cases x <;> rfl
  | some u =>
    cases x with
    | arr values =>
      cases u with
      | arr items => simp [put, settled, lastValue_cons, isArray, itemsOf]
      | _ => simp [put, settled, lastValue_cons, isArray]
    | _ => simp [put, settled, lastValue_cons, isArray]

theorem member_foldl_applyWrite (members : Members) (writes : List PendingWrite) (channel : String) :
    member channel (writes.foldl applyWrite members) = settled (history members writes channel) := by
  induction writes generalizing members with
  | nil =>
    cases h : member channel members with
    | none => simp [history, h, settled, lastValue]
    | some v => simp [history, h, settled_singleton]
  | cons write writes ih =>
    rw [List.foldl_cons, ih]
    unfold history
    rw [member_applyWrite]
    by_cases hchannel : write.channel = channel
    · simp [hchannel, settled_put]
    · simp [hchannel]

/-! ### Merging -/

theorem history_cons (members : Members) (write : PendingWrite) (writes : List PendingWrite)
    (channel : String) :
    history members (write :: writes) channel =
      (member channel members).toList ++ (if write.channel = channel then [write.value] else []) ++
        (writes.filter fun write => write.channel == channel).map PendingWrite.value := by
  by_cases hchannel : write.channel = channel <;> simp [history, hchannel]

theorem mergeable_concat {v : Option Json} {x : Json} :
    Mergeable (v.toList ++ [x]) ↔ ∀ u ∈ v, isArray x = true → isArray u = true := by
  cases v <;> simp [Mergeable]

/-- A write is merged if it may come after what the channel has, as it is replayed then. -/
theorem mergeWrite_eq (members : Members) (write : PendingWrite) :
    mergeWrite members write =
      if Mergeable ((member write.channel members).toList ++ [write.value]) then
        some (applyWrite members write)
      else none := by
  cases hvalue : write.value with
  | arr values =>
    cases hm : member write.channel members with
    | none => simp [mergeWrite, applyWrite, Mergeable, hvalue, hm]
    | some u => cases u <;> simp [mergeWrite, applyWrite, Mergeable, hvalue, hm, isArray]
  | _ => simp [mergeWrite, applyWrite, mergeable_concat, hvalue, isArray]

/-- Once a value may come next, it stands for all that comes before. -/
theorem mergeable_put {v : Option Json} {x : Json} (h : Mergeable (v.toList ++ [x])) (rest : List Json) :
    Mergeable ((put v x).toList ++ rest) ↔ Mergeable (v.toList ++ x :: rest) := by
  cases v with
  | none => cases x <;> rfl
  | some u =>
    cases x with
    | arr values =>
      cases u with
      | arr items => simp [put, Mergeable, isArray]
      | _ => simp [Mergeable, isArray] at h
    | _ => cases u <;> simp [put, Mergeable, isArray]

theorem mergeable_of_cons {members : Members} {write : PendingWrite} {writes : List PendingWrite}
    (h : Mergeable (history members (write :: writes) write.channel)) :
    Mergeable ((member write.channel members).toList ++ [write.value]) := by
  rw [history_cons, if_pos rfl] at h
  exact h.sublist (List.sublist_append_left _ _)

/-- Writes are merged if this is so for each channel, as they are replayed then. -/
theorem foldlM_mergeWrite_eq_some {members members' : Members} {writes : List PendingWrite} :
    writes.foldlM mergeWrite members = some members' ↔
      (∀ channel, Mergeable (history members writes channel)) ∧
        members' = writes.foldl applyWrite members := by
  induction writes generalizing members with
  | nil =>
    have hnil : ∀ channel, Mergeable (history members [] channel) := by
      intro channel
      cases h : member channel members <;> simp [history, Mergeable, h]
    simp [hnil, eq_comm]
  | cons write writes ih =>
    rw [List.foldlM_cons, mergeWrite_eq]
    split_ifs with hmerge
    · rw [List.foldl_cons]
      refine ih.trans (and_congr_left fun _ => forall_congr' fun channel => ?_)
      rw [history, member_applyWrite, history]
      by_cases hchannel : write.channel = channel
      · subst hchannel
        simpa using mergeable_put hmerge _
      · simp [hchannel]
    · exact iff_of_false (by simp) fun h => hmerge (mergeable_of_cons (h.1 write.channel))

theorem Checkpoint.channelValues_of_isFull {c : Checkpoint} (h : c.isFull = true) :
    c.channelValues = .obj c.members := by
  unfold isFull at h
  unfold members
  split at h
  · next members hobj => rw [hobj]
  · cases h

/-- What is recovered, if there is a full snapshot. -/
theorem recoverFromDeltas_of_base {checkpoints : List CheckpointTuple} {target : String} {targetIdx : ℕ}
    (htarget : (checkpoints.findIdx? fun t => t.checkpoint.id == target) = some targetIdx)
    {base : CheckpointTuple} (hbase : ((checkpoints.take (targetIdx + 1)).reverse.find? fun t =>
      t.checkpoint.isFull) = some base) :
    ∃ c, recoverFromDeltas checkpoints target = .ok (some c) ∧ ∀ channel,
      c.channelValues.get channel = settled (history base.checkpoint.members
        ((allDeltas (checkpoints.take (targetIdx + 1)) base.checkpoint.id).map Prod.snd) channel) := by
  have hfull := Checkpoint.channelValues_of_isFull
    (List.find?_some (p := fun t : CheckpointTuple => t.checkpoint.isFull) hbase)
  refine ⟨_, by simp only [recoverFromDeltas, htarget, hbase, hfull]; rfl, fun channel => ?_⟩
  rw [get_obj, member_foldl_applyWrite]

/-- **Recovery by identifiers.**  It finds the state of the target if, and only if, the writes since the
last full snapshot can be merged and their order by identifiers makes no difference to any channel. -/
theorem recovers_iff (checkpoints : List CheckpointTuple) (target : String) :
    Recovers checkpoints target ↔ Consistent checkpoints target := by
  refine forall_congr' fun targetIdx => forall_congr' fun htarget => ?_
  cases hbase : (checkpoints.take (targetIdx + 1)).reverse.find? fun t => t.checkpoint.isFull with
  | none =>
    have herror : recoverFromDeltas checkpoints target =
        .error (.deserialize "No full snapshot found in checkpoint chain") := by
      simp only [recoverFromDeltas, htarget, hbase]
    simp [replayed, hbase, herror]
  | some base =>
    obtain ⟨c, hrecover, hvalues⟩ := recoverFromDeltas_of_base htarget hbase
    simp only [replayed, hbase, Option.bind_some, hrecover, Option.some.injEq, forall_eq']
    cases hreplay : (writesSince (checkpoints.take (targetIdx + 1))).foldlM mergeWrite
        base.checkpoint.members with
    | none =>
      refine iff_of_false (by simp) fun h => ?_
      have hsome := foldlM_mergeWrite_eq_some.mpr ⟨fun channel => (h channel).1, rfl⟩
      rw [hreplay] at hsome
      cases hsome
    | some members =>
      obtain ⟨hmerge, rfl⟩ := foldlM_mergeWrite_eq_some.mp hreplay
      simp only [Except.ok.injEq, Option.some.injEq, exists_eq_left', hvalues, member_foldl_applyWrite]
      exact forall_congr' fun channel => eq_comm.trans
        (settled_eq_iff.trans (and_iff_right (hmerge channel)).symm)

/-- The snapshot, and a checkpoint after it whose identifier is smaller as a text. -/
def ninthAndTenth : List CheckpointTuple :=
  [{ config := {}, checkpoint := { id := "cp9", channelValues := .obj [("x", .arr [.num 1])], createdAt := "" }
     metadata := { source := .loop, step := 9 } },
   { config := {}, checkpoint := { id := "cp10", createdAt := "" }, metadata := { source := .loop, step := 10 }
     pendingWrites := [{ taskId := "t", channel := "x", value := .arr [.num 2] }] }]

/-- The write that comes after the snapshot is left out. -/
theorem ninthAndTenth_not_recovered : ¬ Recovers ninthAndTenth "cp10" := by
  intro h
  have htarget : (ninthAndTenth.findIdx? fun t => t.checkpoint.id == "cp10") = some 1 := by decide
  obtain ⟨c, hc, hright⟩ := h 1 htarget
  obtain ⟨d, hd, hvalues⟩ := recoverFromDeltas_of_base htarget rfl
  obtain rfl : d = c := by simpa [hd] using hc
  exact absurd ((hvalues "x").symm.trans (hright "x")) (by decide)

/-! ### Identifiers that ascend -/

/-- What is to be recovered does not depend on the identifiers. -/
theorem replayed_rename (rename : CheckpointTuple → String) (relevant : List CheckpointTuple) :
    replayed (relevant.map fun t => { t with checkpoint := { t.checkpoint with id := rename t } }) =
      replayed relevant := by
  have hfull : ∀ t : CheckpointTuple, ({ t.checkpoint with id := rename t } : Checkpoint).isFull =
      t.checkpoint.isFull := fun _ => rfl
  simp only [replayed, writesSince, ← List.map_reverse, List.find?_map, List.takeWhile_map,
    List.flatMap_map, Function.comp_def, hfull, Option.bind_map]
  rfl

/-- The last full snapshot parts the checkpoints into those before it and those since. -/
theorem exists_append_of_base {relevant : List CheckpointTuple} {base : CheckpointTuple}
    (h : (relevant.reverse.find? fun t => t.checkpoint.isFull) = some base) :
    ∃ before since, relevant = before ++ base :: since ∧
      writesSince relevant = since.flatMap CheckpointTuple.pendingWrites := by
  obtain ⟨hfull, since, before, hsplit, hnone⟩ := List.find?_eq_some_iff_append.mp h
  refine ⟨before.reverse, since.reverse, ?_, ?_⟩
  · rw [← List.reverse_reverse relevant, hsplit]
    simp
  · rw [writesSince, hsplit, List.takeWhile_append_of_pos hnone]
    simp [hfull]

/-- If the identifiers ascend, then their order is that of the list. -/
theorem allDeltas_of_ascending {relevant : List CheckpointTuple} {base : CheckpointTuple}
    (hbase : (relevant.reverse.find? fun t => t.checkpoint.isFull) = some base)
    (hids : relevant.Pairwise fun t t' => t.checkpoint.id < t'.checkpoint.id) :
    (allDeltas relevant base.checkpoint.id).map Prod.snd = writesSince relevant := by
  obtain ⟨before, since, rfl, hsince⟩ := exists_append_of_base hbase
  obtain ⟨-, hafter, hbefore⟩ := List.pairwise_append.mp hids
  obtain ⟨hlater, hsorted⟩ := List.pairwise_cons.mp hafter
  have hskip : (before.flatMap fun t => if t.checkpoint.id ≤ base.checkpoint.id then []
      else t.pendingWrites.map fun write => (t.checkpoint.id, write)) = [] := by
    refine List.flatMap_eq_nil_iff.mpr fun t ht => if_pos ?_
    exact (hbefore t ht base List.mem_cons_self).le
  have hkeep : (since.flatMap fun t => if t.checkpoint.id ≤ base.checkpoint.id then []
      else t.pendingWrites.map fun write => (t.checkpoint.id, write)) =
      since.flatMap fun t => t.pendingWrites.map fun write => (t.checkpoint.id, write) :=
    List.flatMap_congr fun t ht => if_neg (hlater t ht).not_ge
  have hascending : (since.flatMap fun t => t.pendingWrites.map fun write =>
      (t.checkpoint.id, write)).Pairwise fun a b => a.1 ≤ b.1 := by
    refine List.pairwise_flatMap.mpr ⟨fun t _ => ?_, hsorted.imp fun {t t'} hlt x hx y hy => ?_⟩
    · exact List.pairwise_map.mpr (List.pairwise_of_forall fun _ _ => le_rfl)
    · obtain ⟨write, -, rfl⟩ := List.mem_map.mp hx
      obtain ⟨write', -, rfl⟩ := List.mem_map.mp hy
      exact hlt.le
  rw [allDeltas, List.flatMap_append, List.flatMap_cons, if_pos le_rfl, hskip, hkeep, List.nil_append,
    List.nil_append, hascending.insertionSort_eq, hsince, List.map_flatMap]
  simp

/-- Then only writes that cannot be merged are in the way. -/
theorem consistent_of_ascending {checkpoints : List CheckpointTuple} {target : String}
    (hids : checkpoints.Pairwise fun t t' => t.checkpoint.id < t'.checkpoint.id)
    (hmerge : ∀ k base, ((checkpoints.take k).reverse.find? fun t => t.checkpoint.isFull) = some base →
      ∀ channel, Mergeable (history base.checkpoint.members (writesSince (checkpoints.take k)) channel)) :
    Consistent checkpoints target := by
  intro targetIdx _ relevant base hbase channel
  refine ⟨hmerge _ base hbase channel, ?_⟩
  rw [allDeltas_of_ascending hbase (hids.sublist (List.take_sublist _ _))]
  exact ⟨rfl, fun _ => ⟨rfl, Iff.rfl⟩⟩

end Saver

end Juncture
