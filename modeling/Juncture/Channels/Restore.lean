import Juncture.Channels.Types
import Juncture.Lib.Observe

/-!
# Channels read back from checkpoints

A checkpoint of a channel should be as good as the channel: what is read back from it answers every later
list of calls as the channel does.

* `channels_restored_iff` : which channels of each type are restored.
* `NamedBarrierChannel.restores_iff` : a barrier forgets which sources it waits for.
* `DeltaChannel.restores_iff` : a delta channel forgets how often it is to be written as a whole, and how
  many updates ago it was.
-/

namespace Juncture

open Observe Serde

/-! ### The calls of a channel -/

/-- The calls of the trait, and those of one type. -/
inductive ChannelCall (T E : Type) where
  | update (values : List T)
  | get
  | consume
  | checkpoint
  | own (call : E)

/-- What a call returns. -/
inductive ChannelAnswer (T : Type) where
  | unit
  | flag (b : Bool)
  | value (v : T)
  | blob (value : Option Json)

/-- `Channel`, with the calls that only the one type has. -/
structure Channel (C T E : Type) where
  /-- `update`. -/
  update : C → List T → Option (C × Bool)
  /-- `get`. -/
  get : C → T
  /-- `consume`. -/
  consume : C → C × Bool
  /-- `checkpoint`. -/
  checkpoint : C → Option Json
  /-- `from_checkpoint`. -/
  fromCheckpoint : Json → Except String C
  /-- The other calls. -/
  own : C → E → Option (C × ChannelAnswer T)

namespace Channel

variable {C T E : Type}

/-- What a call does. -/
def call (m : Channel C T E) (ch : C) : ChannelCall T E → Option (C × ChannelAnswer T)
  | .update values => (m.update ch values).map fun (ch, changed) => (ch, .flag changed)
  | .get => some (ch, .value (m.get ch))
  | .consume => some ((m.consume ch).1, .flag (m.consume ch).2)
  | .checkpoint => some (ch, .blob (m.checkpoint ch))
  | .own c => m.own ch c

/-- What is read back from a checkpoint of the channel is like the channel. -/
def Restores (m : Channel C T E) (ch : C) : Prop :=
  ∀ j, m.checkpoint ch = some j → ∃ ch', m.fromCheckpoint j = .ok ch' ∧ Alike m.call ch ch'

variable {m : Channel C T E} {ch : C}

theorem Restores.of_eq (h : ∀ j, m.checkpoint ch = some j → m.fromCheckpoint j = .ok ch) :
    m.Restores ch :=
  fun j hj => ⟨ch, h j hj, Alike.refl ch⟩

/-- Where the checkpoint and what is read back are known, that alone has to be compared. -/
theorem restores_iff_alike {j : Json} {ch' : C} (hj : m.checkpoint ch = some j)
    (hch' : m.fromCheckpoint j = .ok ch') : m.Restores ch ↔ Alike m.call ch ch' := by
  constructor
  · intro h
    obtain ⟨ch'', hch'', hlike⟩ := h j hj
    obtain rfl : ch' = ch'' := Except.ok.inj (hch'.symm.trans hch'')
    exact hlike
  · intro hlike j' hj'
    obtain rfl : j = j' := Option.some.inj (hj.symm.trans hj')
    exact ⟨ch', hch', hlike⟩

end Channel

/-- A value is written to a checkpoint, and read back. -/
theorem checkpointToValue_faithful {T : Type} [Serde T] (value : T) :
    ∃ j, checkpointToValue value = some j ∧ (restored j : Except String T) = .ok value := by
  obtain ⟨j, hj, hj'⟩ := faithful value
  exact ⟨j, by rw [checkpointToValue, hj]; rfl, by rw [restored, hj']; rfl⟩

/-! ### Channels that come back as they were -/

section

variable {T : Type} [Serde T]

/-- The calls of a `TopicChannel`. -/
def topicChannel : Channel (TopicChannel T) (List T) Empty where
  update ch values := some (ch.update values)
  get := TopicChannel.messages
  consume := TopicChannel.consume
  checkpoint := TopicChannel.checkpoint
  fromCheckpoint := TopicChannel.fromCheckpoint
  own _ c := c.elim

theorem TopicChannel.restores (ch : TopicChannel T) : topicChannel.Restores ch := by
  obtain ⟨j, hj, hj'⟩ := checkpointToValue_faithful ch.messages
  refine (Channel.restores_iff_alike hj ?_).mpr (Alike.refl ch)
  simp only [topicChannel, TopicChannel.fromCheckpoint, hj']
  rfl

/-- The calls of a `RingBufferChannel`. -/
def ringBufferChannel : Channel (RingBufferChannel T) (List T) Empty where
  update ch values := some (ch.update values)
  get := RingBufferChannel.values
  consume ch := (ch, false)
  checkpoint := RingBufferChannel.checkpoint
  fromCheckpoint := RingBufferChannel.fromCheckpoint
  own _ c := c.elim

theorem RingBufferChannel.toNat_range (n : UInt64) :
    0 ≤ (n.toNat : ℤ) ∧ (n.toNat : ℤ) < UInt64.size :=
  ⟨Int.natCast_nonneg _, Int.ofNat_lt.mpr n.toNat_lt_size⟩

/-- A capacity is read back from what is written. -/
theorem RingBufferChannel.asU64_toNat (n : UInt64) : asU64 (.num n.toNat) = some n := by
  have hrange := toNat_range n
  simp only [asU64]
  rw [if_pos hrange, Int.toNat_natCast, UInt64.ofNat_toNat]

/-- What is read from the object format. -/
theorem RingBufferChannel.fromCheckpoint_obj {j c : Json} {values : List T} {n : UInt64}
    (hj : (restored j : Except String (List T)) = .ok values) (hc : asU64 c = some n) :
    fromCheckpoint (.obj [("values", j), ("capacity", c)]) =
      .ok { values, capacity := atLeastOne n } := by
  have hvalues : Json.get (.obj [("values", j), ("capacity", c)]) "values" = some j := rfl
  have hcapacity : Json.get (.obj [("values", j), ("capacity", c)]) "capacity" = some c := rfl
  simp only [fromCheckpoint, hvalues, hcapacity, Option.getD_some, Option.bind_some, hc, hj, bind,
    Except.bind]

theorem RingBufferChannel.restores (ch : RingBufferChannel T) : ringBufferChannel.Restores ch := by
  obtain ⟨j, hj, hj'⟩ := checkpointToValue_faithful ch.values
  have hwritten : ringBufferChannel.checkpoint ch =
      some (.obj [("values", j), ("capacity", .num ch.capacity.1.toNat)]) := by
    simp only [ringBufferChannel, checkpoint, hj, Option.map_some]
  have hread := fromCheckpoint_obj hj' (asU64_toNat ch.capacity.1)
  rw [atLeastOne_of_ne_zero ch.capacity.2] at hread
  exact (Channel.restores_iff_alike hwritten hread).mpr (Alike.refl ch)

/-- The calls of a `LastValueAfterFinishChannel` that the others lack. -/
inductive FinishCall where
  | finish
  | isAvailable

/-- The calls of a `LastValueAfterFinishChannel`. -/
def lastValueAfterFinishChannel (r : Reducer T) :
    Channel (LastValueAfterFinishChannel T) T FinishCall where
  update := LastValueAfterFinishChannel.update r
  get := LastValueAfterFinishChannel.get
  consume ch := (ch, false)
  checkpoint := LastValueAfterFinishChannel.checkpoint
  fromCheckpoint := LastValueAfterFinishChannel.fromCheckpoint
  own ch
    | .finish => some (ch.finish, .unit)
    | .isAvailable => some (ch, .flag ch.isAvailable)

omit [Serde T] in
theorem LastValueAfterFinishChannel.get_eq (ch : LastValueAfterFinishChannel T) :
    ch.get = ch.value := by
  unfold LastValueAfterFinishChannel.get
  split
  · cases h : ch.finishedValue with
    | none => rfl
    | some v => exact (ch.coherent v h).2
  · rfl

omit [Serde T] in
@[simp] theorem LastValueAfterFinishChannel.withValue_value (ch : LastValueAfterFinishChannel T)
    (value : T) : (ch.withValue value).value = value := by
  unfold withValue
  split <;> rfl

omit [Serde T] in
@[simp] theorem LastValueAfterFinishChannel.withValue_isFinished
    (ch : LastValueAfterFinishChannel T) (value : T) :
    (ch.withValue value).isFinished = ch.isFinished := by
  unfold withValue
  split <;> rfl

/-- Channels with one value, both finished or both not, cannot be told apart: a finished channel shows
its value whether it was written since or not. -/
theorem LastValueAfterFinishChannel.alike (r : Reducer T) {ch ch' : LastValueAfterFinishChannel T}
    (hvalue : ch.value = ch'.value) (hfinished : ch.isFinished = ch'.isFinished) :
    Alike (lastValueAfterFinishChannel r).call ch ch' := by
  refine Alike.of_bisimulation
    (R := fun a b => a.value = b.value ∧ a.isFinished = b.isFinished) ?_ ⟨hvalue, hfinished⟩
  rintro a b call ⟨hv, hf⟩
  cases call with
  | update values =>
    simp only [Channel.call, lastValueAfterFinishChannel, update, ← hv]
    split
    · exact .answer _ ⟨hv, hf⟩
    · cases r.reduce a.value values with
      | none => exact .breaks
      | some v => exact .answer _ ⟨by simp, by simpa using hf⟩
  | get =>
    simp only [Channel.call, lastValueAfterFinishChannel, get_eq, hv]
    exact .answer _ ⟨hv, hf⟩
  | consume => exact .answer _ ⟨hv, hf⟩
  | checkpoint =>
    simp only [Channel.call, lastValueAfterFinishChannel, checkpoint, hv, hf]
    exact .answer _ ⟨hv, hf⟩
  | own c =>
    cases c with
    | finish => exact .answer _ ⟨hv, rfl⟩
    | isAvailable =>
      simp only [Channel.call, lastValueAfterFinishChannel, isAvailable, hf]
      exact .answer _ ⟨hv, hf⟩

theorem LastValueAfterFinishChannel.restores (r : Reducer T) (ch : LastValueAfterFinishChannel T) :
    (lastValueAfterFinishChannel r).Restores ch := by
  intro j hj
  obtain ⟨value, finishedValue, isFinished, hcoherent⟩ := ch
  cases isFinished with
  | false => cases hj
  | true =>
    obtain ⟨k, hk, hk'⟩ := faithful (value, true)
    have hjk : k = j := by
      simpa [lastValueAfterFinishChannel, checkpoint, checkpointToValue, hk, Except.toOption] using hj
    subst hjk
    have hread : (lastValueAfterFinishChannel r).fromCheckpoint k = .ok (ofFinished value true) := by
      simp only [lastValueAfterFinishChannel, fromCheckpoint, hk']
    exact ⟨_, hread, alike r rfl rfl⟩

end

/-! ### Channels that do not -/

section

variable {T : Type} [Serde T]

/-- The calls of a `NamedBarrierChannel` that the others lack. -/
inductive BarrierCall (T : Type) where
  | update (sourceName : String) (values : List T)
  | isAvailable

/-- The calls of a `NamedBarrierChannel`. -/
def namedBarrierChannel (r : Reducer T) : Channel (NamedBarrierChannel T) T (BarrierCall T) where
  update := NamedBarrierChannel.update r
  get := NamedBarrierChannel.value
  consume ch := (ch, false)
  checkpoint := NamedBarrierChannel.checkpoint
  fromCheckpoint := NamedBarrierChannel.fromCheckpoint
  own ch
    | .update sourceName values =>
      (ch.updateFrom r sourceName values).map fun (ch, changed) => (ch, .flag changed)
    | .isAvailable => some (ch, .flag ch.isAvailable)

/-- Some name is in no finite set. -/
theorem exists_source_not_mem (sources : Finset String) : ∃ name, name ∉ sources :=
  Infinite.exists_notMem_finset sources

/-- A barrier is restored only if it waits for no source. -/
theorem NamedBarrierChannel.restores_iff (r : Reducer T) (ch : NamedBarrierChannel T) :
    (namedBarrierChannel r).Restores ch ↔ ch.requiredSources = ∅ := by
  obtain ⟨j, hj, hj'⟩ := checkpointToValue_faithful (ch.value, ch.seenSources)
  have hread : (namedBarrierChannel r).fromCheckpoint j =
      .ok { value := ch.value, requiredSources := ∅, seenSources := ch.seenSources } := by
    simp only [namedBarrierChannel, fromCheckpoint, hj']
    rfl
  rw [Channel.restores_iff_alike hj hread]
  constructor
  · intro hlike
    by_contra hrequired
    -- a source that the barrier does not wait for may write only after the barrier was read back
    obtain ⟨name, hname⟩ := exists_source_not_mem ch.requiredSources
    have hpanics : (namedBarrierChannel r).call ch (.own (.update name [])) = none := by
      simp [Channel.call, namedBarrierChannel, updateFrom, hrequired, hname]
    have hother := hlike.breaks hpanics
    simp [Channel.call, namedBarrierChannel, updateFrom] at hother
  · intro hrequired
    obtain ⟨value, requiredSources, seenSources⟩ := ch
    obtain rfl : requiredSources = ∅ := hrequired
    exact Alike.refl _

/-- The calls of a `DeltaChannel` that the others lack. -/
inductive DeltaCall where
  | finish
  | shouldSnapshot

/-- The calls of a `DeltaChannel`. -/
def deltaChannel (r : Reducer T) : Channel (DeltaChannel T) T DeltaCall where
  update := DeltaChannel.update r
  get := DeltaChannel.value
  consume ch := (ch, false)
  checkpoint := DeltaChannel.checkpoint
  fromCheckpoint := DeltaChannel.fromCheckpoint
  own ch
    | .finish => some (ch.finish, .unit)
    | .shouldSnapshot => some (ch, .flag ch.shouldSnapshot)

/-- A value can be updated so many times without a panic. -/
def Reducer.Accepts (r : Reducer T) : ℕ → T → Prop
  | 0, _ => True
  | k + 1, value =>
    ∃ values, values ≠ [] ∧ ∃ value', r.reduce value values = some value' ∧ r.Accepts k value'

namespace DeltaChannel

/-- Both channels are due for a snapshot after the same numbers of updates. -/
def SameSchedule (r : Reducer T) (ch ch' : DeltaChannel T) : Prop :=
  ∀ k, r.Accepts k ch.value →
    (ch.snapshotFrequency ≤ ch.updateCountSinceSnapshot + k ↔
      ch'.snapshotFrequency ≤ ch'.updateCountSinceSnapshot + k)

variable {r : Reducer T} {ch ch' : DeltaChannel T}

omit [Serde T] in
theorem SameSchedule.shouldSnapshot (h : SameSchedule r ch ch') :
    ch.shouldSnapshot = ch'.shouldSnapshot :=
  decide_eq_decide.mpr (h 0 trivial)

/-- Delta channels are alike if they hold one value and are due for snapshots at the same times. -/
theorem alike_iff :
    Alike (deltaChannel r).call ch ch' ↔ ch.value = ch'.value ∧ SameSchedule r ch ch' := by
  constructor
  · intro h
    have hvalue : ch.value = ch'.value := by
      obtain ⟨t', ht', -⟩ := h.next (i := .get) (t := ch) (o := .value ch.value) rfl
      simpa [Channel.call, deltaChannel, eq_comm] using congrArg (Option.map Prod.snd) ht'
    refine ⟨hvalue, fun k hk => ?_⟩
    induction k generalizing ch ch' with
    | zero =>
      obtain ⟨t', ht', -⟩ := h.next (i := .own .shouldSnapshot) (t := ch)
        (o := .flag ch.shouldSnapshot) rfl
      have hdue : ch'.shouldSnapshot = ch.shouldSnapshot := by
        simpa [Channel.call, deltaChannel] using congrArg (Option.map Prod.snd) ht'
      exact (decide_eq_decide.mp hdue).symm
    | succ k ih =>
      obtain ⟨values, hne, value', hreduce, hk⟩ := hk
      obtain ⟨t', ht', hnext⟩ := h.next (i := .update values) (o := .flag true)
        (t := { ch with
          value := value', updateCountSinceSnapshot := ch.updateCountSinceSnapshot + 1 })
        (by simp [Channel.call, deltaChannel, update, hne, hreduce])
      have hother : t' = { ch' with
          value := value', updateCountSinceSnapshot := ch'.updateCountSinceSnapshot + 1 } := by
        simpa [Channel.call, deltaChannel, update, hne, ← hvalue, hreduce] using ht'.symm
      subst hother
      have hlater := ih hnext rfl hk
      simp only [Nat.add_right_comm _ 1 k] at hlater
      exact hlater
  · rintro ⟨hvalue, hsame⟩
    refine Alike.of_bisimulation
      (R := fun a b => a.value = b.value ∧ SameSchedule r a b) ?_ ⟨hvalue, hsame⟩
    rintro a b call ⟨hv, hs⟩
    cases call with
    | update values =>
      simp only [Channel.call, deltaChannel, update, ← hv]
      by_cases hne : values = []
      · subst hne
        exact .answer _ ⟨hv, hs⟩
      · simp only [List.isEmpty_iff, hne, ↓reduceIte]
        cases hr : r.reduce a.value values with
        | none => exact .breaks
        | some value' =>
          refine .answer _ ⟨rfl, fun k hk => ?_⟩
          have hlater := hs (k + 1) ⟨values, hne, value', hr, hk⟩
          simp only [Nat.add_right_comm _ 1 k]
          exact hlater
    | get =>
      simp only [Channel.call, deltaChannel, hv]
      exact .answer _ ⟨hv, hs⟩
    | consume => exact .answer _ ⟨hv, hs⟩
    | checkpoint =>
      simp only [Channel.call, deltaChannel, checkpoint, hv]
      exact .answer _ ⟨hv, hs⟩
    | own c =>
      cases c with
      | finish =>
        -- both are due now, and stay so
        refine .answer _ ⟨hv, fun k _ => ?_⟩
        simp only [finish]
        omega
      | shouldSnapshot =>
        simp only [Channel.call, deltaChannel, hs.shouldSnapshot]
        exact .answer _ ⟨hv, hs⟩

/-- A delta channel is restored only if it is due for snapshots when a new one, which is written as a
whole every ten updates, would be. -/
theorem restores_iff (r : Reducer T) (ch : DeltaChannel T) :
    (deltaChannel r).Restores ch ↔ ∀ k, r.Accepts k ch.value →
      (ch.snapshotFrequency ≤ ch.updateCountSinceSnapshot + k ↔ 10 ≤ k) := by
  obtain ⟨j, hj, hj'⟩ := checkpointToValue_faithful ch.value
  have hread : (deltaChannel r).fromCheckpoint j =
      .ok { value := ch.value, snapshotFrequency := 10 } := by
    simp only [deltaChannel, fromCheckpoint, hj']
    rfl
  rw [Channel.restores_iff_alike hj hread, alike_iff]
  simp [SameSchedule]

omit [Serde T] in
/-- With a reducer that never panics on one value, every number of updates can be made. -/
theorem accepts_of_single (hsingle : ∀ value v, ∃ value', r.reduce value [v] = some value') (k : ℕ)
    (value : T) : r.Accepts k value := by
  induction k generalizing value with
  | zero => trivial
  | succ k ih =>
    obtain ⟨value', hvalue'⟩ := hsingle value value
    exact ⟨[value], by simp, value', hvalue', ih value'⟩

/-- With such a reducer, ten updates must be left until the next snapshot. -/
theorem restores_iff_of_single (hsingle : ∀ value v, ∃ value', r.reduce value [v] = some value')
    (ch : DeltaChannel T) :
    (deltaChannel r).Restores ch ↔ ch.snapshotFrequency = ch.updateCountSinceSnapshot + 10 := by
  rw [restores_iff]
  constructor
  · intro h
    have hten := h 10 (accepts_of_single hsingle 10 ch.value)
    have hnine := h 9 (accepts_of_single hsingle 9 ch.value)
    omega
  · intro h k _
    omega

end DeltaChannel

end

/-! ### All types -/

/-- What is read back from a channel's checkpoint behaves as the channel, except where a barrier waits for
sources, or a delta channel is not due for its next snapshot in ten updates. -/
theorem channels_restored_iff {T : Type} [Serde T] (r : Reducer T) :
    (∀ ch : NamedBarrierChannel T,
      (namedBarrierChannel r).Restores ch ↔ ch.requiredSources = ∅) ∧
    (∀ ch : TopicChannel T, topicChannel.Restores ch) ∧
    (∀ ch : LastValueAfterFinishChannel T, (lastValueAfterFinishChannel r).Restores ch) ∧
    (∀ ch : DeltaChannel T, (deltaChannel r).Restores ch ↔ ∀ k, r.Accepts k ch.value →
      (ch.snapshotFrequency ≤ ch.updateCountSinceSnapshot + k ↔ 10 ≤ k)) ∧
    ∀ ch : RingBufferChannel T, ringBufferChannel.Restores ch :=
  ⟨NamedBarrierChannel.restores_iff r, TopicChannel.restores, LastValueAfterFinishChannel.restores r,
    DeltaChannel.restores_iff r, RingBufferChannel.restores⟩

/-- A barrier that waits for one source is available once it is read back, and a delta channel that is
written as a whole every five updates waits for ten. -/
theorem waiting_not_restores :
    ¬ (namedBarrierChannel (replaceReducer Bool)).Restores
        (NamedBarrierChannel.newWithSources false ["a"]) ∧
      ¬ (deltaChannel (appendReducer ℤ)).Restores (DeltaChannel.new [] 5) := by
  constructor
  · intro h
    exact absurd ((NamedBarrierChannel.restores_iff _ _).mp h) (by decide)
  · intro h
    have hfive := (DeltaChannel.restores_iff_of_single (fun value v => ⟨value ++ v, by
      simp [appendReducer]⟩) _).mp h
    exact absurd hfive (by decide)

end Juncture
