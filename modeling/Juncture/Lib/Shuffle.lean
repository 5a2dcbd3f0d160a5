import Mathlib.Data.List.Nodup
import Mathlib.Data.List.Perm.Basic

/-!
# Merged traces

Several parties put their events into one stream, each in its own order; between the parties there is no
order.  A party may start something and finish it, both under a key.

* `Shuffle.Merges` : the streams that can come out, by what each party has put in.
* `Shuffle.merges_flatMap` : the parties one after the other.
* `Shuffle.paired_of_merges` : where each party does nothing or starts and finishes something, under keys
  of its own, each start is followed by exactly one finish under its key, in every stream.
* `Shuffle.not_paired_single`, `Shuffle.not_paired_same` : otherwise it is not, in some stream.
-/

namespace Shuffle

variable {ι ε κ β : Type*} [DecidableEq ι]

/-- What a party has put into a stream. -/
def ofParty (i : ι) (stream : List (ι × ε)) : List ε :=
  (stream.filter fun x => x.1 = i).map Prod.snd

/-- The stream has the events of each party in their order, and no others. -/
def Merges (traces : ι → List ε) (stream : List (ι × ε)) : Prop :=
  ∀ i, ofParty i stream = traces i

/-- The events of a party. -/
def tagged (i : ι) (trace : List ε) : List (ι × ε) := trace.map fun e => (i, e)

variable {traces : ι → List ε} {stream : List (ι × ε)} {i j : ι}

@[simp] theorem ofParty_nil : ofParty i ([] : List (ι × ε)) = [] := rfl

@[simp] theorem ofParty_append (s t : List (ι × ε)) :
    ofParty i (s ++ t) = ofParty i s ++ ofParty i t := by
  simp [ofParty]

@[simp] theorem ofParty_cons_self (e : ε) (s : List (ι × ε)) :
    ofParty i ((i, e) :: s) = e :: ofParty i s := by
  simp [ofParty]

@[simp] theorem ofParty_tagged_self (trace : List ε) : ofParty i (tagged i trace) = trace := by
  simp [ofParty, tagged, List.filter_map, Function.comp_def]

theorem ofParty_tagged_of_ne (h : j ≠ i) (trace : List ε) : ofParty i (tagged j trace) = [] := by
  simp [ofParty, tagged, h]

theorem mem_ofParty {e : ε} : e ∈ ofParty i stream ↔ (i, e) ∈ stream := by
  simp [ofParty]

/-- A stream that is cut at an event cuts the trace of its party there. -/
theorem Merges.split {s₁ s₂ : List (ι × ε)} {e : ε} (h : Merges traces (s₁ ++ (i, e) :: s₂)) :
    traces i = ofParty i s₁ ++ e :: ofParty i s₂ := by
  rw [← h i, ofParty_append, ofParty_cons_self]

theorem ofParty_flatMap_of_not_mem {parties : List ι} (h : i ∉ parties) :
    ofParty i (parties.flatMap fun j => tagged j (traces j)) = [] := by
  induction parties with
  | nil => rfl
  | cons j parties ih =>
    have hne : j ≠ i := fun hji => h (hji ▸ List.mem_cons_self)
    rw [List.flatMap_cons, ofParty_append, ofParty_tagged_of_ne hne,
      ih fun hi => h (List.mem_cons_of_mem j hi), List.nil_append]

/-- The parties can come one after the other, in any order. -/
theorem merges_flatMap {parties : List ι} (hnodup : parties.Nodup)
    (hcover : ∀ i, traces i ≠ [] → i ∈ parties) :
    Merges traces (parties.flatMap fun j => tagged j (traces j)) := by
  intro i
  by_cases hi : i ∈ parties
  · obtain ⟨front, back, rfl⟩ := List.append_of_mem hi
    obtain ⟨-, hback, hdisjoint⟩ := List.nodup_append.1 hnodup
    have hfront : i ∉ front := fun h => hdisjoint i h i List.mem_cons_self rfl
    rw [List.flatMap_append, List.flatMap_cons, ofParty_append, ofParty_append,
      ofParty_flatMap_of_not_mem hfront, ofParty_tagged_self,
      ofParty_flatMap_of_not_mem (List.nodup_cons.1 hback).1, List.nil_append, List.append_nil]
  · rw [ofParty_flatMap_of_not_mem hi]
    by_contra hne
    exact hi (hcover i fun h => hne h.symm)

/-- Some parties can come last. -/
theorem exists_merges_append {parties last : List ι} (hnodup : parties.Nodup)
    (hcover : ∀ i, traces i ≠ [] → i ∈ parties) (hlast : last.Nodup) :
    ∃ front, Merges traces (front ++ last.flatMap fun j => tagged j (traces j)) := by
  classical
  refine ⟨(parties.filter (· ∉ last)).flatMap fun j => tagged j (traces j), ?_⟩
  rw [← List.flatMap_append]
  refine merges_flatMap (List.nodup_append.2 ⟨hnodup.filter _, hlast, ?_⟩) fun i hi => ?_
  · rintro a ha b hb rfl
    exact absurd hb (by simpa using (List.mem_filter.1 ha).2)
  · by_cases hmem : i ∈ last
    · exact List.mem_append_right _ hmem
    · exact List.mem_append_left _ (List.mem_filter.2 ⟨hcover i hi, by simpa using hmem⟩)

/-! ### Starts and finishes -/

section Pairs

variable [DecidableEq κ] (starts : ε → Option κ) (finishes : ε → Option (κ × β))

/-- How things under this key are finished. -/
def finishesOf (k : κ) (stream : List (ι × ε)) : List (κ × β) :=
  stream.filterMap fun x => (finishes x.2).filter fun f => f.1 = k

/-- Each start is followed by exactly one finish under its key, with the outcome of the party. -/
def Paired (outcome : ι → β) (stream : List (ι × ε)) : Prop :=
  ∀ s₁ i e s₂ k, stream = s₁ ++ (i, e) :: s₂ → starts e = some k →
    finishesOf finishes k s₂ = [(k, outcome i)]

/-- A start, and a finish with an outcome. -/
structure IsPair (k : κ) (b : β) (start finish : ε) : Prop where
  starts_start : starts start = some k
  finishes_start : finishes start = none
  starts_finish : starts finish = none
  finishes_finish : finishes finish = some (k, b)

variable {starts finishes} {key : ι → κ} {outcome : ι → β}

omit [DecidableEq ι] in
theorem finishesOf_cons_none {k : κ} {e : ε} (h : finishes e = none) (s : List (ι × ε)) :
    finishesOf finishes k ((i, e) :: s) = finishesOf finishes k s := by
  rw [finishesOf, List.filterMap_cons, h]
  rfl

omit [DecidableEq ι] in
theorem finishesOf_cons_some {k : κ} {b : β} {e : ε} (h : finishes e = some (k, b))
    (s : List (ι × ε)) : finishesOf finishes k ((i, e) :: s) = (k, b) :: finishesOf finishes k s := by
  rw [finishesOf, List.filterMap_cons, h, Option.filter_some, if_pos (decide_eq_true rfl)]
  rfl

/-- What is finished under a key is finished by one party, if no other finishes anything under it. -/
theorem finishesOf_eq_ofParty {k : κ}
    (h : ∀ j e b, (j, e) ∈ stream → finishes e = some (k, b) → j = i) :
    finishesOf finishes k stream = finishesOf finishes k (tagged i (ofParty i stream)) := by
  induction stream with
  | nil => rfl
  | cons x stream ih =>
    obtain ⟨j, e⟩ := x
    have htail := ih fun j' e' b hmem => h j' e' b (List.mem_cons_of_mem _ hmem)
    by_cases hj : j = i
    · subst hj
      rw [ofParty_cons_self]
      simp only [finishesOf, tagged, List.filterMap_cons, List.map_cons] at htail ⊢
      rw [htail]
    · have hother : ofParty i ((j, e) :: stream) = ofParty i stream := by simp [ofParty, hj]
      have hnone : ((finishes e).filter fun f => f.1 = k) = none := by
        cases hfinish : finishes e with
        | none => rfl
        | some f =>
          obtain ⟨k', b⟩ := f
          have hne : k' ≠ k := by
            rintro rfl
            exact hj (h j e b List.mem_cons_self hfinish)
          simp [hne]
      rw [hother, ← htail, finishesOf, List.filterMap_cons, hnone]
      rfl

variable (key) in
/-- **Pairs.**  Where each party does nothing or starts and finishes something, under keys of its own, each
start in a stream is followed by exactly one finish under its key. -/
theorem paired_of_merges (h : Merges traces stream)
    (hpairs : ∀ i, traces i = [] ∨
      ∃ start finish, traces i = [start, finish] ∧ IsPair starts finishes (key i) (outcome i) start finish)
    (hkeys : ∀ i j, traces i ≠ [] → traces j ≠ [] → key i = key j → i = j) :
    Paired starts finishes outcome stream := by
  rintro s₁ i e s₂ k rfl hstart
  have hsplit := h.split
  obtain hnil | ⟨start, finish, htrace, hpair⟩ := hpairs i
  · rw [hnil] at hsplit
    exact absurd hsplit.symm (List.append_ne_nil_of_right_ne_nil _ (List.cons_ne_nil _ _))
  · -- the event is the start, and what the party does after it is the finish
    have hshape : e = start ∧ ofParty i s₂ = [finish] := by
      rw [htrace] at hsplit
      cases hbefore : ofParty i s₁ with
      | nil =>
        rw [hbefore, List.nil_append] at hsplit
        exact ⟨(List.cons.inj hsplit).1.symm, (List.cons.inj hsplit).2.symm⟩
      | cons a before =>
        rw [hbefore, List.cons_append] at hsplit
        have htail := (List.cons.inj hsplit).2
        cases before with
        | nil =>
          rw [List.nil_append] at htail
          rw [← (List.cons.inj htail).1, hpair.starts_finish] at hstart
          cases hstart
        | cons a' before => simp at htail
    obtain ⟨rfl, hafter⟩ := hshape
    obtain rfl : key i = k := Option.some.inj (hpair.starts_start.symm.trans hstart)
    have hown : ∀ j e' b, (j, e') ∈ s₂ → finishes e' = some (key i, b) → j = i := by
      intro j e' b hmem hfinish
      have hmem' : e' ∈ traces j := by
        rw [← h j, mem_ofParty]
        exact List.mem_append_right _ (List.mem_cons_of_mem _ hmem)
      have hne : traces i ≠ [] := by
        rw [htrace]
        exact List.cons_ne_nil _ _
      obtain hnil | ⟨start', finish', htrace', hpair'⟩ := hpairs j
      · rw [hnil] at hmem'
        cases hmem'
      · refine hkeys j i (by rw [htrace']; exact List.cons_ne_nil _ _) hne ?_
        rw [htrace', List.mem_cons, List.mem_singleton] at hmem'
        obtain rfl | rfl := hmem'
        · rw [hpair'.finishes_start] at hfinish
          cases hfinish
        · rw [hpair'.finishes_finish] at hfinish
          exact congrArg Prod.fst (Option.some.inj hfinish)
    rw [finishesOf_eq_ofParty hown, hafter]
    exact finishesOf_cons_some hpair.finishes_finish []

omit [DecidableEq ι] in
/-- A party that comes last and does not finish what it has started. -/
theorem not_paired_single {front : List (ι × ε)} {e : ε} {k : κ} (hstart : starts e = some k) :
    ¬ Paired starts finishes outcome (front ++ tagged i [e]) := by
  intro h
  exact absurd (h front i e [] k rfl hstart) (List.cons_ne_nil _ _).symm

omit [DecidableEq ι] in
/-- Two parties that come last and use one key. -/
theorem not_paired_same {front : List (ι × ε)} {k : κ} {b b' : β} {start finish start' finish' : ε}
    (hi : IsPair starts finishes k b start finish) (hj : IsPair starts finishes k b' start' finish') :
    ¬ Paired starts finishes outcome (front ++ (tagged i [start, finish] ++ tagged j [start', finish'])) := by
  intro h
  have hone := h front i start ((i, finish) :: tagged j [start', finish']) k rfl hi.starts_start
  have htwo : finishesOf finishes k (tagged j [start', finish']) = [(k, b')] :=
    (finishesOf_cons_none hj.finishes_start _).trans (finishesOf_cons_some hj.finishes_finish [])
  rw [finishesOf_cons_some hi.finishes_finish, htwo] at hone
  cases hone

end Pairs

end Shuffle
