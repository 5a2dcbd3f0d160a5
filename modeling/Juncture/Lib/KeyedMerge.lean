import Mathlib.Data.List.Sort

/-!
# Merging a batch in key order

A batch of items is merged into an accumulator by a partial step `f : β → α → Option β`, one item
after the other, after a stable sort by a key.  Two things can make the outcome independent of the
order in which the batch arrived:

* the items that matter have pairwise distinct keys, so that the sort determines their order
  (`filterMap_sortByKey_eq_of_perm`);
* the steps of any two items can be exchanged (`Swaps`), so that no order matters
  (`foldlM_eq_of_perm`).

When neither holds, a tie is decided by the arrival order: `pair_sublist_sortByKey`.
-/

namespace KeyedMerge

variable {α β γ κ : Type*}

/-! ### Exchangeable steps -/

/-- The steps of `a` and `b` can be exchanged from every accumulator. -/
def Swaps (f : β → α → Option β) (a b : α) : Prop :=
  ∀ s, (f s a).bind (f · b) = (f s b).bind (f · a)

theorem Swaps.symm {f : β → α → Option β} {a b : α} (h : Swaps f a b) : Swaps f b a :=
  fun s => (h s).symm

/-- **A batch of pairwise exchangeable steps can be merged in any order.** -/
theorem foldlM_eq_of_perm {f : β → α → Option β} {l l' : List α} (h : l.Perm l') :
    l.Pairwise (Swaps f) → ∀ s, l.foldlM f s = l'.foldlM f s := by
  induction h with
  | nil => intro _ _; rfl
  | cons a _ ih =>
    intro hp s
    simp only [List.foldlM_cons]
    exact congrArg _ (funext fun t => ih hp.of_cons t)
  | swap a b l =>
    intro hp s
    have hab : Swaps f b a := List.rel_of_pairwise_cons hp (List.mem_cons_self ..)
    have h2 := hab s
    simp only [List.foldlM_cons, Option.bind_eq_bind, ← Option.bind_assoc, h2]
  | trans h₁ _ ih₁ ih₂ =>
    intro hp s
    exact (ih₁ hp s).trans (ih₂ (hp.perm h₁ Swaps.symm) s)

/-! ### Stable sort by a key -/

variable (r : κ → κ → Prop) [DecidableRel r] (key : α → κ)

/-- The batch in key order; items with equal keys stay in arrival order. -/
def sortByKey (l : List α) : List α :=
  l.insertionSort fun a b => r (key a) (key b)

theorem sortByKey_perm (l : List α) : (sortByKey r key l).Perm l :=
  List.perm_insertionSort _ l

theorem filterMap_sortByKey_perm (g : α → Option γ) {l l' : List α} (h : l.Perm l') :
    ((sortByKey r key l).filterMap g).Perm ((sortByKey r key l').filterMap g) :=
  ((sortByKey_perm r key l).trans (h.trans (sortByKey_perm r key l').symm)).filterMap g

variable {r key}

/-- A tie is decided by the arrival order. -/
theorem pair_sublist_sortByKey {a b : α} {l : List α} (hab : r (key a) (key b))
    (h : [a, b].Sublist l) : [a, b].Sublist (sortByKey r key l) :=
  List.pair_sublist_insertionSort hab h

variable [Std.Total r] [IsTrans κ r]

theorem pairwise_sortByKey (l : List α) :
    (sortByKey r key l).Pairwise fun a b => r (key a) (key b) := by
  have : Std.Total fun a b : α => r (key a) (key b) := ⟨fun a b => Std.Total.total (key a) (key b)⟩
  have : IsTrans α fun a b : α => r (key a) (key b) :=
    ⟨fun a b c => IsTrans.trans (key a) (key b) (key c)⟩
  exact List.pairwise_insertionSort _ l

variable [Std.Antisymm r]

/-- **Distinct keys determine the merge order.**  If the items on which `g` is defined have
distinct keys, the sorted batch shows the same values of `g` in the same order, whatever the
arrival order was. -/
theorem filterMap_sortByKey_eq_of_perm (g : α → Option γ) {l l' : List α} (h : l.Perm l')
    (hk : ((l.filter fun a => (g a).isSome).map key).Nodup) :
    (sortByKey r key l).filterMap g = (sortByKey r key l').filterMap g := by
  have hfilter : ∀ m : List α,
      m.filterMap g = (m.filter fun a => (g a).isSome).filterMap g := by
    intro m
    rw [List.filterMap_filter]
    refine List.filterMap_congr fun a _ => ?_
    cases g a <;> simp
  rw [hfilter (sortByKey r key l), hfilter (sortByKey r key l')]
  have hperm : ∀ m : List α, ((sortByKey r key m).filter fun a => (g a).isSome).Perm
      (m.filter fun a => (g a).isSome) := fun m => (sortByKey_perm r key m).filter _
  have hll' := (hperm l).trans ((h.filter _).trans (hperm l').symm)
  -- On a list with distinct keys, the order on keys is antisymmetric on items.
  have hanti : ∀ a b, a ∈ (sortByKey r key l).filter (fun a => (g a).isSome) →
      b ∈ (sortByKey r key l').filter (fun a => (g a).isSome) →
      r (key a) (key b) → r (key b) (key a) → a = b := by
    intro a b ha hb hab hba
    have ha' := (hperm l).mem_iff.1 ha
    have hb' := (h.filter fun a => (g a).isSome).mem_iff.2 ((hperm l').mem_iff.1 hb)
    exact List.inj_on_of_nodup_map hk ha' hb' (Std.Antisymm.antisymm _ _ hab hba)
  rw [List.Perm.eq_of_pairwise hanti ((pairwise_sortByKey l).filter _)
    ((pairwise_sortByKey l').filter _) hll']

end KeyedMerge
