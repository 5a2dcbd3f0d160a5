import Mathlib.Data.List.Sort

/-!
# Lists with entries behind others

A list is kept sorted and is searched from the front.  An entry that is put behind one which is found
instead of it is in the list, but no search tells.

* `insertionSort_append_singleton` : where a stable sort puts a new entry.
* `Shadowed` : a list, and the same with entries behind others.
* `Shadowed.find?`, `Shadowed.head?` : searches tell nothing.
* `Shadowed.insert`, `Shadowed.insert_again` : it stays so, when an entry is put into both, or one behind
  another is put into the one.
-/

namespace Shadows

variable {α : Type*} (r : α → α → Prop) [DecidableRel r]

/-- Where a stable sort puts an entry: behind those that come before it, or are equal to it. -/
def insertBehind (t : α) : List α → List α
  | [] => [t]
  | u :: us => if r u t then u :: insertBehind t us else t :: u :: us

variable {r}

theorem mem_insertBehind {t u : α} {us : List α} (h : u ∈ insertBehind r t us) : u = t ∨ u ∈ us := by
  induction us with
  | nil => exact .inl (List.mem_singleton.mp h)
  | cons v us ih =>
    rw [insertBehind] at h
    split at h
    · obtain rfl | h := List.mem_cons.mp h
      · exact .inr List.mem_cons_self
      · exact (ih h).imp id (List.mem_cons_of_mem v)
    · exact List.mem_cons.mp h

/-- What is in front of the whole list stays there. -/
theorem insertBehind_of_not {t : α} {ts : List α} (h : ∀ u ∈ ts, ¬ r u t) :
    insertBehind r t ts = t :: ts := by
  cases ts with
  | nil => rfl
  | cons u ts => rw [insertBehind, if_neg (h u List.mem_cons_self)]

section

variable [IsTrans α r]

/-- **A new entry at the end** of a sorted list. -/
theorem insertionSort_append_singleton {ts : List α} (h : ts.Pairwise r) (t : α) :
    (ts ++ [t]).insertionSort r = insertBehind r t ts := by
  induction ts with
  | nil => rfl
  | cons u ts ih =>
    obtain ⟨hfront, hrest⟩ := List.pairwise_cons.mp h
    rw [List.cons_append, List.insertionSort_cons, ih hrest, insertBehind]
    split
    · next hut =>
      have hall : ∀ v ∈ insertBehind r t ts, r u v := fun v hv => by
        obtain rfl | hv := mem_insertBehind hv
        · exact hut
        · exact hfront v hv
      cases hlist : insertBehind r t ts with
      | nil => rfl
      | cons v vs =>
        exact List.orderedInsert_cons_of_le r vs (hall v (hlist ▸ List.mem_cons_self))
    · next hut =>
      have hnot : ∀ v ∈ ts, ¬ r v t := fun v hv hvt => hut (trans_of r (hfront v hv) hvt)
      rw [insertBehind_of_not hnot, List.orderedInsert_of_not_le r ts hut]
      cases ts with
      | nil => rfl
      | cons v vs => rw [List.orderedInsert_cons_of_le r vs (hfront v List.mem_cons_self)]

end

/-! ### Entries behind others -/

/-- The list `us` is `ts` with other entries, each behind one that is the same to a search; `seen` is what
comes before. -/
inductive Shadowed (same : α → α → Prop) : List α → List α → List α → Prop where
  | nil {seen : List α} : Shadowed same seen [] []
  | keep {seen : List α} (t : α) {ts us : List α} (h : Shadowed same (t :: seen) ts us) :
      Shadowed same seen (t :: ts) (t :: us)
  | extra {seen : List α} (u : α) {ts us : List α} (hu : ∃ t ∈ seen, same t u)
      (h : Shadowed same seen ts us) : Shadowed same seen ts (u :: us)

namespace Shadowed

variable {same : α → α → Prop} {seen seen' ts us : List α} {t u : α}

theorem refl (seen ts : List α) : Shadowed same seen ts ts := by
  induction ts generalizing seen with
  | nil => exact .nil
  | cons t ts ih => exact .keep t (ih _)

theorem mono (h : Shadowed same seen ts us) (hseen : seen ⊆ seen') : Shadowed same seen' ts us := by
  induction h generalizing seen' with
  | nil => exact .nil
  | keep t _ ih => exact .keep t (ih (List.cons_subset_cons _ hseen))
  | extra u hu _ ih =>
    obtain ⟨t, ht, hsame⟩ := hu
    exact .extra u ⟨t, hseen ht, hsame⟩ (ih hseen)

theorem subset (h : Shadowed same seen ts us) : ts ⊆ us := by
  induction h with
  | nil => exact List.Subset.refl _
  | keep t _ ih => exact List.cons_subset_cons _ ih
  | extra u _ _ ih => exact List.subset_cons_of_subset _ ih

theorem find?_of_seen {p : α → Bool} (hp : ∀ t u, same t u → p u = true → p t = true)
    (h : Shadowed same seen ts us) (hseen : ∀ t ∈ seen, p t = false) : us.find? p = ts.find? p := by
  induction h with
  | nil => rfl
  | keep t _ ih =>
    cases ht : p t with
    | true => rw [List.find?_cons_of_pos ht, List.find?_cons_of_pos ht]
    | false =>
      rw [List.find?_cons_of_neg (by simp [ht]), List.find?_cons_of_neg (by simp [ht])]
      exact ih (List.forall_mem_cons.mpr ⟨ht, hseen⟩)
  | extra u hu _ ih =>
    obtain ⟨t, ht, hsame⟩ := hu
    have hpu : ¬ p u = true := fun hpu => by
      have hpt := hp t u hsame hpu
      rw [hseen t ht] at hpt
      cases hpt
    rw [List.find?_cons_of_neg hpu]
    exact ih hseen

/-- **A search finds the same.** -/
theorem find? {p : α → Bool} (hp : ∀ t u, same t u → p u = true → p t = true)
    (h : Shadowed same [] ts us) : us.find? p = ts.find? p := h.find?_of_seen hp (by simp)

/-- The first entry is the same. -/
theorem head? (h : Shadowed same [] ts us) : us.head? = ts.head? := by
  cases h with
  | nil => rfl
  | keep t _ => rfl
  | extra u hu _ => simp at hu

section Sorted

variable [IsTrans α r]

omit [DecidableRel r] in
/-- What is behind nothing of the long list is behind nothing of the short one. -/
theorem not_rel (h : Shadowed same seen ts us) (hsorted : (u :: us).Pairwise r) (hu : ¬ r u t) :
    ∀ w ∈ ts, ¬ r w t := fun w hw hwt =>
  hu (trans_of r ((List.pairwise_cons.mp hsorted).1 w (h.subset hw)) hwt)

/-- **An entry that is put into both lists.** -/
theorem insert (h : Shadowed same seen ts us) (hsorted : us.Pairwise r) (t : α) :
    Shadowed same seen (insertBehind r t ts) (insertBehind r t us) := by
  induction h with
  | nil => exact .keep t .nil
  | @keep seen w ts us h ih =>
    rw [insertBehind, insertBehind]
    split
    · exact .keep w (ih hsorted.of_cons)
    · exact .keep t (.keep w (h.mono (List.cons_subset_cons _ (List.subset_cons_self _ _))))
  | @extra seen w ts us hw h ih =>
    by_cases hwt : r w t
    · rw [insertBehind, if_pos hwt]
      exact .extra w hw (ih hsorted.of_cons)
    · rw [insertBehind, if_neg hwt, insertBehind_of_not (h.not_rel hsorted hwt)]
      obtain ⟨v, hv, hsame⟩ := hw
      exact .keep t (.extra w ⟨v, List.mem_cons_of_mem _ hv, hsame⟩ (h.mono (List.subset_cons_self _ _)))

/-- **One that is put into the long list**, where the short one has one that is the same. -/
theorem insert_again (hsame : ∀ t u, same t u → r t u) (h : Shadowed same seen ts us)
    (hsorted : us.Pairwise r) (ht : (∃ w ∈ seen, same w t) ∨ ∃ w ∈ ts, same w t) :
    Shadowed same seen ts (insertBehind r t us) := by
  induction h with
  | nil => exact .extra t (ht.resolve_right (by simp)) .nil
  | @keep seen w ts us h ih =>
    rw [insertBehind]
    split
    · refine .keep w (ih hsorted.of_cons ?_)
      obtain ⟨v, hv, hvt⟩ | ⟨v, hv, hvt⟩ := ht
      · exact .inl ⟨v, List.mem_cons_of_mem _ hv, hvt⟩
      · obtain rfl | hv := List.mem_cons.mp hv
        · exact .inl ⟨v, List.mem_cons_self, hvt⟩
        · exact .inr ⟨v, hv, hvt⟩
    · next hwt =>
      -- the entry of the short list would be in front of it
      refine .extra t (ht.resolve_right fun ⟨v, hv, hvt⟩ => ?_) (.keep w h)
      obtain rfl | hv := List.mem_cons.mp hv
      · exact hwt (hsame _ _ hvt)
      · exact h.not_rel hsorted hwt v hv (hsame _ _ hvt)
  | @extra seen w ts us hw h ih =>
    rw [insertBehind]
    split
    · exact .extra w hw (ih hsorted.of_cons ht)
    · next hwt =>
      refine .extra t (ht.resolve_right fun ⟨v, hv, hvt⟩ => ?_) (.extra w hw h)
      exact h.not_rel hsorted hwt v hv (hsame _ _ hvt)

end Sorted

end Shadowed

end Shadows
