import Mathlib.Data.List.Basic

/-!
# Delimiters

Words that are written one after the other are found again if they do not contain the delimiter that is
written between them.

* `cut` : what stands before and after the first delimiter.
* `append_cons_inj` : a word without a delimiter, and what follows it.
* `splitOn_append_marked` : many words, each behind a delimiter.
* `not_mem_of_mem_splitOn` : nothing that is found contains a delimiter.
-/

namespace Delimited

variable {α : Type*} [DecidableEq α] (c : α)

/-- What stands before and after the first delimiter. -/
def cut : List α → Option (List α × List α)
  | [] => none
  | a :: l => if a = c then some ([], l) else (cut l).map fun (x, y) => (a :: x, y)

/-- The words, each behind a delimiter. -/
def marked (ws : List (List α)) : List α := ws.flatMap (c :: ·)

variable {c}

theorem cut_append_cons {x : List α} (hx : c ∉ x) (y : List α) : cut c (x ++ c :: y) = some (x, y) := by
  induction x with
  | nil => exact if_pos rfl
  | cons a x ih =>
    rw [List.mem_cons, not_or] at hx
    rw [List.cons_append, cut, if_neg (Ne.symm hx.1), ih hx.2, Option.map_some]

/-- What is found is what was written, and has no delimiter before it. -/
theorem cut_eq_some {l x y : List α} (h : cut c l = some (x, y)) : l = x ++ c :: y ∧ c ∉ x := by
  induction l generalizing x with
  | nil => cases h
  | cons a l ih =>
    rw [cut] at h
    split at h
    · next ha =>
      obtain ⟨rfl, rfl⟩ := Prod.mk.inj (Option.some.inj h)
      exact ⟨by rw [ha, List.nil_append], List.not_mem_nil⟩
    · next ha =>
      obtain ⟨⟨x', y'⟩, hcut, h⟩ := Option.map_eq_some_iff.mp h
      obtain ⟨rfl, rfl⟩ := Prod.mk.inj h
      obtain ⟨rfl, hx'⟩ := ih hcut
      exact ⟨rfl, by simp [Ne.symm ha, hx']⟩

/-- Words without a delimiter are told apart from what follows them. -/
theorem append_cons_inj {x x' y y' : List α} (hx : c ∉ x) (hx' : c ∉ x') :
    x ++ c :: y = x' ++ c :: y' ↔ x = x' ∧ y = y' := by
  constructor
  · intro h
    have hcut := congrArg (cut c) h
    rw [cut_append_cons hx, cut_append_cons hx'] at hcut
    exact Prod.mk.inj (Option.some.inj hcut)
  · rintro ⟨rfl, rfl⟩
    rfl

/-- **Words behind delimiters** are found again. -/
theorem splitOn_append_marked {w : List α} {ws : List (List α)} (hw : c ∉ w) (hws : ∀ w ∈ ws, c ∉ w) :
    (w ++ marked c ws).splitOn c = w :: ws := by
  induction ws generalizing w with
  | nil => rw [marked, List.flatMap_nil, List.append_nil, List.splitOn_eq_singleton hw]
  | cons v ws ih =>
    rw [List.forall_mem_cons] at hws
    have hrest : marked c (v :: ws) = c :: (v ++ marked c ws) := rfl
    rw [hrest, List.splitOn_append_cons_self_of_not_mem hw, ih hws.1 hws.2]

/-- Nothing that is found contains a delimiter. -/
theorem not_mem_of_mem_splitOn {l w : List α} (h : w ∈ l.splitOn c) : c ∉ w := by
  induction l generalizing w with
  | nil =>
    obtain rfl := List.mem_singleton.mp h
    exact List.not_mem_nil
  | cons a l ih =>
    rw [List.splitOn_cons_eq_if_modifyHead] at h
    split at h
    · obtain rfl | h := List.mem_cons.mp h
      · exact List.not_mem_nil
      · exact ih h
    · next ha =>
      have hac : c ≠ a := fun heq => ha (by simp [heq])
      cases hsplit : l.splitOn c with
      | nil => exact absurd hsplit (List.splitOn_ne_nil c l)
      | cons v vs =>
        rw [hsplit, List.modifyHead_cons] at h
        obtain rfl | h := List.mem_cons.mp h
        · simp [hac, ih (hsplit ▸ List.mem_cons_self)]
        · exact ih (hsplit ▸ List.mem_cons_of_mem _ h)

end Delimited
