import Mathlib.Data.List.Induction
import Mathlib.Order.MinMax

/-!
# Numbered cells

What comes is addressed to cells by their numbers and is put into them one after the other.  The row of
cells grows with empty ones as far as it is needed.

* `Cells.write` : something is put into its cell.
* `Cells.getElem?_foldl_write` : what is in a cell in the end, which depends only on what was addressed to
  it; so it does not matter how the cells take turns.
-/

namespace Cells

variable {α δ : Type*} (empty : α) (put : α → δ → α) (index : δ → ℕ)

/-- The row with the cell of this number. -/
def room (cells : List α) (i : ℕ) : List α := cells ++ List.replicate (i + 1 - cells.length) empty

/-- Something is put into its cell. -/
def write (cells : List α) (d : δ) : List α :=
  (room empty cells (index d)).modify (index d) fun a => put a d

/-- How many cells are needed. -/
def count (ds : List δ) : ℕ := ds.foldl (fun n d => max n (index d + 1)) 0

/-- What is addressed to a cell. -/
def ofCell (i : ℕ) (ds : List δ) : List δ := ds.filter fun d => index d = i

variable {empty put index} {ds : List δ} {d : δ} {i : ℕ}

theorem count_append_singleton : count index (ds ++ [d]) = max (count index ds) (index d + 1) := by
  simp [count, List.foldl_append]

theorem ofCell_append_self (h : index d = i) : ofCell index i (ds ++ [d]) = ofCell index i ds ++ [d] := by
  simp [ofCell, h]

theorem ofCell_append_of_ne (h : index d ≠ i) : ofCell index i (ds ++ [d]) = ofCell index i ds := by
  simp [ofCell, h]

theorem index_lt_count (h : d ∈ ds) : index d < count index ds := by
  induction ds using List.reverseRecOn with
  | nil => cases h
  | append_singleton ds d' ih =>
    rw [count_append_singleton]
    obtain h | h := List.mem_append.1 h
    · exact (ih h).trans_le (le_max_left _ _)
    · rw [List.mem_singleton.1 h]
      exact Nat.lt_of_succ_le (le_max_right _ _)

theorem ofCell_eq_nil (h : count index ds ≤ i) : ofCell index i ds = [] := by
  refine List.filter_eq_nil_iff.2 fun d hd => ?_
  have hlt : index d < count index ds := index_lt_count hd
  simp only [decide_eq_true_eq]
  omega

theorem getElem?_room (cells : List α) (n : ℕ) :
    (room empty cells n)[i]? =
      if i < cells.length then cells[i]? else if i < n + 1 then some empty else none := by
  unfold room
  rw [List.getElem?_append]
  by_cases hi : i < cells.length
  · rw [if_pos hi, if_pos hi]
  · rw [if_neg hi, if_neg hi, List.getElem?_replicate]
    by_cases hn : i < n + 1
    · rw [if_pos hn, if_pos (by omega)]
    · rw [if_neg hn, if_neg (by omega)]

theorem length_room (cells : List α) (n : ℕ) :
    (room empty cells n).length = max cells.length (n + 1) := by
  rw [room, List.length_append, List.length_replicate]
  omega

theorem length_write (cells : List α) :
    (write empty put index cells d).length = max cells.length (index d + 1) := by
  rw [write, List.length_modify, length_room]

theorem length_foldl_write (ds : List δ) :
    (ds.foldl (write empty put index) []).length = count index ds := by
  induction ds using List.reverseRecOn with
  | nil => rfl
  | append_singleton ds d ih =>
    rw [List.foldl_append, List.foldl_cons, List.foldl_nil, length_write, ih, count_append_singleton]

/-- **Cells.**  In the end, in each cell is what was addressed to it, one after the other. -/
theorem getElem?_foldl_write (ds : List δ) (i : ℕ) :
    (ds.foldl (write empty put index) [])[i]? =
      if i < count index ds then some ((ofCell index i ds).foldl put empty) else none := by
  induction ds using List.reverseRecOn with
  | nil => rfl
  | append_singleton ds d ih =>
    have hroom : (room empty (ds.foldl (write empty put index) []) (index d))[i]? =
        if i < max (count index ds) (index d + 1) then some ((ofCell index i ds).foldl put empty)
        else none := by
      rw [getElem?_room, length_foldl_write, ih]
      by_cases hi : i < count index ds
      · rw [if_pos hi, if_pos hi, if_pos (hi.trans_le (le_max_left _ _))]
      · -- the cell is new, if it is there
        rw [if_neg hi, ofCell_eq_nil (Nat.le_of_not_lt hi)]
        by_cases hnew : i < index d + 1
        · rw [if_pos hnew, if_pos (hnew.trans_le (le_max_right _ _))]
          rfl
        · rw [if_neg hnew, if_neg fun h => (lt_max_iff.1 h).elim hi hnew]
    rw [List.foldl_append, List.foldl_cons, List.foldl_nil, write, List.getElem?_modify,
      count_append_singleton, hroom]
    by_cases hd : index d = i
    · rw [if_pos (hd ▸ Nat.lt_of_succ_le (le_max_right _ _)), ofCell_append_self hd, List.foldl_append,
        if_pos (hd ▸ Nat.lt_of_succ_le (le_max_right _ _))]
      simp [hd]
    · rw [ofCell_append_of_ne hd]
      simp [hd]

end Cells
