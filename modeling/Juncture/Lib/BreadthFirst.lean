import Mathlib.Data.Finset.Card
import Mathlib.Logic.Relation

/-!
# Breadth-first search

A queue and a list of what has been seen; every turn takes the first of the queue and appends its
new successors to both.

* `Frontier` : the invariant of the turns.
* `mem_search_iff` : with a turn for each name there is, exactly what is reached is seen.
-/

namespace BreadthFirst

open Relation

variable {α : Type*} [DecidableEq α]

/-- One successor: what has been seen, and the queue. -/
def look (acc : List α × List α) (w : α) : List α × List α :=
  if w ∈ acc.1 then acc else (acc.1 ++ [w], acc.2 ++ [w])

/-- What has been seen after some turns. -/
def search (succ : α → List α) : ℕ → List α → List α → List α
  | 0, seen, _ => seen
  | _ + 1, seen, [] => seen
  | fuel + 1, seen, v :: queue =>
    let acc := (succ v).foldl look (seen, queue)
    search succ fuel acc.1 acc.2

/-- The new successors are appended to both, once each. -/
theorem foldl_look (l : List α) (seen queue : List α) : ∃ new : List α,
    l.foldl look (seen, queue) = (seen ++ new, queue ++ new) ∧ new.Nodup ∧
      ∀ x, x ∈ new ↔ x ∈ l ∧ x ∉ seen := by
  induction l generalizing seen queue with
  | nil => exact ⟨[], by simp, List.nodup_nil, by simp⟩
  | cons w l ih =>
    rw [List.foldl_cons]
    by_cases hw : w ∈ seen
    · obtain ⟨new, hnew, hnodup, hmem⟩ := ih seen queue
      refine ⟨new, by rwa [look, if_pos hw], hnodup, fun x => ?_⟩
      rw [hmem, List.mem_cons]
      constructor
      · exact fun ⟨hx, hseen⟩ => ⟨.inr hx, hseen⟩
      · rintro ⟨rfl | hx, hseen⟩
        · exact absurd hw hseen
        · exact ⟨hx, hseen⟩
    · obtain ⟨new, hnew, hnodup, hmem⟩ := ih (seen ++ [w]) (queue ++ [w])
      refine ⟨w :: new, ?_, List.nodup_cons.2 ⟨fun h => ?_, hnodup⟩, fun x => ?_⟩
      · rw [look, if_neg hw, hnew, List.append_assoc, List.append_assoc]
        rfl
      · exact ((hmem w).1 h).2 (List.mem_append_right _ List.mem_cons_self)
      · rw [List.mem_cons, List.mem_cons, hmem, List.mem_append, List.mem_singleton, not_or]
        constructor
        · rintro (rfl | ⟨hx, hseen, -⟩)
          · exact ⟨.inl rfl, hw⟩
          · exact ⟨.inr hx, hseen⟩
        · rintro ⟨rfl | hx, hseen⟩
          · exact .inl rfl
          · by_cases hxw : x = w
            · exact .inl hxw
            · exact .inr ⟨hx, hseen, hxw⟩

/-- The invariant of the turns. -/
structure Frontier (succ : α → List α) (root : α) (seen queue : List α) : Prop where
  /-- The root has been seen. -/
  root_mem : root ∈ seen
  /-- What has been seen is reached. -/
  sound : ∀ x ∈ seen, ReflTransGen (fun x y => y ∈ succ x) root x
  /-- What is in the queue has been seen. -/
  queue_subset : ∀ x ∈ queue, x ∈ seen
  /-- The successors of everything else have been seen. -/
  closed : ∀ x ∈ seen, x ∉ queue → ∀ y ∈ succ x, y ∈ seen

variable {succ : α → List α} {root v : α} {seen queue new : List α}

omit [DecidableEq α] in
theorem frontier_root : Frontier succ root [root] [root] where
  root_mem := List.mem_cons_self
  sound x hx := by
    obtain rfl := List.mem_singleton.1 hx
    exact .refl
  queue_subset _ hx := hx
  closed _ hx hnot := absurd hx hnot

/-- **One turn keeps the invariant.** -/
theorem Frontier.step (h : Frontier succ root seen (v :: queue))
    (hnew : ∀ x, x ∈ new ↔ x ∈ succ v ∧ x ∉ seen) :
    Frontier succ root (seen ++ new) (queue ++ new) where
  root_mem := List.mem_append_left _ h.root_mem
  sound x hx := by
    obtain hx | hx := List.mem_append.1 hx
    · exact h.sound x hx
    · exact (h.sound v (h.queue_subset v List.mem_cons_self)).tail ((hnew x).1 hx).1
  queue_subset x hx := by
    obtain hx | hx := List.mem_append.1 hx
    · exact List.mem_append_left _ (h.queue_subset x (List.mem_cons_of_mem _ hx))
    · exact List.mem_append_right _ hx
  closed x hx hnot y hy := by
    rw [List.mem_append, not_or] at hnot
    have hseen := (List.mem_append.1 hx).resolve_right hnot.2
    by_cases hxv : x = v
    · -- the successors of the first of the queue are new, or have been seen
      subst hxv
      by_cases hy' : y ∈ seen
      · exact List.mem_append_left _ hy'
      · exact List.mem_append_right _ ((hnew y).2 ⟨hy, hy'⟩)
    · have hqueue : x ∉ v :: queue := by
        rw [List.mem_cons, not_or]
        exact ⟨hxv, hnot.1⟩
      exact List.mem_append_left _ (h.closed x hseen hqueue y hy)

omit [DecidableEq α] in
/-- With an empty queue everything that is reached has been seen. -/
theorem Frontier.mem_iff (h : Frontier succ root seen []) (x : α) :
    x ∈ seen ↔ ReflTransGen (fun x y => y ∈ succ x) root x := by
  refine ⟨h.sound x, fun hx => ?_⟩
  induction hx with
  | refl => exact h.root_mem
  | tail _ hedge ih => exact h.closed _ ih (by simp) _ hedge

/-- New names are taken from those that are left. -/
theorem card_left_add_length {names : Finset α} (hnodup : new.Nodup)
    (hnew : ∀ x ∈ new, x ∈ names ∧ x ∉ seen) :
    (names.filter (· ∉ seen ++ new)).card + new.length = (names.filter (· ∉ seen)).card := by
  have hcard : new.toFinset.card = new.length := List.toFinset_card_of_nodup hnodup
  have hsub : new.toFinset ⊆ names.filter (· ∉ seen) := fun x hx =>
    Finset.mem_filter.2 (hnew x (List.mem_toFinset.1 hx))
  have hleft : names.filter (· ∉ seen ++ new) = names.filter (· ∉ seen) \ new.toFinset := by
    ext x
    simp only [Finset.mem_filter, List.mem_append, not_or, Finset.mem_sdiff, List.mem_toFinset,
      and_assoc]
  rw [hleft, ← hcard]
  exact Finset.card_sdiff_add_card_eq_card hsub

/-- **What the search has seen at its end**, if `names` has all successors: a turn for each name
that is left, and for each in the queue, is enough. -/
theorem Frontier.mem_search_iff {names : Finset α} (hnames : ∀ x, ∀ y ∈ succ x, y ∈ names)
    {fuel : ℕ} (h : Frontier succ root seen queue)
    (hfuel : queue.length + (names.filter (· ∉ seen)).card ≤ fuel) (x : α) :
    x ∈ search succ fuel seen queue ↔ ReflTransGen (fun x y => y ∈ succ x) root x := by
  induction fuel generalizing seen queue with
  | zero =>
    obtain rfl : queue = [] := List.eq_nil_of_length_eq_zero (by omega)
    exact h.mem_iff x
  | succ fuel ih =>
    cases queue with
    | nil => exact h.mem_iff x
    | cons v queue =>
      obtain ⟨new, hfold, hnodup, hmem⟩ := foldl_look (succ v) seen queue
      have hcard := card_left_add_length hnodup fun x hx =>
        ⟨hnames v x ((hmem x).1 hx).1, ((hmem x).1 hx).2⟩
      rw [search, hfold]
      refine ih (h.step hmem) ?_
      show (queue ++ new).length + (names.filter (· ∉ seen ++ new)).card ≤ fuel
      rw [List.length_append]
      rw [List.length_cons] at hfuel
      omega

/-- **Breadth-first search from a root.** -/
theorem mem_search_iff {names : Finset α} (hnames : ∀ x, ∀ y ∈ succ x, y ∈ names) {fuel : ℕ}
    (hfuel : names.card + 1 ≤ fuel) (x : α) :
    x ∈ search succ fuel [root] [root] ↔ ReflTransGen (fun x y => y ∈ succ x) root x := by
  refine frontier_root.mem_search_iff hnames ?_ x
  have := Finset.card_filter_le names (· ∉ [root])
  rw [List.length_singleton]
  omega

end BreadthFirst
