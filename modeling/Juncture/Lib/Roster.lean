import Mathlib.Data.List.Basic
import Mathlib.Data.List.Induction
import Mathlib.Data.List.Nodup

/-!
# Rosters

A roster is a list whose entries have keys.  It is edited: an entry is put in the place of the one with its
key, or at the end if there is none; the entries with a key are removed; or all are.

* `nodup_edits` : no two entries of a roster have the same key.
* `lookup_edits` : the entry of a key is what the last edit that concerns it tells.
* `keys_edits` : entries that no edit removes stay in front, in their order.
-/

namespace Roster

variable {α κ : Type*} [DecidableEq κ] (key : α → κ)

/-- An edit of a roster. -/
inductive Edit (α κ : Type*) where
  | put (x : α)
  | remove (k : κ)
  | clear

/-- Puts an entry in the place of the first with its key, or at the end. -/
def put (x : α) : List α → List α
  | [] => [x]
  | y :: l => if key y = key x then x :: l else y :: put x l

/-- What an edit makes of a roster. -/
def edit (l : List α) : Edit α κ → List α
  | .put x => put key x l
  | .remove k => l.filter fun y => key y ≠ k
  | .clear => []

/-- What edits make of a roster. -/
def edits (l : List α) (es : List (Edit α κ)) : List α := es.foldl (edit key) l

/-- The first entry with a key. -/
def lookup (k : κ) (l : List α) : Option α := l.find? fun y => key y = k

namespace Edit

/-- The edit does not remove the entries with a key. -/
def spares (k : κ) : Edit α κ → Bool
  | .put _ => true
  | .remove k' => k' ≠ k
  | .clear => false

/-- What the edit tells of a key: the entry it has from now on, if any. -/
def word (k : κ) : Edit α κ → Option (Option α)
  | .put x => if key x = k then some (some x) else none
  | .remove k' => if k' = k then some none else none
  | .clear => some none

end Edit

/-- What the last edit that concerns a key tells of it. -/
def lastWord (k : κ) (es : List (Edit α κ)) : Option (Option α) :=
  es.foldl (fun w e => (e.word key k).or w) none

variable {key}

/-! ### One edit -/

theorem mem_put {x y : α} {l : List α} (h : y ∈ put key x l) : y = x ∨ y ∈ l := by
  induction l with
  | nil => exact .inl (List.mem_singleton.mp h)
  | cons z l ih =>
    rw [put] at h
    split at h
    · exact (List.mem_cons.mp h).imp id (List.mem_cons_of_mem z)
    · obtain rfl | h := List.mem_cons.mp h
      · exact .inr List.mem_cons_self
      · exact (ih h).imp id (List.mem_cons_of_mem z)

/-- An entry that is put leaves the keys as they are, or adds its own at the end. -/
theorem map_put (x : α) (l : List α) :
    (put key x l).map key = if key x ∈ l.map key then l.map key else l.map key ++ [key x] := by
  induction l with
  | nil => rfl
  | cons y l ih =>
    rw [put]
    by_cases hy : key y = key x
    · rw [if_pos hy, List.map_cons, List.map_cons, hy, if_pos List.mem_cons_self]
    · rw [if_neg hy, List.map_cons, ih, List.map_cons, List.cons_append]
      simp only [List.mem_cons, Ne.symm hy, false_or]
      split <;> rfl

/-- In a roster, the entry that is there is replaced, and no other. -/
theorem put_of_mem {x : α} {l : List α} (h : (l.map key).Nodup) (hx : key x ∈ l.map key) :
    put key x l = l.map fun y => if key y = key x then x else y := by
  induction l with
  | nil => cases hx
  | cons y l ih =>
    rw [List.map_cons, List.nodup_cons] at h
    rw [put, List.map_cons]
    by_cases hy : key y = key x
    · have hrest : ∀ z ∈ l, (if key z = key x then x else z) = z := by
        intro z hz
        refine if_neg fun hzx => h.1 ?_
        rw [hy, ← hzx]
        exact List.mem_map_of_mem hz
      rw [if_pos hy, if_pos hy, List.map_congr_left hrest, List.map_id']
    · rw [if_neg hy, if_neg hy]
      rw [List.map_cons, List.mem_cons] at hx
      rw [ih h.2 (hx.resolve_left (Ne.symm hy))]

theorem lookup_put (x : α) (l : List α) (k : κ) :
    lookup key k (put key x l) = if key x = k then some x else lookup key k l := by
  unfold lookup
  induction l with
  | nil => by_cases hk : key x = k <;> simp [put, hk]
  | cons y l ih =>
    rw [put]
    by_cases hy : key y = key x
    · rw [if_pos hy, List.find?_cons, List.find?_cons, hy]
      by_cases hk : key x = k <;> simp [hk]
    · rw [if_neg hy, List.find?_cons, List.find?_cons, ih]
      by_cases hyk : key y = k
      · have hxk : key x ≠ k := fun hxk => hy (hyk.trans hxk.symm)
        simp [hyk, hxk]
      · simp [hyk]

theorem lookup_filter_ne (k k' : κ) (l : List α) :
    lookup key k (l.filter fun y => key y ≠ k') = if k' = k then none else lookup key k l := by
  rw [lookup, List.find?_filter, lookup]
  by_cases hk : k' = k
  · subst hk
    rw [if_pos rfl, List.find?_eq_none]
    simp
  · rw [if_neg hk]
    congr 1
    funext y
    by_cases hy : key y = k <;> simp [hy, Ne.symm hk]

/-- The entry of a key after an edit. -/
theorem lookup_edit (l : List α) (e : Edit α κ) (k : κ) :
    lookup key k (edit key l e) = (e.word key k).getD (lookup key k l) := by
  cases e with
  | put x =>
    rw [edit, lookup_put, Edit.word]
    split <;> rfl
  | remove k' =>
    rw [edit, lookup_filter_ne, Edit.word]
    split <;> rfl
  | clear => rfl

/-- The keys after an edit: those that it spares, and perhaps one at the end. -/
theorem map_edit (l : List α) (e : Edit α κ) : ∃ added,
    (edit key l e).map key = (l.map key).filter (fun k => e.spares k) ++ added := by
  cases e with
  | put x =>
    have hall : (l.map key).filter (fun k => (Edit.put x : Edit α κ).spares k) = l.map key :=
      List.filter_eq_self.mpr fun k _ => rfl
    rw [hall, edit, map_put]
    split
    · exact ⟨[], (List.append_nil _).symm⟩
    · exact ⟨_, rfl⟩
  | remove k' =>
    refine ⟨[], ?_⟩
    rw [edit, List.append_nil, List.filter_map]
    congr 2
    funext y
    simp [Edit.spares, eq_comm]
  | clear => exact ⟨[], by simp [edit, Edit.spares]⟩

theorem nodup_edit {l : List α} (h : (l.map key).Nodup) (e : Edit α κ) :
    ((edit key l e).map key).Nodup := by
  cases e with
  | put x =>
    rw [edit, map_put]
    split
    · exact h
    · next hx => exact h.append (List.nodup_singleton _) (by simpa using hx)
  | remove k' => exact h.sublist (List.filter_sublist.map _)
  | clear => exact List.nodup_nil

/-! ### All edits -/

variable (l : List α) (es : List (Edit α κ))

theorem edits_append (fs : List (Edit α κ)) :
    edits key l (es ++ fs) = edits key (edits key l es) fs := List.foldl_append

variable {l es}

/-- No two entries of a roster have the same key. -/
theorem nodup_edits (h : (l.map key).Nodup) : ((edits key l es).map key).Nodup := by
  induction es generalizing l with
  | nil => exact h
  | cons e es ih => exact ih (nodup_edit h e)

/-- An entry was there, or has been put there. -/
theorem mem_edits {x : α} (h : x ∈ edits key l es) : x ∈ l ∨ .put x ∈ es := by
  induction es generalizing l with
  | nil => exact .inl h
  | cons e es ih =>
    obtain h | h := ih h
    · cases e with
      | put y =>
        obtain rfl | h := mem_put h
        · exact .inr List.mem_cons_self
        · exact .inl h
      | remove k => exact .inl (List.mem_of_mem_filter h)
      | clear => cases h
    · exact .inr (List.mem_cons_of_mem _ h)

/-- **The entry of a key** is what the last edit that concerns it tells. -/
theorem lookup_edits (k : κ) :
    lookup key k (edits key l es) = (lastWord key k es).getD (lookup key k l) := by
  induction es using List.reverseRecOn with
  | nil => rfl
  | append_singleton es e ih =>
    rw [edits_append, lastWord, List.foldl_append]
    refine (lookup_edit _ e k).trans ?_
    rw [ih]
    cases h : e.word key k <;> simp [lastWord, h]

variable (l es) in
/-- **The order of the keys.**  Those that no edit removes stay in front, in their order. -/
theorem keys_edits : ∃ added, (edits key l es).map key =
    (l.map key).filter (fun k => es.all fun e => e.spares k) ++ added := by
  induction es generalizing l with
  | nil => exact ⟨[], by simp [edits]⟩
  | cons e es ih =>
    obtain ⟨first, hfirst⟩ : ∃ first, (edit key l e).map key = _ ++ first := map_edit l e
    obtain ⟨added, hadded⟩ := ih (edit key l e)
    refine ⟨first.filter (fun k => es.all fun e => e.spares k) ++ added, hadded.trans ?_⟩
    rw [hfirst, List.filter_append, List.filter_filter, List.append_assoc]
    congr 2
    funext k
    rw [List.all_cons, Bool.and_comm]

end Roster
