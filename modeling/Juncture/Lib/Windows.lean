import Mathlib.Data.List.Nodup

/-!
# Windows of a list

A list can be narrowed in two ways: by what its elements are, and by where they stand.  Here both are
asked of each element and its position in the whole list, however the narrowing is done.

* `select` : the elements whose positions are chosen.
* `first` : the first position that is chosen.
* `takeTo_select`, `dropTo_select` : to cut a narrowed list at an element is to choose positions in the
  whole list.
* `le_of_take_select_eq` : selections that start alike are alike up to there.
-/

namespace Window

variable {α : Type*} {p q : ℕ → α → Bool} {l : List α}

/-- The elements whose positions are chosen. -/
def select (p : ℕ → α → Bool) (l : List α) : List α :=
  (l.zipIdx.filter fun x => p x.2 x.1).map Prod.fst

/-- The first position that is chosen. -/
def first (p : ℕ → α → Bool) (l : List α) : Option ℕ :=
  (l.zipIdx.find? fun x => p x.2 x.1).map Prod.snd

/-- What comes before the first element that satisfies `m`, if there is one. -/
def takeTo (m : α → Bool) (l : List α) : List α :=
  match l.findIdx? m with
  | some pos => l.take pos
  | none => l

/-- What comes after it, if there is one. -/
def dropTo (m : α → Bool) (l : List α) : List α :=
  match l.findIdx? m with
  | some pos => l.drop (pos + 1)
  | none => l

/-! ### Selections and first positions -/

@[simp] theorem select_nil : select p [] = [] := rfl

@[simp] theorem select_cons (a : α) (l : List α) :
    select p (a :: l) =
      if p 0 a then a :: select (fun i => p (i + 1)) l else select (fun i => p (i + 1)) l := by
  simp only [select, List.zipIdx_cons, List.zipIdx_succ, List.filter_cons, List.filter_map,
    Function.comp_def]
  split <;> simp [Function.comp_def]

@[simp] theorem first_nil : first p [] = none := rfl

@[simp] theorem first_cons (a : α) (l : List α) :
    first p (a :: l) = if p 0 a then some 0 else (first (fun i => p (i + 1)) l).map (· + 1) := by
  simp only [first, List.zipIdx_cons, List.zipIdx_succ, List.find?_cons, List.find?_map,
    Function.comp_def]
  split <;> simp_all [Function.comp_def]

theorem select_congr (h : ∀ i a, l[i]? = some a → p i a = q i a) : select p l = select q l := by
  induction l generalizing p q with
  | nil => rfl
  | cons a l ih =>
    rw [select_cons, select_cons, h 0 a rfl, ih fun i b hb => h (i + 1) b hb]

theorem filter_eq_select (p : α → Bool) (l : List α) : l.filter p = select (fun _ => p) l := by
  induction l with
  | nil => rfl
  | cons a l ih => rw [List.filter_cons, select_cons, ih]

theorem findIdx?_eq_first (m : α → Bool) (l : List α) : l.findIdx? m = first (fun _ => m) l := by
  induction l with
  | nil => rfl
  | cons a l ih => rw [List.findIdx?_cons, first_cons, ih]

theorem select_eq_nil (h : ∀ i a, l[i]? = some a → p i a = false) : select p l = [] := by
  induction l generalizing p with
  | nil => rfl
  | cons a l ih =>
    rw [select_cons, h 0 a rfl, if_neg Bool.false_ne_true]
    exact ih fun i b hb => h (i + 1) b hb

theorem select_false (l : List α) : select (fun _ _ => false) l = [] := select_eq_nil fun _ _ _ => rfl

theorem mem_select {a : α} : a ∈ select p l ↔ ∃ i, l[i]? = some a ∧ p i a = true := by
  simp only [select, List.mem_map, List.mem_filter, Prod.exists, List.mem_zipIdx_iff_getElem?]
  exact ⟨fun ⟨b, i, h, hb⟩ => ⟨i, hb ▸ h.1, hb ▸ h.2⟩, fun ⟨i, h⟩ => ⟨a, i, h, rfl⟩⟩

theorem select_sublist : (select p l).Sublist l := by
  have h := (List.filter_sublist (p := fun x : α × ℕ => p x.2 x.1) (l := l.zipIdx)).map Prod.fst
  rwa [List.zipIdx_map_fst] at h

theorem first_eq_some_iff {k : ℕ} :
    first p l = some k ↔
      (∃ a, l[k]? = some a ∧ p k a = true) ∧ ∀ i a, l[i]? = some a → p i a = true → k ≤ i := by
  induction l generalizing p k with
  | nil => simp
  | cons a l ih =>
    rw [first_cons]
    cases h : p 0 a with
    | true =>
      rw [if_pos rfl, Option.some.injEq]
      constructor
      · rintro rfl
        exact ⟨⟨a, rfl, h⟩, fun i _ _ _ => Nat.zero_le i⟩
      · rintro ⟨-, hmin⟩
        exact (Nat.le_zero.mp (hmin 0 a rfl h)).symm
    | false =>
      rw [if_neg Bool.false_ne_true, Option.map_eq_some_iff]
      constructor
      · rintro ⟨k, hk, rfl⟩
        obtain ⟨⟨b, hb, hp⟩, hmin⟩ := ih.mp hk
        refine ⟨⟨b, hb, hp⟩, fun i c hc hpc => ?_⟩
        cases i with
        | zero =>
          obtain rfl : a = c := by simpa using hc
          exact absurd hpc (by simp [h])
        | succ i => exact Nat.succ_le_succ (hmin i c hc hpc)
      · rintro ⟨⟨b, hb, hp⟩, hmin⟩
        cases k with
        | zero =>
          obtain rfl : a = b := by simpa using hb
          exact absurd hp (by simp [h])
        | succ k =>
          exact ⟨k, ih.mpr ⟨⟨b, hb, hp⟩, fun i c hc hpc =>
            Nat.le_of_succ_le_succ (hmin (i + 1) c hc hpc)⟩, rfl⟩

theorem first_eq_none_iff : first p l = none ↔ ∀ i a, l[i]? = some a → p i a = false := by
  induction l generalizing p with
  | nil => simp
  | cons a l ih =>
    rw [first_cons]
    cases h : p 0 a with
    | true => exact iff_of_false (by simp) fun hall => by simpa [h] using hall 0 a rfl
    | false =>
      rw [if_neg Bool.false_ne_true, Option.map_eq_none_iff, ih]
      refine ⟨fun hall i b hb => ?_, fun hall i b hb => hall (i + 1) b hb⟩
      cases i with
      | zero =>
        obtain rfl : a = b := by simpa using hb
        exact h
      | succ i => exact hall i b hb

theorem first_and_eq_none (h : first q l = none) : first (fun i a => p i a && q i a) l = none :=
  first_eq_none_iff.mpr fun i a ha => by rw [first_eq_none_iff.mp h i a ha, Bool.and_false]

theorem first_and_eq_some {k : ℕ} {a : α} (h : first q l = some k) (ha : l[k]? = some a)
    (hp : p k a = true) : first (fun i a => p i a && q i a) l = some k := by
  obtain ⟨⟨b, hb, hq⟩, hmin⟩ := first_eq_some_iff.mp h
  obtain rfl : a = b := Option.some.inj (ha.symm.trans hb)
  refine first_eq_some_iff.mpr ⟨⟨a, ha, by rw [hp, hq]; rfl⟩, fun i c hc hpq => ?_⟩
  exact hmin i c hc (Bool.and_eq_true_iff.mp hpq).2

/-- The first position is no further back if less is asked for. -/
theorem le_of_first_and {k k' : ℕ} (h : first q l = some k)
    (h' : first (fun i a => p i a && q i a) l = some k') : k ≤ k' := by
  obtain ⟨⟨a, ha, hpq⟩, -⟩ := first_eq_some_iff.mp h'
  exact (first_eq_some_iff.mp h).2 k' a ha (Bool.and_eq_true_iff.mp hpq).2

/-- What is selected before a position comes first. -/
theorem select_eq_append (k : ℕ) (l : List α) :
    select p l =
      select (fun i a => p i a && decide (i < k)) l ++ select (fun i a => p i a && decide (k ≤ i)) l := by
  induction l generalizing p k with
  | nil => rfl
  | cons a l ih =>
    cases k with
    | zero => simp [select_false]
    | succ k =>
      rw [select_cons, ih k]
      cases h : p 0 a <;> simp [h]

/-! ### Cutting what is selected -/

theorem all_map_succ_lt (o : Option ℕ) (i : ℕ) :
    ((o.map (· + 1)).all fun k => decide (i + 1 < k)) = o.all fun k => decide (i < k) := by
  cases o <;> simp

theorem all_map_succ_gt (o : Option ℕ) (i : ℕ) :
    ((o.map (· + 1)).all fun k => decide (k < i + 1)) = o.all fun k => decide (k < i) := by
  cases o <;> simp

theorem findIdx?_select_eq_none_iff (m : α → Bool) (l : List α) :
    (select p l).findIdx? m = none ↔ first (fun i a => p i a && m a) l = none := by
  rw [List.findIdx?_eq_none_iff, first_eq_none_iff]
  constructor
  · intro h i a ha
    cases hp : p i a with
    | false => rfl
    | true => simpa using h a (mem_select.mpr ⟨i, ha, hp⟩)
  · intro h a ha
    obtain ⟨i, hi, hp⟩ := mem_select.mp ha
    simpa [hp] using h i a hi

/-- What is selected before an element: the positions before the first one that is selected for it. -/
theorem takeTo_select (m : α → Bool) (l : List α) :
    takeTo m (select p l) =
      select (fun i a => p i a && (first (fun i a => p i a && m a) l).all fun k => decide (i < k)) l := by
  induction l generalizing p with
  | nil => rfl
  | cons a l ih =>
    specialize ih (p := fun i => p (i + 1))
    rw [select_cons, select_cons, first_cons]
    cases hp : p 0 a with
    | false =>
      simp only [Bool.false_and, Bool.false_eq_true, if_false, all_map_succ_lt]
      exact ih
    | true =>
      cases hm : m a with
      | true => simp [takeTo, List.findIdx?_cons, hm, select_false]
      | false =>
        simp only [Bool.true_and, Bool.and_false, Bool.false_eq_true, if_false, if_true,
          all_map_succ_lt, ← ih]
        rw [if_pos (by cases first (fun i a => p (i + 1) a && m a) l <;> simp)]
        unfold takeTo
        rw [List.findIdx?_cons, hm]
        cases (select (fun i => p (i + 1)) l).findIdx? m <;> simp

/-- What is selected after an element. -/
theorem dropTo_select (m : α → Bool) (l : List α) :
    dropTo m (select p l) =
      select (fun i a => p i a && (first (fun i a => p i a && m a) l).all fun k => decide (k < i)) l := by
  induction l generalizing p with
  | nil => rfl
  | cons a l ih =>
    specialize ih (p := fun i => p (i + 1))
    rw [select_cons, select_cons, first_cons]
    cases hp : p 0 a with
    | false =>
      simp only [Bool.false_and, Bool.false_eq_true, if_false, all_map_succ_gt]
      exact ih
    | true =>
      cases hm : m a with
      | true => simp [dropTo, List.findIdx?_cons, hm]
      | false =>
        simp only [Bool.true_and, Bool.and_false, Bool.false_eq_true, if_false, if_true,
          all_map_succ_gt, ← ih]
        have hnone := findIdx?_select_eq_none_iff (p := fun i => p (i + 1)) m l
        unfold dropTo
        rw [List.findIdx?_cons, hm]
        cases hpos : (select (fun i => p (i + 1)) l).findIdx? m with
        | none => simp [hnone.mp hpos]
        | some pos =>
          obtain ⟨k, hk⟩ := Option.ne_none_iff_exists'.mp (mt hnone.mpr (by simp [hpos]))
          simp [hk]

/-! ### Selections that start alike -/

/-- If two selections have the same first elements, then as many are selected before any position that
only one of them has. -/
theorem le_of_take_select_eq {n : ℕ} (hl : l.Nodup)
    (h : (select p l).take n = (select q l).take n) {i : ℕ} {a : α} (ha : l[i]? = some a)
    (hne : p i a ≠ q i a) : n ≤ (select (fun j b => q j b && decide (j < i)) l).length := by
  induction l generalizing p q n i with
  | nil => simp at ha
  | cons b l ih =>
    obtain ⟨hb, hl⟩ := List.nodup_cons.mp hl
    rw [select_cons, select_cons] at h
    -- if only one of the selections has `b`, then none of their elements may be compared
    have hzero : ∀ r r' : ℕ → α → Bool, (b :: select r l).take n = (select r' l).take n → n = 0 := by
      intro r r' heq
      by_contra hn
      have hmem : b ∈ (b :: select r l).take n := by
        rw [List.take_cons (Nat.pos_of_ne_zero hn)]
        exact List.mem_cons_self
      rw [heq] at hmem
      exact hb (select_sublist.subset (List.mem_of_mem_take hmem))
    cases hp : p 0 b <;> cases hq : q 0 b <;>
      simp only [hp, hq, if_true, Bool.false_eq_true, if_false] at h
    case true.false => exact Nat.le_trans (Nat.le_of_eq (hzero _ _ h)) (Nat.zero_le _)
    case false.true => exact Nat.le_trans (Nat.le_of_eq (hzero _ _ h.symm)) (Nat.zero_le _)
    all_goals
      cases i with
      | zero =>
        obtain rfl : b = a := by simpa using ha
        exact absurd (hp.trans hq.symm) hne
      | succ i => ?_
    case false.false.succ =>
      simpa [hq] using ih hl h ha hne
    case true.true.succ =>
      cases n with
      | zero => exact Nat.zero_le _
      | succ n =>
        rw [List.take_succ_cons, List.take_succ_cons, List.cons.injEq] at h
        simpa [hq] using ih hl h.2 ha hne

end Window
