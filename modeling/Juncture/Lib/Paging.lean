import Mathlib.Data.Finset.Sort
import Mathlib.Data.List.Destutter

/-!
# Pages of a list

A long list is shown a page at a time.  Pages are as good as the order they are cut from: if the list may
come in any order, or has more on it than it should, a page is right only if it is empty or all there is.

* `page` : a part of a list.
* `flatMap_page` : pages, one after the other, are the list.
* `sortDedup_eq_sort` : to sort and drop repetitions is to sort the set.
* `page_sort_eq_iff` : when more elements do not change a page.
* `forall_perm_page_eq_iff` : when a page does not depend on the order.
* `forall_perm_image_page_iff` : when the images of a page do not.
-/

namespace Paging

variable {α β : Type*} {offset limit : Option ℕ}

/-- What is left from the position `offset` on, at most `limit` of it. -/
def page (offset limit : Option ℕ) (l : List α) : List α :=
  match limit with
  | some k => (l.drop (offset.getD 0)).take k
  | none => l.drop (offset.getD 0)

/-- What comes up to the end of a page. -/
def upTo (offset limit : Option ℕ) (l : List α) : List α :=
  match limit with
  | some k => l.take (offset.getD 0 + k)
  | none => l

theorem page_eq_drop_upTo (l : List α) : page offset limit l = (upTo offset limit l).drop (offset.getD 0) := by
  cases limit with
  | none => rfl
  | some k => simp [page, upTo, List.drop_take]

theorem page_sublist (l : List α) : (page offset limit l).Sublist l := by
  cases limit with
  | none => exact List.drop_sublist _ _
  | some k => exact (List.take_sublist _ _).trans (List.drop_sublist _ _)

/-- A page is empty if the list ends before it, or if nothing may be on it. -/
theorem page_eq_nil_iff {l : List α} :
    page offset limit l = [] ↔ l.length ≤ offset.getD 0 ∨ limit = some 0 := by
  cases limit with
  | none => simp [page]
  | some k => simp [page, List.take_eq_nil_iff, or_comm]

/-- Fewer elements leave an empty page empty. -/
theorem page_eq_nil_of_length_le {l : List α} {l' : List β} (h : page offset limit l = [])
    (hle : l'.length ≤ l.length) : page offset limit l' = [] := by
  rw [page_eq_nil_iff] at h ⊢
  exact h.imp hle.trans id

/-- The first element of a page. -/
theorem head?_page {l : List α} (h : page offset limit l ≠ []) :
    (page offset limit l).head? = l[offset.getD 0]? := by
  cases limit with
  | none => simp [page]
  | some k =>
    have hk : k ≠ 0 := fun hk => h (page_eq_nil_iff.mpr (.inr (congrArg some hk)))
    simp [page, List.head?_take, hk]

/-- The pages of one size, up to some number, are the list up to there. -/
theorem flatMap_page (size n : ℕ) (l : List α) :
    ((List.range n).flatMap fun i => page (some (i * size)) (some size) l) = l.take (n * size) := by
  induction n with
  | zero => simp
  | succ n ih =>
    rw [List.range_succ, List.flatMap_append, ih, List.flatMap_singleton, Nat.succ_mul, List.take_add]
    rfl

/-! ### Sorted lists -/

section Sorted

variable [LinearOrder α]

/-- The elements in ascending order. -/
abbrev sorted (s : Finset α) : List α := s.sort

/-- `sort` and `dedup`. -/
def sortDedup (l : List α) : List α := (l.insertionSort (· ≤ ·)).destutter (· ≠ ·)

theorem mem_destutter'_ne {l : List α} {a x : α} : x ∈ l.destutter' (· ≠ ·) a ↔ x ∈ a :: l := by
  induction l generalizing a with
  | nil => simp
  | cons b l ih =>
    by_cases h : a = b
    · subst h
      rw [List.destutter'_cons_neg _ (by simp), ih]
      simp
    · rw [List.destutter'_cons_pos _ h, List.mem_cons, ih, List.mem_cons]
      simp

theorem mem_destutter_ne {l : List α} {x : α} : x ∈ l.destutter (· ≠ ·) ↔ x ∈ l := by
  cases l with
  | nil => simp
  | cons a l => exact mem_destutter'_ne

/-- To sort and drop repetitions is to sort the set. -/
theorem sortDedup_eq_sort (l : List α) : sortDedup l = sorted l.toFinset := by
  have hle : (sortDedup l).IsChain (· ≤ ·) :=
    ((List.pairwise_insertionSort _ l).sublist (List.destutter_sublist _ _)).isChain
  have hne : (sortDedup l).IsChain (· ≠ ·) := List.isChain_destutter _ _
  have hlt : (sortDedup l).IsChain (· < ·) :=
    List.isChain_iff_getElem.mpr fun i hi =>
      lt_of_le_of_ne (List.isChain_iff_getElem.mp hle i hi) (List.isChain_iff_getElem.mp hne i hi)
  refine hlt.sortedLT.eq_of_mem_iff l.toFinset.sortedLT_sort fun x => ?_
  rw [sortDedup, mem_destutter_ne, List.mem_insertionSort, Finset.mem_sort, List.mem_toFinset]

variable {s t : Finset α}

theorem sort_eq_filter (hst : s ⊆ t) : sorted s = (sorted t).filter (· ∈ s) := by
  have hsorted : ((sorted t).filter (· ∈ s)).SortedLT :=
    (t.sortedLT_sort.pairwise.sublist List.filter_sublist).sortedLT
  refine s.sortedLT_sort.eq_of_mem_iff hsorted fun x => ?_
  rw [Finset.mem_sort, List.mem_filter, Finset.mem_sort, decide_eq_true_eq]
  exact ⟨fun hx => ⟨hst hx, hx⟩, And.right⟩

theorem upTo_filter {l : List α} (h : ∀ x ∈ upTo offset limit l, x ∈ s) :
    upTo offset limit (l.filter (· ∈ s)) = upTo offset limit l := by
  cases limit with
  | none => exact List.filter_eq_self.mpr fun x hx => decide_eq_true (h x hx)
  | some k =>
    simp only [upTo] at h ⊢
    generalize offset.getD 0 + k = e at h
    have hfront : (l.take e).filter (· ∈ s) = l.take e :=
      List.filter_eq_self.mpr fun x hx => decide_eq_true (h x hx)
    have hsplit : l.filter (· ∈ s) = l.take e ++ (l.drop e).filter (· ∈ s) := by
      rw [← hfront, ← List.filter_append, List.take_append_drop]
    rw [hsplit, List.take_append, List.take_take, Nat.min_self, List.length_take]
    by_cases he : e ≤ l.length
    · simp [he]
    · simp [List.drop_eq_nil_of_le (Nat.le_of_not_le he)]

/-- If an element keeps its position when others are left out, then none before it is. -/
theorem forall_mem_take_of_filter {β : Type*} {l : List β} (hl : l.Nodup) {p : β → Bool} {n : ℕ} {y : β}
    (h : l[n]? = some y) (hp : (l.filter p)[n]? = some y) : ∀ x ∈ l.take n, p x = true := by
  obtain ⟨hn, hy⟩ := List.getElem?_eq_some_iff.mp h
  have hpy : p y = true := List.of_mem_filter (List.mem_of_getElem? hp)
  have hdrop : l.drop n = y :: l.drop (n + 1) := by
    rw [← hy, List.cons_getElem_drop_succ]
  have hsplit : l.filter p = (l.take n).filter p ++ y :: (l.drop (n + 1)).filter p := by
    rw [← List.filter_cons_of_pos hpy, ← hdrop, ← List.filter_append, List.take_append_drop]
  have hpos : (l.filter p)[((l.take n).filter p).length]? = some y := by
    rw [hsplit]
    simp
  have hlen : ((l.take n).filter p).length = n :=
    (List.getElem?_inj (List.getElem?_eq_some_iff.mp hpos).1 (hl.filter _)).mp (hpos.trans hp.symm)
  have hall : (l.take n).filter p = l.take n :=
    List.filter_sublist.eq_of_length (by rw [hlen, List.length_take]; omega)
  exact List.filter_eq_self.mp hall

/-- **More elements.**  They do not change a page, if it is empty or none of them comes before its end. -/
theorem page_sort_eq_iff (hst : s ⊆ t) :
    page offset limit (sorted t) = page offset limit (sorted s) ↔
      page offset limit (sorted t) = [] ∨ ∀ x ∈ upTo offset limit (sorted t), x ∈ s := by
  constructor
  · intro h
    by_cases hnil : page offset limit (sorted t) = []
    · exact .inl hnil
    refine .inr fun x hx => ?_
    have hhead := head?_page hnil
    have hhead' := head?_page (h ▸ hnil : page offset limit (sorted s) ≠ [])
    rw [← h, hhead] at hhead'
    have hn : offset.getD 0 < (sorted t).length := by
      have := mt page_eq_nil_iff.mpr hnil
      omega
    have hy := List.getElem?_eq_getElem hn
    rw [hy, sort_eq_filter hst] at hhead'
    have hsplit := List.take_append_drop (offset.getD 0) (upTo offset limit (sorted t))
    rw [← page_eq_drop_upTo] at hsplit
    rw [← hsplit, List.mem_append] at hx
    obtain hx | hx := hx
    · refine of_decide_eq_true
        (forall_mem_take_of_filter (t.sort_nodup _) hy hhead'.symm x ?_)
      cases limit with
      | none => exact hx
      | some k =>
        rw [upTo, List.take_take] at hx
        exact List.take_subset_take_left _ (by omega) hx
    · rw [h] at hx
      exact (Finset.mem_sort _).mp ((page_sublist _).subset hx)
  · rintro (hnil | hall)
    · rw [hnil, page_eq_nil_of_length_le hnil]
      rw [Finset.length_sort, Finset.length_sort]
      exact Finset.card_le_card hst
    · rw [page_eq_drop_upTo, page_eq_drop_upTo, sort_eq_filter hst, upTo_filter hall]

/-! ### Lists in any order -/

/-- Any element can be anywhere. -/
theorem exists_perm_getElem? {l : List β} {x : β} (hx : x ∈ l) {n : ℕ} (hn : n < l.length) :
    ∃ l' : List β, l'.Perm l ∧ l'[n]? = some x := by
  classical
  have hlen : (l.erase x).length = l.length - 1 := List.length_erase_of_mem hx
  refine ⟨(l.erase x).take n ++ x :: (l.erase x).drop n, ?_, ?_⟩
  · refine List.perm_middle.trans ?_
    rw [List.take_append_drop]
    exact (List.perm_cons_erase hx).symm
  · rw [List.getElem?_append_right (by simp), List.length_take, Nat.min_eq_left (by omega)]
    simp

/-- On a page that is not empty, every element is first in some order. -/
theorem exists_perm_head?_page {l : List β} (hnil : page offset limit l ≠ []) {x : β} (hx : x ∈ l) :
    ∃ l', l'.Perm l ∧ (page offset limit l').head? = some x := by
  obtain ⟨l', hperm, hget⟩ := exists_perm_getElem? hx (n := offset.getD 0)
    (by have := mt page_eq_nil_iff.mpr hnil; omega)
  refine ⟨l', hperm, ?_⟩
  rw [head?_page, hget]
  exact fun h => hnil (page_eq_nil_of_length_le h hperm.length_eq.ge)

/-- **No order of its own.**  A page is that of the sorted list in every order only if it is empty, or
there is at most one element. -/
theorem forall_perm_page_eq_iff {l : List α} (hl : l.Nodup) (hs : ∀ x ∈ s, x ∈ l) :
    (∀ l', l'.Perm l → page offset limit l' = page offset limit (sorted s)) ↔
      page offset limit l = [] ∨ l.length ≤ 1 ∧ ∀ x ∈ l, x ∈ s := by
  constructor
  · intro h
    by_cases hnil : page offset limit l = []
    · exact .inl hnil
    -- Any element can come first on the page, so that all of them are the one expected there.
    have hfirst : ∀ x ∈ l, (page offset limit (sorted s)).head? = some x := by
      intro x hx
      obtain ⟨l', hperm, hhead⟩ := exists_perm_head?_page hnil hx
      rw [← h l' hperm, hhead]
    refine .inr ⟨?_, fun x hx => ?_⟩
    · cases l with
      | nil => simp
      | cons x l =>
        cases l with
        | nil => simp
        | cons y l =>
          have hxy := (hfirst x (by simp)).symm.trans (hfirst y (by simp))
          simp [Option.some.inj hxy] at hl
    · have hmem := List.mem_of_mem_head? (hfirst x hx)
      exact (Finset.mem_sort _).mp ((page_sublist _).subset hmem)
  · rintro (hnil | ⟨hone, hall⟩) l' hperm
    · rw [page_eq_nil_of_length_le hnil hperm.length_eq.le, page_eq_nil_of_length_le hnil]
      rw [Finset.length_sort, ← List.toFinset_card_of_nodup hl]
      exact Finset.card_le_card fun x hx => List.mem_toFinset.mpr (hs x hx)
    · cases l with
      | nil =>
        obtain rfl : s = ∅ := Finset.eq_empty_of_forall_notMem fun x hx => by simpa using hs x hx
        rw [List.perm_nil.mp hperm, sorted, Finset.sort_empty]
      | cons x l =>
        obtain rfl : l = [] := List.eq_nil_of_length_eq_zero (by simpa using hone)
        obtain rfl : s = {x} := by
          ext y
          exact ⟨fun hy => by simpa using hs y hy, fun hy => hall y (by simpa using hy)⟩
        rw [List.perm_singleton.mp hperm, sorted, Finset.sort_singleton]

/-- If so many elements are taken that those of one kind cannot all be left, one of them is there. -/
theorem exists_mem_take {l : List β} {p : β → Bool} {n : ℕ} (hp : 0 < l.countP p)
    (h : l.length < n + l.countP p) : ∃ x ∈ l.take n, p x = true := by
  by_contra hnone
  have htake : (l.take n).countP p = 0 :=
    List.countP_eq_zero.mpr fun x hx hpx => hnone ⟨x, hx, hpx⟩
  have hdrop : (l.drop n).countP p ≤ l.length - n := by
    rw [← List.length_drop]
    exact List.countP_le_length
  have hsum : l.countP p = (l.take n).countP p + (l.drop n).countP p := by
    rw [← List.countP_append, List.take_append_drop]
  omega

/-- Otherwise, all of them can come behind the others. -/
theorem exists_perm_forall_take {l : List β} {p : β → Bool} {n : ℕ} (h : n + l.countP p ≤ l.length) :
    ∃ l' : List β, l'.Perm l ∧ ∀ x ∈ l'.take n, p x = false := by
  have hfront : (l.filter fun x => !p x).length + l.countP p = l.length := by
    rw [← List.countP_eq_length_filter, Nat.add_comm, List.length_eq_countP_add_countP p]
    simp
  refine ⟨(l.filter fun x => !p x) ++ l.filter p, ?_, fun x hx => ?_⟩
  · exact List.perm_append_comm.trans (List.filter_append_perm p l)
  · rw [List.take_append_of_le_length (by omega)] at hx
    simpa using List.of_mem_filter (List.mem_of_mem_take hx)

omit [LinearOrder α] in
/-- A page that has everything on it is the first. -/
theorem offset_eq_zero_of_subset {l : List α} (hl : l.Nodup) (hpos : l ≠ [])
    (h : l ⊆ page offset limit l) : offset.getD 0 = 0 := by
  have hpage : (page offset limit l).length ≤ l.length - offset.getD 0 := by
    rw [← List.length_drop]
    cases limit with
    | none => exact le_rfl
    | some k => exact (List.take_sublist _ _).length_le
  have hall := (hl.subperm h).length_le
  have := List.length_pos_iff.mpr hpos
  omega

/-- The images of the first page are all images, if there are few of any other kind. -/
theorem toFinset_map_page {g : β → α} {l : List β} (hs : ∀ y ∈ s, ∃ x ∈ l, g x = y)
    (hmem : ∀ x ∈ l, g x ∈ s) (hzero : offset.getD 0 = 0)
    (hfew : ∀ n ∈ limit, ∀ x ∈ l, l.length < n + l.countP fun y => g y = g x) :
    ((page offset limit l).map g).toFinset = s := by
  ext y
  rw [List.mem_toFinset, List.mem_map]
  constructor
  · rintro ⟨x, hx, rfl⟩
    exact hmem x ((page_sublist _).subset hx)
  · intro hy
    obtain ⟨x, hx, rfl⟩ := hs y hy
    cases limit with
    | none => exact ⟨x, by simpa [page, hzero] using hx, rfl⟩
    | some n =>
      have hpos : 0 < l.countP fun y => g y = g x := List.countP_pos_iff.mpr ⟨x, hx, by simp⟩
      obtain ⟨z, hz, hzx⟩ := exists_mem_take hpos (hfew n rfl x hx)
      exact ⟨z, by simpa [page, hzero] using hz, by simpa using hzx⟩

/-- **Images of a page.**  They are the page of the sorted images in every order only if the page is empty,
or if it is the first and has to have an element for each image. -/
theorem forall_perm_image_page_iff {g : β → α} {l : List β}
    (hs : ∀ y ∈ s, ∃ x ∈ l, g x = y) (hcard : s.card ≤ l.length) :
    (∀ l', l'.Perm l → sorted ((page offset limit l').map g).toFinset = page offset limit (sorted s)) ↔
      page offset limit l = [] ∨ offset.getD 0 = 0 ∧ (∀ x ∈ l, g x ∈ s) ∧
        ∀ n ∈ limit, ∀ x ∈ l, l.length < n + l.countP fun y => g y = g x := by
  constructor
  · intro h
    by_cases hnil : page offset limit l = []
    · exact .inl hnil
    have hpage : ∀ x ∈ l, g x ∈ page offset limit (sorted s) := by
      intro x hx
      obtain ⟨l', hperm, hhead⟩ := exists_perm_head?_page hnil hx
      rw [← h l' hperm, Finset.mem_sort, List.mem_toFinset]
      exact List.mem_map_of_mem (List.mem_of_mem_head? hhead)
    have hmem : ∀ x ∈ l, g x ∈ s := fun x hx =>
      (Finset.mem_sort _).mp ((page_sublist _).subset (hpage x hx))
    -- every image is on the page of the images, so it is the first
    have hall : sorted s ⊆ page offset limit (sorted s) := by
      intro y hy
      obtain ⟨x, hx, rfl⟩ := hs y ((Finset.mem_sort _).mp hy)
      exact hpage x hx
    have hsome : sorted s ≠ [] := by
      cases l with
      | nil => exact absurd (page_eq_nil_iff.mpr (.inl (Nat.zero_le _))) hnil
      | cons x l => exact List.ne_nil_of_mem ((Finset.mem_sort _).mpr (hmem x List.mem_cons_self))
    have hzero := offset_eq_zero_of_subset (s.sort_nodup _) hsome hall
    refine .inr ⟨hzero, hmem, fun n hn x hx => ?_⟩
    by_contra hfew
    -- an order in which all elements with the image of `x` come after the page
    obtain ⟨l', hperm, hbehind⟩ := exists_perm_forall_take (Nat.le_of_not_lt hfew)
    have hfirst := hpage x hx
    rw [← h l' hperm, Finset.mem_sort, List.mem_toFinset, List.mem_map] at hfirst
    obtain ⟨z, hz, hzx⟩ := hfirst
    obtain rfl : limit = some n := hn
    rw [page, hzero, List.drop_zero] at hz
    exact of_decide_eq_false (hbehind z hz) hzx
  · rintro (hnil | ⟨hzero, hmem, hfew⟩) l' hperm
    · rw [page_eq_nil_of_length_le hnil hperm.length_eq.le, page_eq_nil_of_length_le hnil]
      · simp
      · rwa [Finset.length_sort]
    · have himage : ((page offset limit l').map g).toFinset = s := by
        refine toFinset_map_page (fun y hy => ?_) (fun x hx => hmem x (hperm.mem_iff.mp hx)) hzero
          fun n hn x hx => ?_
        · obtain ⟨x, hx, hxy⟩ := hs y hy
          exact ⟨x, hperm.mem_iff.mpr hx, hxy⟩
        · rw [hperm.length_eq, hperm.countP_eq]
          exact hfew n hn x (hperm.mem_iff.mp hx)
      rw [himage]
      cases limit with
      | none => simp [page, hzero]
      | some n =>
        have hle : s.card ≤ n := by
          rw [← himage]
          refine (List.toFinset_card_le _).trans ?_
          simp [page]
        simp [page, hzero, hle]

end Sorted

end Paging
