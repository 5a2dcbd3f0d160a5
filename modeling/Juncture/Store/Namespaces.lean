import Juncture.Lib.Paging
import Juncture.Store.Items
import Juncture.Store.Like

/-!
# `list_namespaces`

Both stores can list their namespaces, a page at a time: those that start with a prefix and end with a
suffix, cut off at some depth.  The pages should be those of one sorted list.  `MemoryStore` takes the
names as its map has them and sorts them only when it has cut them off; `SqliteStore` cuts off what is
already a page of rows, which come in no order of their own.

* `listed` : what should be returned.
* `MemoryStore.ListsWell`, `SqliteStore.ListsWell` : when it is.
-/

namespace Juncture

namespace Store

open Paging

/-- What a call of `list_namespaces` asks for. -/
structure ListQuery where
  /-- What names start with. -/
  nsPrefix : Option String := none
  /-- What names end with. -/
  suffix : Option String := none
  /-- How many segments of a name are kept. -/
  maxDepth : Option ℕ := none
  /-- How many names are returned. -/
  limit : Option ℕ := none
  /-- How many are skipped. -/
  offset : Option ℕ := none

namespace ListQuery

/-- `starts_with` the prefix and `ends_with` the suffix. -/
def keeps (q : ListQuery) (ns : String) : Bool :=
  (q.nsPrefix.all fun nsPrefix => nsPrefix.toList.isPrefixOf ns.toList) &&
    q.suffix.all fun suffix => suffix.toList.isSuffixOf ns.toList

/-- `LIKE` the prefix with `%` behind it, and the suffix with `%` before it. -/
def likes (q : ListQuery) (ns : String) : Bool :=
  (q.nsPrefix.all fun nsPrefix => like (nsPrefix.toList ++ ['%']) ns.toList) &&
    q.suffix.all fun suffix => like ('%' :: suffix.toList) ns.toList

/-- The first segments of a name. -/
def truncate (depth : ℕ) (ns : String) : String :=
  "/".intercalate (((ns.toList.splitOn '/').take depth).map String.ofList)

/-- A name as it is returned. -/
def shown (q : ListQuery) (ns : String) : String :=
  match q.maxDepth with
  | some depth => truncate depth ns
  | none => ns

end ListQuery

/-! ### The calls -/

/-- The order in which a map or a query gives its elements; it depends on them alone. -/
def Arranges (order : Finset String → List String) : Prop := ∀ names, (order names).Perm (sorted names)

/-- `list_namespaces` of a `MemoryStore`, whose map has its keys in some order. -/
def MemoryStore.listNamespaces {V : Type} (s : MemoryStore V) (order : Finset String → List String)
    (q : ListQuery) : List String :=
  let namespaces := (order s.namespaces).filter fun ns => q.keeps ns
  let namespaces := match q.maxDepth with
    | some depth => sortDedup (namespaces.map (ListQuery.truncate depth))
    | none => namespaces
  page q.offset q.limit namespaces

namespace SqliteStore

/-- The namespaces that `SELECT DISTINCT … LIKE` selects. -/
def selected (s : SqliteStore) (q : ListQuery) : Finset String := s.namespaces.filter fun ns => q.likes ns

/-- `LIMIT` and `OFFSET` as they are written: no offset without a limit, and 64-bit integers. -/
def validPage (q : ListQuery) : Bool :=
  (q.limit.isSome || q.offset.isNone) && (q.limit.all fun n => decide (n < 2 ^ 63)) &&
    q.offset.all fun n => decide (n < 2 ^ 63)

/-- `list_namespaces` of a `SqliteStore`, whose statement has no `ORDER BY`. -/
def listNamespaces (s : SqliteStore) (order : Finset String → List String) (q : ListQuery) :
    Except StoreError (List String) :=
  if validPage q then
    let namespaces := page q.offset q.limit (order (s.selected q))
    .ok (match q.maxDepth with
      | some depth => sortDedup (namespaces.map (ListQuery.truncate depth))
      | none => namespaces)
  else .error (.storage "Failed to list namespaces")

end SqliteStore

/-! ### What they should return -/

/-- The sorted distinct names, as they are shown, from the offset on, at most as many as the limit. -/
def listed (live : Finset String) (q : ListQuery) : List String :=
  page q.offset q.limit (sorted ((live.filter fun ns => q.keeps ns).image q.shown))

/-- Nothing is on the page of so many names. -/
def Blank (q : ListQuery) (n : ℕ) : Prop := n ≤ q.offset.getD 0 ∨ q.limit = some 0

theorem page_sort_eq_nil_iff {q : ListQuery} {names : Finset String} :
    page q.offset q.limit (sorted names) = [] ↔ Blank q names.card := by
  rw [page_eq_nil_iff, Finset.length_sort, Blank]

/-- Every list of the elements is how they come in some order. -/
theorem exists_arranges {names : Finset String} {l : List String} (h : l.Perm (sorted names)) :
    ∃ order, Arranges order ∧ order names = l := by
  refine ⟨Function.update (sorted) names l, fun other => ?_, by simp⟩
  by_cases hother : other = names
  · subst hother
    simpa using h
  · rw [Function.update_of_ne hother]

/-- So is every list of those that are kept, when the others are left out. -/
theorem exists_arranges_filter {names : Finset String} {p : String → Bool} {l : List String}
    (h : l.Perm (sorted (names.filter (p · = true)))) :
    ∃ order, Arranges order ∧ (order names).filter p = l := by
  have hl : ∀ x ∈ l, p x = true := fun x hx =>
    (Finset.mem_filter.mp ((Finset.mem_sort _).mp (h.mem_iff.mp hx))).2
  have hrest : ∀ x ∈ (sorted (names.filter (¬ p · = true))), ¬ p x = true := fun x hx =>
    (Finset.mem_filter.mp ((Finset.mem_sort _).mp hx)).2
  have hperm : (l ++ (sorted (names.filter (¬ p · = true)))).Perm (sorted names) := by
    refine (h.append_right _).trans ?_
    rw [List.perm_ext_iff_of_nodup _ (names.sort_nodup _)]
    · intro x
      simp only [List.mem_append, Finset.mem_sort, Finset.mem_filter]
      by_cases hx : p x = true <;> simp [hx]
    · refine List.Nodup.append (Finset.sort_nodup _ _) (Finset.sort_nodup _ _) fun x hx hx' => ?_
      exact hrest x hx' (Finset.mem_filter.mp ((Finset.mem_sort _).mp hx)).2
  obtain ⟨order, horder, heq⟩ := exists_arranges hperm
  refine ⟨order, horder, ?_⟩
  rw [heq, List.filter_append, List.filter_eq_self.mpr hl, List.filter_eq_nil_iff.mpr hrest,
    List.append_nil]

theorem Arranges.filter {order : Finset String → List String} (h : Arranges order)
    (names : Finset String) (p : String → Bool) :
    ((order names).filter p).Perm (sorted (names.filter (p · = true))) := by
  have hnodup : (order names).Nodup := (h names).nodup_iff.mpr (names.sort_nodup _)
  rw [List.perm_ext_iff_of_nodup (hnodup.filter _) (Finset.sort_nodup _ _)]
  intro x
  rw [List.mem_filter, (h names).mem_iff, Finset.mem_sort, Finset.mem_sort, Finset.mem_filter]

theorem ListQuery.image_shown_none {q : ListQuery} (h : q.maxDepth = none) (names : Finset String) :
    names.image q.shown = names := by
  have hshown : q.shown = id := by
    funext ns
    simp only [ListQuery.shown, h, id]
  rw [hshown, Finset.image_id]

theorem ListQuery.shown_some {q : ListQuery} {depth : ℕ} (h : q.maxDepth = some depth) :
    q.shown = ListQuery.truncate depth := by
  funext ns
  simp only [ListQuery.shown, h]

/-! ### `MemoryStore` -/

namespace MemoryStore

variable {V : Type} (s : MemoryStore V) (now : ℤ) (q : ListQuery)

/-- The namespaces that match. -/
def found : Finset String := s.namespaces.filter fun ns => q.keeps ns

/-- The namespaces that hold an item which has not expired. -/
def live : Finset String := s.namespaces.filter fun ns => s.holdsLive now ns

/-- When the right names are listed.  Names that are not cut off come in no order, so that at most one can
be on a page; of those that are cut off, none that holds nothing may come before the end of the page. -/
def ListsWell : Prop :=
  match q.maxDepth with
  | none => Blank q (s.found q).card ∨ (s.found q).card ≤ 1 ∧ ∀ ns ∈ s.found q, s.holdsLive now ns = true
  | some depth =>
    Blank q ((s.found q).image (ListQuery.truncate depth)).card ∨
      ∀ name ∈ upTo q.offset q.limit (sorted ((s.found q).image (ListQuery.truncate depth))),
        ∃ ns ∈ s.found q, s.holdsLive now ns = true ∧ ListQuery.truncate depth ns = name

variable {s now q}

theorem mem_live {ns : String} : ns ∈ s.live now ↔ s.holdsLive now ns = true := by
  rw [live, Finset.mem_filter]
  exact ⟨And.right, fun h => ⟨mem_namespaces_of_holdsLive h, h⟩⟩

/-- The live namespaces that match are among those that match. -/
theorem filter_live_subset : (s.live now).filter (q.keeps · = true) ⊆ s.found q :=
  Finset.filter_subset_filter _ (Finset.filter_subset _ _)

theorem listNamespaces_of_maxDepth {order : Finset String → List String} (horder : Arranges order)
    {depth : ℕ} (h : q.maxDepth = some depth) :
    s.listNamespaces order q =
      page q.offset q.limit (sorted ((s.found q).image (ListQuery.truncate depth))) := by
  simp only [listNamespaces, h, sortDedup_eq_sort]
  congr 2
  ext name
  simp only [List.mem_toFinset, List.mem_map, (horder.filter _ _).mem_iff, Finset.mem_sort,
    Finset.mem_image, found]

/-- The right names are listed in every order of the map exactly if this is so. -/
theorem listNamespaces_eq_iff :
    (∀ order, Arranges order → s.listNamespaces order q = listed (s.live now) q) ↔
      s.ListsWell now q := by
  cases hdepth : q.maxDepth with
  -- Without `max_depth` the names come in the order of the map, whatever it is.
  | none =>
    have hlisted : listed (s.live now) q =
        page q.offset q.limit (sorted ((s.live now).filter (q.keeps · = true))) := by
      rw [listed, ListQuery.image_shown_none hdepth]
    have hperm : (∀ order, Arranges order → s.listNamespaces order q = listed (s.live now) q) ↔
        ∀ l, l.Perm (sorted (s.found q)) → page q.offset q.limit l =
          page q.offset q.limit (sorted ((s.live now).filter (q.keeps · = true))) := by
      rw [hlisted]
      constructor
      · intro h l hl
        obtain ⟨order, horder, rfl⟩ := exists_arranges_filter hl
        have hright := h order horder
        simpa only [listNamespaces, hdepth] using hright
      · intro h order horder
        simpa only [listNamespaces, hdepth] using h _ (horder.filter _ _)
    rw [hperm, forall_perm_page_eq_iff (Finset.sort_nodup _ _)
      (fun x hx => (Finset.mem_sort _).mpr (filter_live_subset hx)), page_sort_eq_nil_iff,
      Finset.length_sort]
    simp only [ListsWell, hdepth, Finset.mem_sort, Finset.mem_filter, mem_live, found]
    refine or_congr Iff.rfl (and_congr Iff.rfl (forall₂_congr fun ns hns => ?_))
    exact and_iff_left hns.2
  -- With it they pass through a sorted set, and the order is gone.
  | some depth =>
    have hlisted : listed (s.live now) q = page q.offset q.limit
        (sorted (((s.live now).filter (q.keeps · = true)).image (ListQuery.truncate depth))) := by
      rw [listed, ListQuery.shown_some hdepth]
    have hsame : (∀ order, Arranges order → s.listNamespaces order q = listed (s.live now) q) ↔
        page q.offset q.limit (sorted ((s.found q).image (ListQuery.truncate depth))) =
          page q.offset q.limit
            (sorted (((s.live now).filter (q.keeps · = true)).image (ListQuery.truncate depth))) := by
      rw [hlisted]
      constructor
      · intro h
        rw [← h _ fun names => List.Perm.refl _, listNamespaces_of_maxDepth (fun _ => .refl _) hdepth]
      · intro h order horder
        rw [listNamespaces_of_maxDepth horder hdepth, h]
    rw [hsame, page_sort_eq_iff (Finset.image_subset_image filter_live_subset), page_sort_eq_nil_iff]
    simp only [ListsWell, hdepth, Finset.mem_image, Finset.mem_filter, mem_live, found]
    refine or_congr Iff.rfl (forall₂_congr fun name _ => exists_congr fun ns => ?_)
    constructor
    · rintro ⟨⟨hlive, hkeeps⟩, hname⟩
      exact ⟨⟨mem_namespaces_of_holdsLive hlive, hkeeps⟩, hlive, hname⟩
    · rintro ⟨⟨-, hkeeps⟩, hlive, hname⟩
      exact ⟨⟨hlive, hkeeps⟩, hname⟩

end MemoryStore

/-! ### `SqliteStore` -/

/-- A name that starts and ends as it should matches the patterns. -/
theorem ListQuery.likes_of_keeps {q : ListQuery} {ns : String} (h : q.keeps ns = true) :
    q.likes ns = true := by
  obtain ⟨hfront, hsuffix⟩ := Bool.and_eq_true_iff.mp h
  refine Bool.and_eq_true_iff.mpr ⟨?_, ?_⟩
  · cases hq : q.nsPrefix with
    | none => rfl
    | some nsPrefix =>
      rw [hq] at hfront
      exact like_prefix (List.isPrefixOf_iff_prefix.mp hfront)
  · cases hq : q.suffix with
    | none => rfl
    | some suffix =>
      rw [hq] at hsuffix
      exact like_suffix (List.isSuffixOf_iff_suffix.mp hsuffix)

namespace SqliteStore

variable (s : SqliteStore) (q : ListQuery)

/-- When the right names are listed.  The patterns may match other names, rows come in no order, and a page
is cut out of them before the names are cut off. -/
def ListsWell : Prop :=
  validPage q = true ∧
    match q.maxDepth with
    | none => Blank q (s.selected q).card ∨
        (s.selected q).card ≤ 1 ∧ ∀ ns ∈ s.selected q, q.keeps ns = true
    | some depth => Blank q (s.selected q).card ∨
        q.offset.getD 0 = 0 ∧
          (∀ ns ∈ s.selected q, ∃ ns' ∈ s.selected q, q.keeps ns' = true ∧
            ListQuery.truncate depth ns' = ListQuery.truncate depth ns) ∧
          ∀ n ∈ q.limit, ∀ ns ∈ s.selected q, (s.selected q).card < n +
            ((s.selected q).filter fun ns' =>
              ListQuery.truncate depth ns' = ListQuery.truncate depth ns).card

variable {s q}

theorem filter_keeps_subset : s.namespaces.filter (q.keeps · = true) ⊆ s.selected q :=
  Finset.monotone_filter_right _ fun _ _ => ListQuery.likes_of_keeps

theorem countP_sort (names : Finset String) (p : String → Bool) :
    (sorted names).countP p = (names.filter (p · = true)).card := by
  rw [List.countP_eq_length_filter, ← List.toFinset_card_of_nodup ((names.sort_nodup _).filter _)]
  congr 1
  ext ns
  simp

/-- The right names are listed in every order of the rows exactly if this is so. -/
theorem listNamespaces_eq_iff :
    (∀ order, Arranges order → s.listNamespaces order q = .ok (listed s.namespaces q)) ↔
      s.ListsWell q := by
  by_cases hvalid : validPage q = true
  swap
  · constructor
    · intro h
      have hright := h _ fun names => List.Perm.refl _
      simp only [listNamespaces, hvalid, Bool.false_eq_true, ↓reduceIte] at hright
      cases hright
    · exact fun h => absurd h.1 hvalid
  cases hdepth : q.maxDepth with
  | none =>
    have hperm : (∀ order, Arranges order → s.listNamespaces order q = .ok (listed s.namespaces q)) ↔
        ∀ l, l.Perm (sorted (s.selected q)) → page q.offset q.limit l =
          page q.offset q.limit (sorted (s.namespaces.filter (q.keeps · = true))) := by
      simp only [listNamespaces, hvalid, ↓reduceIte, hdepth, Except.ok.injEq, listed,
        ListQuery.image_shown_none hdepth]
      constructor
      · intro h l hl
        obtain ⟨order, horder, rfl⟩ := exists_arranges hl
        exact h order horder
      · exact fun h order horder => h _ (horder _)
    rw [hperm, forall_perm_page_eq_iff (Finset.sort_nodup _ _)
      (fun x hx => (Finset.mem_sort _).mpr (filter_keeps_subset hx)), page_sort_eq_nil_iff,
      Finset.length_sort]
    simp only [ListsWell, hvalid, hdepth, true_and, Finset.mem_sort, Finset.mem_filter]
    refine or_congr Iff.rfl (and_congr Iff.rfl (forall₂_congr fun ns hns => ?_))
    exact and_iff_right (Finset.mem_filter.mp hns).1
  | some depth =>
    have hperm : (∀ order, Arranges order → s.listNamespaces order q = .ok (listed s.namespaces q)) ↔
        ∀ l, l.Perm (sorted (s.selected q)) →
          sorted ((page q.offset q.limit l).map (ListQuery.truncate depth)).toFinset =
            page q.offset q.limit
              (sorted ((s.namespaces.filter (q.keeps · = true)).image (ListQuery.truncate depth))) := by
      simp only [listNamespaces, hvalid, ↓reduceIte, hdepth, Except.ok.injEq, listed,
        ListQuery.shown_some hdepth, sortDedup_eq_sort]
      constructor
      · intro h l hl
        obtain ⟨order, horder, rfl⟩ := exists_arranges hl
        exact h order horder
      · exact fun h order horder => h _ (horder _)
    rw [hperm, forall_perm_image_page_iff, page_sort_eq_nil_iff]
    · simp only [ListsWell, hvalid, hdepth, true_and, Finset.mem_sort, Finset.length_sort, countP_sort,
        decide_eq_true_eq, Finset.mem_image, Finset.mem_filter]
      refine or_congr Iff.rfl (and_congr Iff.rfl (and_congr ?_ Iff.rfl))
      refine forall₂_congr fun ns _ => exists_congr fun ns' => ?_
      constructor
      · rintro ⟨⟨hmem, hkeeps⟩, heq⟩
        exact ⟨filter_keeps_subset (Finset.mem_filter.mpr ⟨hmem, hkeeps⟩), hkeeps, heq⟩
      · rintro ⟨hmem, hkeeps, heq⟩
        exact ⟨⟨(Finset.mem_filter.mp hmem).1, hkeeps⟩, heq⟩
    · intro name hname
      obtain ⟨ns, hns, rfl⟩ := Finset.mem_image.mp hname
      exact ⟨ns, (Finset.mem_sort _).mpr (filter_keeps_subset hns), rfl⟩
    · rw [Finset.length_sort]
      exact Finset.card_image_le.trans (Finset.card_le_card filter_keeps_subset)

end SqliteStore

/-- The pages that should be listed are, one after the other, the names that should be. -/
theorem flatMap_listed (live : Finset String) (q : ListQuery) (size n : ℕ) :
    ((List.range n).flatMap fun i =>
        listed live { q with offset := some (i * size), limit := some size }) =
      (listed live { q with offset := none, limit := none }).take (n * size) :=
  flatMap_page size n (sorted ((live.filter fun ns => q.keeps ns).image q.shown))

/-- **`list_namespaces`.**  When each store lists what it should, for every content and every query; and
what it should list is, page by page, every name once. -/
theorem listNamespaces_iff {V : Type} :
    (∀ (s : MemoryStore V) (now : ℤ) (q : ListQuery),
      (∀ order, Arranges order → s.listNamespaces order q = listed (s.live now) q) ↔
        s.ListsWell now q) ∧
    (∀ (s : SqliteStore) (q : ListQuery),
      (∀ order, Arranges order → s.listNamespaces order q = .ok (listed s.namespaces q)) ↔
        s.ListsWell q) ∧
    ∀ (live : Finset String) (q : ListQuery) (size n : ℕ),
      ((List.range n).flatMap fun i =>
          listed live { q with offset := some (i * size), limit := some size }) =
        (listed live { q with offset := none, limit := none }).take (n * size) ∧
      (listed live { q with offset := none, limit := none }).Nodup :=
  ⟨fun _ _ _ => MemoryStore.listNamespaces_eq_iff, fun _ _ => SqliteStore.listNamespaces_eq_iff,
    fun _ _ _ _ => ⟨flatMap_listed _ _ _ _, (page_sublist _).nodup (Finset.sort_nodup _ _)⟩⟩

/-- Two namespaces with an item each. -/
def twoNamespaces : MemoryStore Bool × SqliteStore :=
  ({ data := (AList.singleton "a" (AList.singleton "k" ⟨"a", "k", true, 0, 0, none⟩)).insert "b"
      (AList.singleton "k" ⟨"b", "k", true, 0, 0, none⟩) },
    { rows := (AList.singleton ("a", "k") ("true", "0", "0")).insert ("b", "k") ("true", "0", "0") })

/-- They may be listed in either order, and an offset without a limit is refused. -/
theorem twoNamespaces_not_listed :
    (¬ ∀ order, Arranges order →
      twoNamespaces.1.listNamespaces order {} = listed (twoNamespaces.1.live 0) {}) ∧
    ¬ ∀ order, Arranges order → twoNamespaces.2.listNamespaces order { offset := some 1 } =
      .ok (listed twoNamespaces.2.namespaces { offset := some 1 }) := by
  constructor
  · rw [MemoryStore.listNamespaces_eq_iff]
    have htwo : (twoNamespaces.1.found {}).card = 2 := by decide
    intro h
    simp only [MemoryStore.ListsWell, Blank, htwo] at h
    simp at h
  · rw [SqliteStore.listNamespaces_eq_iff]
    rintro ⟨hvalid, -⟩
    exact absurd hvalid (by decide)

end Store

end Juncture
