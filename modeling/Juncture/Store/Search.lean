import Juncture.Lib.Paging
import Juncture.Store.Filters
import Juncture.Store.Items
import Mathlib.Order.Compare

/-!
# `search`

Both stores search in the same way: they gather the items that match, rank them by similarity if the query
has an embedding, and return a page with the number of all.  The end of the page is computed from what the
caller asks for, in machine arithmetic; and floating-point scores need not be ordered.

* `MemoryStore.search`, `SqliteStore.search` : the calls.
* `PageRight`, `Covered` : a page is a part of the ranked items, and pages one after the other are all.
* `search_iff` : this is so if the end of the page does not overflow, and if no score stands in the way of
  the ranking.
-/

namespace Juncture

namespace Store

/-- `usize::MAX + 1`. -/
def usizeSize : ℕ := 2 ^ 64

/-- An `f64`, as far as it is compared: a number, an infinity or a zero among them, or none. -/
inductive Score (F : Type) where
  | nan
  | num (x : F)
deriving DecidableEq

/-- The value of an item, with its embedding. -/
structure Embedded (V E : Type) where
  /-- `value`. -/
  value : V
  /-- `embedding`. -/
  embedding : Option E

/-- `SearchItem`. -/
structure SearchItem (V E F : Type) where
  /-- The item. -/
  item : Item (Embedded V E)
  /-- Similarity to the query. -/
  score : Option (Score F)

/-- What a query looks for. -/
structure Criteria (V : Type) where
  /-- `namespace_prefix`. -/
  namespacePrefix : String
  /-- `filter`. -/
  filter : Option (FilterExpr V)
  /-- `query`, a text. -/
  query : Option String

/-- `SearchQuery`. -/
structure SearchQuery (V : Type) extends Criteria V where
  /-- `limit`. -/
  limit : ℕ
  /-- `offset`. -/
  offset : ℕ
  /-- The limit is a `usize`. -/
  limit_lt : limit < usizeSize
  /-- So is the offset. -/
  offset_lt : offset < usizeSize

/-- `SearchResult`. -/
structure SearchResult (V E F : Type) where
  /-- A page of the matching items. -/
  items : List (SearchItem V E F)
  /-- The number of all. -/
  totalCount : ℕ

variable {V E F : Type} [LinearOrder F]

/-! ### Ranking -/

/-- `partial_cmp`. -/
def Score.partialCmp : Score F → Score F → Option Ordering
  | .num x, .num y => some (compare x y)
  | _, _ => none

/-- `partial_cmp` of optional scores. -/
def partialCmp : Option (Score F) → Option (Score F) → Option Ordering
  | none, none => some .eq
  | none, some _ => some .lt
  | some _, none => some .gt
  | some x, some y => x.partialCmp y

/-- The order of the ranking: the highest score first, and scores that cannot be compared are equal. -/
def rank (a b : SearchItem V E F) : Ordering := (partialCmp b.score a.score).getD .eq

/-- The comparison is that of a total order on the list. -/
def TotalOn {α : Type} (cmp : α → α → Ordering) (l : List α) : Prop :=
  (∀ a ∈ l, ∀ b ∈ l, cmp b a = (cmp a b).swap) ∧
    ∀ a ∈ l, ∀ b ∈ l, ∀ c ∈ l, cmp a b ≠ .gt → cmp b c ≠ .gt → cmp a c ≠ .gt

instance {α : Type} (cmp : α → α → Ordering) (l : List α) : Decidable (TotalOn cmp l) :=
  inferInstanceAs (Decidable (_ ∧ _))

/-- `sort_by`, a stable sort.  With a comparison of no total order the result is unspecified, and there may
be none, as it may panic. -/
def sortBy {α : Type} (unspecified : List α → Option (List α)) (cmp : α → α → Ordering) (l : List α) :
    Option (List α) :=
  if TotalOn cmp l then some (l.insertionSort fun a b => cmp a b ≠ .gt) else unspecified l

/-! ### Paging -/

/-- `a + b` of two `usize`, which panics on an overflow if it is checked, and wraps otherwise. -/
def addUsize (checked : Bool) (a b : ℕ) : Option ℕ :=
  if a + b < usizeSize then some (a + b)
  else if checked then none
  else some ((a + b) % usizeSize)

/-- `drain(start..end).collect()`, which panics unless this is a part of the list. -/
def drain {α : Type} (start stop : ℕ) (l : List α) : Option (List α) :=
  if start ≤ stop ∧ stop ≤ l.length then some ((l.drop start).take (stop - start)) else none

/-- How the program is built and run: with overflow checks or not, and with some behaviour of `sort_by`
where it is not specified. -/
structure Runtime (α : Type) where
  /-- `overflow-checks`. -/
  checked : Bool
  /-- The behaviour of `sort_by`. -/
  unspecified : List α → Option (List α)
  /-- Nothing is lost. -/
  perm : ∀ l l', unspecified l = some l' → l'.Perm l

/-- The items by similarity, if there is an embedding. -/
def rankItems (rt : Runtime (SearchItem V E F)) (ranked : Bool) (items : List (SearchItem V E F)) :
    Option (List (SearchItem V E F)) :=
  if ranked then sortBy rt.unspecified rank items else some items

/-- The page from the offset on. -/
def paginate (checked : Bool) (q : SearchQuery V) (items : List (SearchItem V E F)) :
    Option (List (SearchItem V E F)) :=
  let start := min q.offset items.length
  (addUsize checked start q.limit).bind fun stop => drain start (min stop items.length) items

/-- The second half of `search`: to rank the items, and to return a page. -/
def finish (rt : Runtime (SearchItem V E F)) (q : SearchQuery V) (ranked : Bool)
    (items : List (SearchItem V E F)) : Option (SearchResult V E F) :=
  let total := items.length
  (rankItems rt ranked items).bind fun items =>
    (paginate rt.checked q items).map fun page => { items := page, totalCount := total }

/-- The first half of `search`: whether the query has an embedding, and the matching items; `K` is what a
call reads of the world. -/
abbrev Gather (K V E F : Type) := K → Criteria V → Except StoreError (Bool × List (SearchItem V E F))

/-- `search`; there is no result if it panics. -/
def searchWith {K : Type} (gather : Gather K V E F) (rt : Runtime (SearchItem V E F)) (k : K)
    (q : SearchQuery V) : Option (Except StoreError (SearchResult V E F)) :=
  match gather k q.toCriteria with
  | .error e => some (.error e)
  | .ok (ranked, items) => (finish rt q ranked items).map .ok

/-! ### The stores -/

/-- `index_config`: how texts are embedded and embeddings compared. -/
structure IndexConfig (E F : Type) where
  /-- `embed`. -/
  embed : Option (List String → Except StoreError (List E))
  /-- `cosine_similarity`, as an `f64`. -/
  cosineSimilarity : E → E → Score F

/-- The embedding of the query, if it has a text and embeddings are configured. -/
def queryEmbedding (config : IndexConfig E F) (c : Criteria V) : Except StoreError (Option E) :=
  match config.embed, c.query with
  | some embed, some text =>
    if text.isEmpty then .ok none else (embed [text]).map List.getLast?
  | _, _ => .ok none

/-- The similarity of an item, if both embeddings are there. -/
def scoreOf (config : IndexConfig E F) (query embedding : Option E) : Option (Score F) :=
  query.bind fun q => embedding.map fun i => config.cosineSimilarity q i

namespace MemoryStore

/-- The items that `search` looks at, in the order of the maps. -/
def visited (s : MemoryStore (Embedded V E)) (c : Criteria V) : List (Item (Embedded V E)) :=
  (s.data.entries.filter fun e => c.namespacePrefix.toList.isPrefixOf e.1.toList).flatMap fun e =>
    e.2.entries.map Sigma.snd

/-- The items that have not expired and pass the filter; the clock is read for each, `now i` being reading
`i`. -/
def gather (s : MemoryStore (Embedded V E)) (config : IndexConfig E F)
    (evaluateFilter : FilterExpr V → V → Bool) : Gather (ℕ → ℤ) V E F := fun now c => do
  let query ← queryEmbedding config c
  let items := ((s.visited c).zipIdx.filter fun x => !x.1.isExpired (now x.2) &&
    c.filter.all fun filter => evaluateFilter filter x.1.value.value).map fun x =>
      { item := x.1, score := scoreOf config query x.1.value.embedding }
  .ok (query.isSome, items)

/-- `search`. -/
def search (s : MemoryStore (Embedded V E)) (config : IndexConfig E F)
    (evaluateFilter : FilterExpr V → V → Bool) (rt : Runtime (SearchItem V E F)) (now : ℕ → ℤ)
    (q : SearchQuery V) : Option (Except StoreError (SearchResult V E F)) :=
  searchWith (s.gather config evaluateFilter) rt now q

end MemoryStore

/-- A `SqliteStore` with its table `store_vectors`, and what reads their columns. -/
structure SqliteTables (V E : Type) extends SqliteStore where
  /-- `pool`: whether the store is initialized. -/
  initialized : Bool := true
  /-- The vectors, by namespace and key. -/
  vectors : AList fun _ : String × String => List UInt8 := ∅
  /-- The rows that SQLite selects for a statement and its parameters, if it accepts them. -/
  selects : String × List String →
    Except StoreError ((String × String) × (String × String × String) → Bool)
  /-- `sqlite_param_from_value`. -/
  param : V → String
  /-- `serde_json::from_str`. -/
  fromStr : String → Except StoreError V
  /-- `parse_from_rfc3339`. -/
  parseTime : String → Except StoreError ℤ
  /-- `blob_to_vector`. -/
  blobToVector : List UInt8 → Except StoreError E

namespace SqliteTables

/-- `ORDER BY namespace, key`. -/
def rowOrder (a b : (String × String) × (String × String × String)) : Prop :=
  a.1.1 < b.1.1 ∨ a.1.1 = b.1.1 ∧ a.1.2 ≤ b.1.2

instance : DecidableRel rowOrder := fun _ _ => inferInstanceAs (Decidable (_ ∨ _))

/-- The rows of the statement of a search. -/
def fetch (s : SqliteTables V E) (c : Criteria V) :
    Except StoreError (List ((String × String) × (String × String × String))) := do
  let selects ← s.selects (FilterExpr.searchSqlite s.param c.namespacePrefix c.filter)
  .ok (((s.rows.entries.map fun e => (e.1, e.2)).filter selects).insertionSort rowOrder)

/-- The item of a row, with its vector if the query has an embedding. -/
def itemOf (s : SqliteTables V E) (config : IndexConfig E F) (query : Option E)
    (row : (String × String) × (String × String × String)) : Except StoreError (SearchItem V E F) := do
  let value ← s.fromStr row.2.1
  let embedding ← match query, s.vectors.lookup row.1 with
    | some _, some bytes => (s.blobToVector bytes).map some
    | _, _ => .ok none
  let createdAt ← s.parseTime row.2.2.1
  let updatedAt ← s.parseTime row.2.2.2
  .ok { item := { ns := row.1.1, key := row.1.2, value := { value, embedding }, createdAt, updatedAt }
        score := scoreOf config query embedding }

/-- The items of the selected rows. -/
def gather (s : SqliteTables V E) (config : IndexConfig E F) : Gather Unit V E F := fun _ c => do
  if s.initialized then
    let query ← queryEmbedding config c
    let rows ← s.fetch c
    let items ← rows.mapM (s.itemOf config query)
    .ok (query.isSome, items)
  else .error (.storage "Store not initialized")

/-- `search`. -/
def search (s : SqliteTables V E) (config : IndexConfig E F) (rt : Runtime (SearchItem V E F))
    (k : Unit) (q : SearchQuery V) : Option (Except StoreError (SearchResult V E F)) :=
  searchWith (s.gather config) rt k q

end SqliteTables

/-! ### What they should return -/

/-- A call of `search` of a store. -/
abbrev Search (K V E F : Type) [LinearOrder F] :=
  Runtime (SearchItem V E F) → K → SearchQuery V → Option (Except StoreError (SearchResult V E F))

/-- `items[min(offset, n)..min(offset + limit, n)]`. -/
def pageOf (q : SearchQuery V) (items : List (SearchItem V E F)) : List (SearchItem V E F) :=
  let start := min q.offset items.length
  (items.drop start).take (min (q.offset + q.limit) items.length - start)

/-- What a query gets of a store, in a program that is built with overflow checks or not. -/
structure Paged {K : Type} (checked : Bool) (gather : Gather K V E F) (search : Search K V E F)
    (q : SearchQuery V) : Prop where
  /-- If the matching items can be gathered, then a page of them is returned, in some order, with their
  number. -/
  page : ∀ rt : Runtime (SearchItem V E F), rt.checked = checked → ∀ k ranked items,
    gather k q.toCriteria = .ok (ranked, items) →
      ∃ l, l.Perm items ∧
        search rt k q = some (.ok { items := pageOf q l, totalCount := items.length })
  /-- As long as the items stay the same, the pages at the multiples of the limit are all items.  (No
  vector has more than `isize::MAX`.) -/
  covered : 0 < q.limit → ∀ rt : Runtime (SearchItem V E F), rt.checked = checked →
    ∀ (world : ℕ → K) ranked items, (∀ i, gather (world i) q.toCriteria = .ok (ranked, items)) →
      items.length < 2 ^ 63 → ∃ pages : ℕ → List (SearchItem V E F),
        (∀ i (q' : SearchQuery V), q'.toCriteria = q.toCriteria → q'.limit = q.limit →
          q'.offset = i * q.limit → i * q.limit < items.length →
            search rt (world i) q' = some (.ok { items := pages i, totalCount := items.length })) ∧
        ((List.range ((items.length + q.limit - 1) / q.limit)).flatMap pages).Perm items

/-- The scores are no obstacle to a ranking: all are numbers, or all that are numbers are the same. -/
def Ranked (items : List (SearchItem V E F)) : Prop :=
  (∀ a ∈ items, a.score ≠ some .nan) ∨
    ∀ a ∈ items, ∀ b ∈ items, ∀ x y, a.score = some (.num x) → b.score = some (.num y) → x = y

/-- If the matching items can be gathered, then they can be ranked where they are to be, and the end of the
page is a `usize`. -/
def InBounds {K : Type} (gather : Gather K V E F) (q : SearchQuery V) : Prop :=
  ∀ k ranked items, gather k q.toCriteria = .ok (ranked, items) →
    (ranked = true → Ranked items) ∧ min q.offset items.length + q.limit < usizeSize

/-! ### Ranking -/

theorem rank_swap (a b : SearchItem V E F) : rank b a = (rank a b).swap := by
  unfold rank partialCmp
  cases a.score with
  | none => cases b.score <;> rfl
  | some x =>
    cases b.score with
    | none => rfl
    | some y =>
      cases x with
      | nan => cases y <;> rfl
      | num x =>
        cases y with
        | nan => rfl
        | num y => exact (Std.OrientedCmp.eq_swap : compare x y = (compare y x).swap)

/-- A score does not stand before another in the ranking. -/
def Below : Option (Score F) → Option (Score F) → Prop
  | none, _ => True
  | some _, none => False
  | some (.num x), some (.num y) => x ≤ y
  | some _, some _ => True

theorem rank_ne_gt_iff (a b : SearchItem V E F) : rank a b ≠ .gt ↔ Below b.score a.score := by
  unfold rank partialCmp Below
  cases b.score with
  | none => cases a.score <;> simp
  | some x =>
    cases a.score with
    | none => simp
    | some y =>
      cases x with
      | nan => simp [Score.partialCmp]
      | num x =>
        cases y with
        | nan => simp [Score.partialCmp]
        | num y => exact compare_le_iff_le

theorem Ranked.below_trans {items : List (SearchItem V E F)} (h : Ranked items)
    {a b c : SearchItem V E F} (ha : a ∈ items) (hb : b ∈ items) (hc : c ∈ items)
    (hab : Below b.score a.score) (hbc : Below c.score b.score) : Below c.score a.score := by
  cases hcs : c.score with
  | none => trivial
  | some z =>
    cases hbs : b.score with
    | none => simp [hcs, hbs, Below] at hbc
    | some y =>
      cases has : a.score with
      | none => simp [hbs, has, Below] at hab
      | some x =>
        rw [hbs, has] at hab
        rw [hcs, hbs] at hbc
        cases z with
        | nan => cases x <;> trivial
        | num z =>
          cases x with
          | nan => trivial
          | num x =>
            obtain hnan | hsame := h
            · cases y with
              | nan => exact absurd hbs (hnan b hb)
              | num y => exact le_trans (α := F) hbc hab
            · exact (hsame c hc a ha z x hcs has).le

/-- Beside a score that is not a number all numbers are equal, if the comparison is transitive. -/
theorem le_of_nan {items : List (SearchItem V E F)} (h : TotalOn rank items) {m : SearchItem V E F}
    (hm : m ∈ items) (hnan : m.score = some .nan) {a b : SearchItem V E F} (ha : a ∈ items)
    (hb : b ∈ items) {x y : F} (hx : a.score = some (.num x)) (hy : b.score = some (.num y)) : y ≤ x := by
  have ham : rank a m ≠ .gt := (rank_ne_gt_iff a m).mpr (by rw [hnan, hx]; trivial)
  have hmb : rank m b ≠ .gt := (rank_ne_gt_iff m b).mpr (by rw [hnan, hy]; trivial)
  have hab := h.2 a ha m hm b hb ham hmb
  rw [rank_ne_gt_iff, hx, hy] at hab
  exact hab

/-- The comparison of the ranking is that of a total order, unless a score that is not a number has both
sides of it equal. -/
theorem totalOn_rank_iff {items : List (SearchItem V E F)} : TotalOn rank items ↔ Ranked items := by
  constructor
  · intro htotal
    by_contra hnot
    obtain ⟨hnan, hne⟩ := not_or.mp hnot
    push Not at hnan hne
    obtain ⟨m, hm, hmscore⟩ := hnan
    obtain ⟨a, ha, b, hb, x, y, hx, hy, hxy⟩ := hne
    exact hxy (le_antisymm (le_of_nan htotal hm hmscore hb ha hy hx)
      (le_of_nan htotal hm hmscore ha hb hx hy))
  · intro hranked
    refine ⟨fun a _ b _ => rank_swap a b, fun a ha b hb c hc hab hbc => ?_⟩
    rw [rank_ne_gt_iff] at hab hbc ⊢
    exact hranked.below_trans ha hb hc hab hbc

/-! ### Paging -/

/-- The items as they are paged, where they can be ranked. -/
def rankedItems (ranked : Bool) (items : List (SearchItem V E F)) : List (SearchItem V E F) :=
  if ranked then items.insertionSort fun a b => rank a b ≠ .gt else items

theorem rankedItems_perm (ranked : Bool) (items : List (SearchItem V E F)) :
    (rankedItems ranked items).Perm items := by
  unfold rankedItems
  split
  · exact List.perm_insertionSort _ _
  · exact List.Perm.refl _

theorem rankItems_eq {rt : Runtime (SearchItem V E F)} {ranked : Bool} {items : List (SearchItem V E F)}
    (h : ranked = true → Ranked items) : rankItems rt ranked items = some (rankedItems ranked items) := by
  unfold rankItems rankedItems sortBy
  cases ranked with
  | false => rfl
  | true => rw [if_pos rfl, if_pos rfl, if_pos (totalOn_rank_iff.mpr (h rfl))]

/-- Where the sort is not specified, it may panic. -/
theorem ranked_of_rankItems {rt : Runtime (SearchItem V E F)} {items l : List (SearchItem V E F)}
    (hrt : ∀ l, rt.unspecified l = none) (h : rankItems rt true items = some l) : Ranked items := by
  unfold rankItems sortBy at h
  rw [if_pos rfl] at h
  split_ifs at h with htotal
  · exact totalOn_rank_iff.mp htotal
  · simp [hrt] at h

omit [LinearOrder F] in
theorem paginate_eq {checked : Bool} {q : SearchQuery V} {items : List (SearchItem V E F)}
    (h : min q.offset items.length + q.limit < usizeSize) :
    paginate checked q items = some (pageOf q items) := by
  have hstop : min (min q.offset items.length + q.limit) items.length =
      min (q.offset + q.limit) items.length := by
    generalize items.length = n
    omega
  rw [paginate, addUsize, if_pos h, Option.bind_some, hstop, drain, if_pos (by omega), pageOf]

omit [LinearOrder F] in
/-- An overflow ends in a panic: of the addition if it is checked, of `drain` otherwise. -/
theorem paginate_eq_none {checked : Bool} {q : SearchQuery V} {items : List (SearchItem V E F)}
    (h : usizeSize ≤ min q.offset items.length + q.limit) : paginate checked q items = none := by
  have hlimit := q.limit_lt
  have hoffset := q.offset_lt
  rw [paginate, addUsize, if_neg h.not_gt]
  cases checked with
  | true => rfl
  | false =>
    generalize items.length = n at h
    have hwrap : (min q.offset n + q.limit) % usizeSize = min q.offset n + q.limit - usizeSize := by
      rw [Nat.mod_eq_sub_mod h, Nat.mod_eq_of_lt (by omega)]
    simp only [Bool.false_eq_true, if_false, Option.bind_some, drain]
    exact if_neg (by omega)

theorem finish_eq {rt : Runtime (SearchItem V E F)} {q : SearchQuery V} {ranked : Bool}
    {items : List (SearchItem V E F)} (hranked : ranked = true → Ranked items)
    (hbound : min q.offset items.length + q.limit < usizeSize) :
    finish rt q ranked items =
      some { items := pageOf q (rankedItems ranked items), totalCount := items.length } := by
  have hlength := (rankedItems_perm ranked items).length_eq
  rw [finish, rankItems_eq hranked, Option.bind_some, paginate_eq (by rw [hlength]; exact hbound)]
  rfl

/-! ### Pages one after the other -/

omit [LinearOrder F] in
/-- A page at a multiple of the limit, before the end. -/
theorem pageOf_mul {q : SearchQuery V} {items : List (SearchItem V E F)} {i : ℕ}
    (hoffset : q.offset = i * q.limit) (hi : i * q.limit < items.length) :
    pageOf q items = Paging.page (some (i * q.limit)) (some q.limit) items := by
  simp only [pageOf, Paging.page, Option.getD_some, hoffset, Nat.min_eq_left hi.le]
  by_cases hend : i * q.limit + q.limit ≤ items.length
  · rw [Nat.min_eq_left hend, Nat.add_sub_cancel_left]
  · have hlength : (items.drop (i * q.limit)).length = items.length - i * q.limit := List.length_drop
    rw [Nat.min_eq_right (by omega), List.take_of_length_le hlength.le,
      List.take_of_length_le (by omega)]

omit [LinearOrder F] in
theorem flatMap_page_all {limit : ℕ} (hlimit : 0 < limit) (items : List (SearchItem V E F)) :
    ((List.range ((items.length + limit - 1) / limit)).flatMap fun i =>
      Paging.page (some (i * limit)) (some limit) items) = items := by
  rw [Paging.flatMap_page]
  refine List.take_of_length_le ?_
  have hdiv := Nat.div_add_mod (items.length + limit - 1) limit
  have hmod := Nat.mod_lt (items.length + limit - 1) hlimit
  rw [Nat.mul_comm] at hdiv
  omega

/-- The end of such a page is a `usize`. -/
theorem mul_add_lt_usizeSize {i limit n : ℕ} (hlimit : limit < usizeSize) (hi : i * limit < n)
    (hn : n < 2 ^ 63) : i * limit + limit < usizeSize := by
  cases i with
  | zero => simpa using hlimit
  | succ i =>
    have hle : limit ≤ (i + 1) * limit := Nat.le_mul_of_pos_left limit (Nat.succ_pos i)
    unfold usizeSize
    omega

variable {K : Type} {checked : Bool} {gather : Gather K V E F} {q : SearchQuery V}

/-- **Searching by pages.**  A page is the part of the matching items that was asked for, and the pages one
after the other are all, if and only if the items can be ranked and the end of the page is a `usize`. -/
theorem paged_searchWith_iff : Paged checked gather (searchWith gather) q ↔ InBounds gather q := by
  constructor
  · intro h k ranked items hgather
    -- the sort that panics where it may
    let rt : Runtime (SearchItem V E F) := ⟨checked, fun _ => none, fun _ _ hnone => by cases hnone⟩
    obtain ⟨l, -, hsearch⟩ := h.page rt rfl k ranked items hgather
    simp only [searchWith, hgather, finish] at hsearch
    obtain ⟨r, hfinish, -⟩ := Option.map_eq_some_iff.mp hsearch
    obtain ⟨l', hrank, hpage⟩ := Option.bind_eq_some_iff.mp hfinish
    have hranked : ranked = true → Ranked items := by
      rintro rfl
      exact ranked_of_rankItems (fun _ => rfl) hrank
    refine ⟨hranked, ?_⟩
    by_contra hbound
    obtain rfl : rankedItems ranked items = l' := Option.some.inj ((rankItems_eq hranked).symm.trans hrank)
    rw [paginate_eq_none (by rw [(rankedItems_perm ranked items).length_eq]; exact Nat.le_of_not_lt hbound)]
      at hpage
    cases hpage
  · intro h
    refine ⟨fun rt hrt k ranked items hgather => ?_,
      fun hpos rt hrt world ranked items hgather hfits => ?_⟩
    · obtain ⟨hranked, hbound⟩ := h k ranked items hgather
      refine ⟨rankedItems ranked items, rankedItems_perm ranked items, ?_⟩
      simp only [searchWith, hgather, finish_eq hranked hbound, Option.map_some]
    · obtain ⟨hranked, -⟩ := h (world 0) ranked items (hgather 0)
      have hlength := (rankedItems_perm ranked items).length_eq
      refine ⟨fun i => Paging.page (some (i * q.limit)) (some q.limit) (rankedItems ranked items),
        fun i q' hcriteria hlimit hoffset hi => ?_, ?_⟩
      · have hbound : min q'.offset items.length + q'.limit < usizeSize := by
          rw [hoffset, hlimit, Nat.min_eq_left hi.le]
          exact mul_add_lt_usizeSize q.limit_lt hi hfits
        rw [← hlimit] at hoffset hi ⊢
        rw [← hlength] at hi
        simp only [searchWith, hcriteria, hgather, finish_eq hranked hbound, Option.map_some,
          pageOf_mul hoffset hi]
      · rw [← hlength, flatMap_page_all hpos]
        exact rankedItems_perm ranked items

/-- **Both stores.**  Whatever they hold, and whatever a query asks for, its page is right, and the pages
one after the other are all matching items, if and only if these can be ranked and the end of the page is a
`usize`. -/
theorem search_iff (checked : Bool) (config : IndexConfig E F) (q : SearchQuery V) :
    (∀ (s : MemoryStore (Embedded V E)) (evaluateFilter : FilterExpr V → V → Bool),
      Paged checked (s.gather config evaluateFilter) (s.search config evaluateFilter) q ↔
        InBounds (s.gather config evaluateFilter) q) ∧
      ∀ s : SqliteTables V E, Paged checked (s.gather config) (s.search config) q ↔
        InBounds (s.gather config) q :=
  ⟨fun _ _ => paged_searchWith_iff, fun _ => paged_searchWith_iff⟩

/-- A store with one item. -/
def oneItem : MemoryStore (Embedded ℤ Unit) where
  data := AList.singleton "a" (AList.singleton "k"
    { ns := "a", key := "k", value := { value := 0, embedding := none }, createdAt := 0, updatedAt := 0 })

/-- All that comes after the first item. -/
def skipOne : SearchQuery ℤ where
  namespacePrefix := ""
  filter := none
  query := none
  limit := usizeSize - 1
  offset := 1
  limit_lt := by decide
  offset_lt := by decide

/-- Without a limit to speak of, but with an offset, a search panics also without overflow checks. -/
theorem skipOne_not_paged :
    ¬ Paged false (oneItem.gather (F := ℤ) { embed := none, cosineSimilarity := fun _ _ => .num 0 }
        fun _ _ => true)
      (oneItem.search { embed := none, cosineSimilarity := fun _ _ => .num 0 } fun _ _ => true) skipOne :=
  fun h => absurd (paged_searchWith_iff.mp h (fun _ => 0) _ _ rfl).2 (by decide)

end Store

end Juncture
