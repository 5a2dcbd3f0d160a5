import Juncture.Store.Items
import Juncture.Lib.Linearize
import Mathlib.Logic.Function.Basic
import Mathlib.Data.List.Permutation

/-!
# Operations on one `MemoryStore`

A `MemoryStore` is shared, and its operations take its lock: `put`, `delete` and a sweep once, `get` twice.
The first time, `get` looks whether there is an item and whether it has expired; the second time it removes,
refreshes or returns what it finds then, and does not look again.

* `MemoryStore.lock` : one step of an operation.
* `PlainStep` : the operations on a plain map, in which an expired item counts as absent.
* `Undisturbed` : the steps that do what the operation should do.
* `memoryStore_linearizable` : where all steps do, the operations might have come one after the other.

The clock readings of an operation are part of it, so nothing is said of how the clock runs.
-/

namespace Juncture

namespace Store

/-- `TTLConfig`; times are in nanoseconds. -/
structure TTLConfig where
  /-- How long an item lives. -/
  defaultTtl : Option ℕ := none
  /-- Does reading an item prolong its life? -/
  refreshOnRead : Bool := false
  /-- How many items a sweep removes at most. -/
  sweepMaxItems : ℕ := 1000

/-- The operations, with the readings of the clock they make and, for a sweep, the order in which it meets
the keys of each namespace. -/
inductive StoreOp (V : Type) where
  | get (ns key : String) (checked refreshed : ℤ)
  | put (ns key : String) (value : V) (now : ℤ)
  | delete (ns key : String)
  | sweep (now : ℤ) (order : List (String × List String))

/-- What they return. -/
inductive StoreReply (V : Type) where
  | item (r : Option (Item V))
  | done
  | swept (count : ℕ)

/-- How far an operation has come. -/
inductive Phase (V : Type) where
  /-- It has not had the lock. -/
  | start (op : StoreOp V)
  /-- A `get` that has seen an expired item. -/
  | expired (ns key : String) (checked refreshed : ℤ)
  /-- A `get` that has seen an item that has not expired. -/
  | live (ns key : String) (checked refreshed : ℤ)

/-- The operation. -/
def Phase.op {V : Type} : Phase V → StoreOp V
  | start op => op
  | expired ns key checked refreshed | live ns key checked refreshed => .get ns key checked refreshed

namespace MemoryStore

variable {V : Type} (s : MemoryStore V)

/-- The item at a key of a namespace. -/
def item (ns key : String) : Option (Item V) := (s.data.lookup ns).bind fun items => items.lookup key

/-- With an item at a key. -/
def insert (ns key : String) (item : Item V) : MemoryStore V :=
  { data := s.data.insert ns (((s.data.lookup ns).getD ∅).insert key item) }

/-- Without the item at a key. -/
def remove (ns key : String) : MemoryStore V :=
  match s.data.lookup ns with
  | none => s
  | some items => { data := s.data.insert ns (items.erase key) }

/-! ### `get` -/

/-- The first phase of `get`. -/
def check (ns key : String) (checked refreshed : ℤ) : Phase V ⊕ StoreReply V :=
  match s.item ns key with
  | none => .inr (.item none)
  | some item => .inl (if item.isExpired checked then .expired ns key checked refreshed
      else .live ns key checked refreshed)

/-- An item that has been read. -/
def refresh (item : Item V) (now : ℤ) (ttl : ℕ) : Item V :=
  { item with expiresAt := some (now + ttl), updatedAt := now }

/-- The second phase, if the item had not expired. -/
def read (config : TTLConfig) (ns key : String) (now : ℤ) : MemoryStore V × StoreReply V :=
  match config.refreshOnRead, config.defaultTtl with
  | true, some ttl =>
    match s.item ns key with
    | none => (s, .item none)
    | some item => (s.insert ns key (refresh item now ttl), .item (some (refresh item now ttl)))
  | _, _ => (s, .item (s.item ns key))

/-! ### `put` -/

/-- `put`, without embeddings. -/
def put (config : TTLConfig) (ns key : String) (value : V) (now : ℤ) : MemoryStore V :=
  s.insert ns key {
    ns
    key
    value
    createdAt := (s.item ns key).elim now Item.createdAt
    updatedAt := now
    expiresAt := config.defaultTtl.map fun ttl => now + ttl }

/-! ### `sweep_expired_items` -/

/-- The expired keys of one namespace, up to the limit, and how many there are so far. -/
def sweepNamespace (limit : ℕ) (now : ℤ) (ns : String) : List String → ℕ → List (String × String) × ℕ
  | [], count => ([], count)
  | key :: keys, count =>
    if (s.item ns key).any fun item => item.isExpired now then
      if limit ≤ count + 1 then ([(ns, key)], count + 1)
      else
        let r := sweepNamespace limit now ns keys (count + 1)
        ((ns, key) :: r.1, r.2)
    else sweepNamespace limit now ns keys count

/-- The expired keys, up to the limit. -/
def sweepKeys (limit : ℕ) (now : ℤ) : List (String × List String) → ℕ → List (String × String)
  | [], _ => []
  | (ns, keys) :: rest, count =>
    let r := s.sweepNamespace limit now ns keys count
    r.1 ++ if limit ≤ r.2 then [] else sweepKeys limit now rest r.2

/-- `sweep_expired_items`. -/
def sweep (config : TTLConfig) (now : ℤ) (order : List (String × List String)) :
    MemoryStore V × StoreReply V :=
  let keys := s.sweepKeys config.sweepMaxItems now order 0
  (keys.foldl (fun s key => s.remove key.1 key.2) s, .swept keys.length)

/-! ### Steps -/

/-- One step under the lock. -/
def lock (config : TTLConfig) (p : Phase V) (s : MemoryStore V) :
    MemoryStore V × (Phase V ⊕ StoreReply V) :=
  match p with
  | .start (.get ns key checked refreshed) => (s, s.check ns key checked refreshed)
  | .expired ns key _ _ => (s.remove ns key, .inr (.item none))
  | .live ns key _ refreshed => ((s.read config ns key refreshed).1, .inr (s.read config ns key refreshed).2)
  | .start (.put ns key value now) => (s.put config ns key value now, .inr .done)
  | .start (.delete ns key) => (s.remove ns key, .inr .done)
  | .start (.sweep now order) => ((s.sweep config now order).1, .inr (s.sweep config now order).2)

end MemoryStore

namespace MemoryStore

/-- A step is part of the same operation. -/
theorem op_lock {V : Type} (config : TTLConfig) (p : Phase V) (s s' : MemoryStore V) (p' : Phase V)
    (h : lock config p s = (s', .inl p')) : p'.op = p.op := by
  cases p with
  | start op =>
    cases op with
    | get ns key checked refreshed =>
      have hsnd : s.check ns key checked refreshed = .inl p' := congrArg Prod.snd h
      unfold check at hsnd
      split at hsnd
      · cases hsnd
      · cases hsnd
        split_ifs <;> rfl
    | put => cases h
    | delete => cases h
    | sweep => cases h
  | expired => cases h
  | live => cases h

end MemoryStore

/-- The operations on a `MemoryStore`, step by step. -/
def memoryImpl (V : Type) (config : TTLConfig) :
    Linearize.Impl (MemoryStore V) (StoreOp V) (Phase V) (StoreReply V) where
  start := .start
  op := Phase.op
  lock := MemoryStore.lock config
  op_start := fun _ => rfl
  op_lock := MemoryStore.op_lock config

/-! ### A plain map -/

section Plain

variable {V : Type}

/-- A plain map of items. -/
abbrev PlainMap (V : Type) := String × String → Option (Item V)

/-- The items of a store. -/
def MemoryStore.items (s : MemoryStore V) : PlainMap V := fun k => s.item k.1 k.2

/-- What there is at a key: an expired item counts as absent. -/
def PlainMap.live (m : PlainMap V) (k : String × String) (now : ℤ) : Option (Item V) :=
  (m k).filter fun item => !item.isExpired now

/-- `get` on a plain map. -/
def PlainMap.get (m : PlainMap V) (config : TTLConfig) (k : String × String) (checked refreshed : ℤ) :
    PlainMap V × Option (Item V) :=
  match m.live k checked with
  | none => (Function.update m k none, none)
  | some item =>
    match config.refreshOnRead, config.defaultTtl with
    | true, some ttl => (Function.update m k (some (MemoryStore.refresh item refreshed ttl)),
        some (MemoryStore.refresh item refreshed ttl))
    | _, _ => (m, some item)

/-- `put` on a plain map. -/
def PlainMap.put (m : PlainMap V) (config : TTLConfig) (ns key : String) (value : V) (now : ℤ) :
    PlainMap V :=
  Function.update m (ns, key) (some {
    ns
    key
    value
    createdAt := (m.live (ns, key) now).elim now Item.createdAt
    updatedAt := now
    expiresAt := config.defaultTtl.map fun ttl => now + ttl })

/-- The operations on a plain map. -/
def PlainStep (config : TTLConfig) : StoreOp V → PlainMap V → PlainMap V → StoreReply V → Prop
  | .get ns key checked refreshed, m, m', r =>
    m' = (m.get config (ns, key) checked refreshed).1 ∧
      r = .item (m.get config (ns, key) checked refreshed).2
  | .put ns key value now, m, m', r => m' = m.put config ns key value now ∧ r = .done
  | .delete ns key, m, m', r => m' = Function.update m (ns, key) none ∧ r = .done
  | .sweep now _, m, m', r => ∃ keys : List (String × String),
    (∀ k ∈ keys, ∃ item, m k = some item ∧ item.isExpired now = true) ∧
      (m' = fun k => if k ∈ keys then none else m k) ∧ r = .swept keys.length

namespace MemoryStore

variable {s : MemoryStore V}

theorem items_insert (ns key : String) (item : Item V) :
    (s.insert ns key item).items = Function.update s.items (ns, key) (some item) := by
  funext ⟨ns', key'⟩
  by_cases hns : ns' = ns
  · subst hns
    by_cases hkey : key' = key
    · subst hkey
      simp [items, MemoryStore.item, insert]
    · rw [Function.update_of_ne (by simp [hkey])]
      simp only [items, MemoryStore.item, insert, AList.lookup_insert, Option.bind_some,
        AList.lookup_insert_ne hkey]
      cases s.data.lookup ns' <;> rfl
  · rw [Function.update_of_ne (by simp [hns])]
    simp [items, MemoryStore.item, insert, AList.lookup_insert_ne hns]

theorem items_remove (ns key : String) :
    (s.remove ns key).items = Function.update s.items (ns, key) none := by
  funext ⟨ns', key'⟩
  cases hlookup : s.data.lookup ns with
  | none =>
    by_cases hns : ns' = ns
    · subst hns
      by_cases hkey : key' = key <;> simp [items, MemoryStore.item, remove, hlookup, hkey, Function.update]
    · simp [items, remove, hlookup, hns, Function.update]
  | some m =>
    by_cases hns : ns' = ns
    · subst hns
      by_cases hkey : key' = key
      · subst hkey
        simp [items, MemoryStore.item, remove, hlookup]
      · simp [items, MemoryStore.item, remove, hlookup, hkey, Function.update,
          AList.lookup_erase_ne hkey]
    · simp [items, MemoryStore.item, remove, hlookup, hns, Function.update, AList.lookup_insert_ne hns]

theorem items_removeAll (keys : List (String × String)) :
    (keys.foldl (fun s key => s.remove key.1 key.2) s).items =
      fun k => if k ∈ keys then none else s.items k := by
  induction keys generalizing s with
  | nil => simp
  | cons key keys ih =>
    rw [List.foldl_cons, ih, items_remove]
    funext k
    by_cases hk : k ∈ keys
    · simp [hk]
    · by_cases heq : k = key
      · simp [heq]
      · simp [hk, heq]

/-- A sweep removes expired items only. -/
theorem expired_of_mem_sweepNamespace {limit : ℕ} {now : ℤ} {ns : String} {keys : List String} {count : ℕ}
    {k : String × String} (h : k ∈ (s.sweepNamespace limit now ns keys count).1) :
    ∃ item, s.items k = some item ∧ item.isExpired now = true := by
  induction keys generalizing count with
  | nil => cases h
  | cons key keys ih =>
    unfold sweepNamespace at h
    by_cases hexpired : (s.item ns key).any fun item => item.isExpired now
    · rw [if_pos hexpired] at h
      have hkey : ∃ item, s.items (ns, key) = some item ∧ item.isExpired now = true := by
        obtain ⟨item, hitem, hexpired⟩ := (Option.any_eq_true _ _).1 hexpired
        exact ⟨item, hitem, hexpired⟩
      split_ifs at h
      · cases List.mem_singleton.1 h
        exact hkey
      · obtain rfl | h := List.mem_cons.1 h
        · exact hkey
        · exact ih h
    · rw [if_neg hexpired] at h
      exact ih h

theorem expired_of_mem_sweepKeys {limit : ℕ} {now : ℤ} {order : List (String × List String)} {count : ℕ}
    {k : String × String} (h : k ∈ s.sweepKeys limit now order count) :
    ∃ item, s.items k = some item ∧ item.isExpired now = true := by
  induction order generalizing count with
  | nil => cases h
  | cons e order ih =>
    obtain ⟨ns, keys⟩ := e
    unfold sweepKeys at h
    obtain h | h := List.mem_append.1 h
    · exact expired_of_mem_sweepNamespace h
    · split_ifs at h
      · cases h
      · exact ih h

end MemoryStore

/-! ### Which steps take effect -/

/-- The steps that do what they should: what is removed has expired, what is read has not, at the time at
which the operation looked; and nothing is put over an expired item (unless that was created just then). -/
def Undisturbed (p : Phase V) (s : MemoryStore V) : Prop :=
  match p with
  | .expired ns key checked _ => ∀ item, s.item ns key = some item → item.isExpired checked = true
  | .live ns key checked _ => ∀ item, s.item ns key = some item → item.isExpired checked = false
  | .start (.put ns key _ now) =>
    ∀ item, s.item ns key = some item → item.isExpired now = true → item.createdAt = now
  | .start _ => True

variable {config : TTLConfig} {s : MemoryStore V} {ns key : String}

theorem live_of_none {now : ℤ} (h : s.item ns key = none) : s.items.live (ns, key) now = none := by
  unfold PlainMap.live MemoryStore.items
  rw [h, Option.filter_none]

theorem live_of_some {now : ℤ} {item : Item V} (h : s.item ns key = some item) :
    s.items.live (ns, key) now = if item.isExpired now then none else some item := by
  unfold PlainMap.live MemoryStore.items
  rw [h, Option.filter_some]
  cases item.isExpired now <;> rfl

/-- What a key holds is all that a plain `get` looks at. -/
theorem get_of_none {checked refreshed : ℤ} (h : s.item ns key = none) :
    s.items.get config (ns, key) checked refreshed = (s.items, none) := by
  unfold PlainMap.get
  rw [live_of_none h]
  exact Prod.ext (Function.update_eq_self_iff.2 h.symm) rfl

/-- `get`, when there is nothing. -/
theorem get_takesEffect (checked refreshed : ℤ) :
    Linearize.TakesEffect (memoryImpl V config) (PlainStep config) MemoryStore.items
      (.start (.get ns key checked refreshed)) s := by
  unfold Linearize.TakesEffect
  cases hitem : s.item ns key with
  | none => simp [memoryImpl, MemoryStore.lock, MemoryStore.check, hitem, Phase.op, PlainStep, get_of_none hitem]
  | some item => simp [memoryImpl, MemoryStore.lock, MemoryStore.check, hitem]

/-- `put` makes what it should of the item that it finds. -/
theorem put_takesEffect_iff (value : V) (now : ℤ) :
    (s.put config ns key value now).items = s.items.put config ns key value now ↔
      ∀ item, s.item ns key = some item → item.isExpired now = true → item.createdAt = now := by
  unfold MemoryStore.put PlainMap.put
  rw [MemoryStore.items_insert, (Function.update_injective _ _).eq_iff, Option.some_inj, Item.mk.injEq]
  simp only [true_and, and_true]
  cases hitem : s.item ns key with
  | none => simp [live_of_none hitem]
  | some item => cases hexpired : item.isExpired now <;> simp [live_of_some hitem, hexpired]

/-- A plain `get` of an item that has expired. -/
theorem get_of_expired {checked refreshed : ℤ} {item : Item V} (h : s.item ns key = some item)
    (hexpired : item.isExpired checked = true) :
    s.items.get config (ns, key) checked refreshed = ((s.remove ns key).items, none) := by
  unfold PlainMap.get
  rw [live_of_some h, if_pos hexpired, MemoryStore.items_remove]

/-- A plain `get` of an item that has not. -/
theorem get_of_live {checked refreshed : ℤ} {item : Item V} (h : s.item ns key = some item)
    (hlive : item.isExpired checked = false) :
    ∃ r, (s.read config ns key refreshed).2 = .item (some r) ∧
      s.items.get config (ns, key) checked refreshed =
        ((s.read config ns key refreshed).1.items, some r) := by
  unfold MemoryStore.read PlainMap.get
  rw [live_of_some h, if_neg (by simp [hlive]), h]
  cases config.refreshOnRead with
  | false => exact ⟨item, rfl, rfl⟩
  | true =>
    cases config.defaultTtl with
    | none => exact ⟨item, rfl, rfl⟩
    | some ttl => exact ⟨_, rfl, by rw [MemoryStore.items_insert]⟩

theorem plainStep_get {m m' : PlainMap V} {checked refreshed : ℤ} {r : StoreReply V} :
    PlainStep config (.get ns key checked refreshed) m m' r ↔
      m' = (m.get config (ns, key) checked refreshed).1 ∧
        r = .item (m.get config (ns, key) checked refreshed).2 := Iff.rfl

/-- The second step of a `get` that has seen an expired item. -/
theorem expired_takesEffect_iff (checked refreshed : ℤ) :
    PlainStep config (.get ns key checked refreshed) s.items (s.remove ns key).items (.item none) ↔
      ∀ item, s.item ns key = some item → item.isExpired checked = true := by
  rw [plainStep_get]
  cases hitem : s.item ns key with
  | none => simp [get_of_none hitem, MemoryStore.items_remove, MemoryStore.items, hitem]
  | some item =>
    cases hexpired : item.isExpired checked with
    | true => simp [get_of_expired hitem hexpired, hexpired]
    | false =>
      refine iff_of_false ?_ (by simp [hexpired])
      rintro ⟨-, hreply⟩
      obtain ⟨r, -, hget⟩ := get_of_live hitem hexpired
      rw [hget] at hreply
      cases hreply

/-- The second step of one that has seen an item that had not expired. -/
theorem live_takesEffect_iff (checked refreshed : ℤ) :
    PlainStep config (.get ns key checked refreshed) s.items (s.read config ns key refreshed).1.items
        (s.read config ns key refreshed).2 ↔
      ∀ item, s.item ns key = some item → item.isExpired checked = false := by
  rw [plainStep_get]
  cases hitem : s.item ns key with
  | none =>
    refine iff_of_true ?_ (by simp)
    rw [get_of_none hitem]
    unfold MemoryStore.read
    rw [hitem]
    split <;> exact ⟨rfl, rfl⟩
  | some item =>
    cases hexpired : item.isExpired checked with
    | false =>
      obtain ⟨r, hreply, hget⟩ := get_of_live hitem hexpired
      refine iff_of_true ?_ (by simp [hexpired])
      rw [hget]
      exact ⟨rfl, hreply⟩
    | true =>
      refine iff_of_false ?_ (by simp [hexpired])
      rintro ⟨-, hreply⟩
      rw [get_of_expired hitem hexpired] at hreply
      unfold MemoryStore.read at hreply
      rw [hitem] at hreply
      split at hreply <;> cases hreply

/-- **Exactly the undisturbed steps take effect** as the operations on a plain map. -/
theorem takesEffect_iff (p : Phase V) (s : MemoryStore V) :
    Linearize.TakesEffect (memoryImpl V config) (PlainStep config) MemoryStore.items p s ↔
      Undisturbed p s := by
  cases p with
  | start op =>
    cases op with
    | get ns key checked refreshed => exact iff_of_true (get_takesEffect checked refreshed) trivial
    | put ns key value now => exact (and_iff_left rfl).trans (put_takesEffect_iff value now)
    | delete ns key => exact iff_of_true ⟨MemoryStore.items_remove ns key, rfl⟩ trivial
    | sweep now order =>
      refine iff_of_true ⟨_, fun k hk => ?_, MemoryStore.items_removeAll _, rfl⟩ trivial
      exact MemoryStore.expired_of_mem_sweepKeys hk
  | expired ns key checked refreshed => exact expired_takesEffect_iff checked refreshed
  | live ns key checked refreshed => exact live_takesEffect_iff checked refreshed

variable {s₀ : MemoryStore V} {x : Linearize.System (MemoryStore V) (StoreOp V) (Phase V) (StoreReply V)}

/-- **In the runs of undisturbed steps, which are those in which every operation takes effect at its last
step, the operations might have come one after the other on a plain map.** -/
theorem memoryStore_linearizable :
    (Linearize.Reached (memoryImpl V config) Undisturbed s₀ x →
      Linearize.Linearizable (PlainStep config) s₀.items x.calls x.shared.items) ∧
    (Linearize.Reached (memoryImpl V config) Undisturbed s₀ x ↔
      Linearize.Reached (memoryImpl V config)
        (Linearize.TakesEffect (memoryImpl V config) (PlainStep config) MemoryStore.items) s₀ x) := by
  have hiff : Linearize.Reached (memoryImpl V config) Undisturbed s₀ x ↔
      Linearize.Reached (memoryImpl V config)
        (Linearize.TakesEffect (memoryImpl V config) (PlainStep config) MemoryStore.items) s₀ x :=
    ⟨Linearize.Reached.mono fun p s => (takesEffect_iff p s).2,
      Linearize.Reached.mono fun p s => (takesEffect_iff p s).1⟩
  exact ⟨fun h => (hiff.1 h).linearizable, hiff⟩

end Plain

/-! ### Two runs -/

/-- A store with an item that expires at time `10`. -/
def expiringStore : MemoryStore ℕ :=
  MemoryStore.insert {} "n" "k"
    { ns := "n", key := "k", value := 1, createdAt := 0, updatedAt := 0, expiresAt := some 10 }

/-- Items live for `10`. -/
def shortTtl : TTLConfig := { defaultTtl := some 10 }

/-- A `get` that is not disturbed. -/
def quietGet : Linearize.System (MemoryStore ℕ) (StoreOp ℕ) (Phase ℕ) (StoreReply ℕ) where
  shared := expiringStore
  calls := [⟨.get "n" "k" 5 5, .item (expiringStore.item "n" "k"), 0, 2⟩]
  clock := 3

theorem memoryStore_linearizable_quietGet : Linearize.Linearizable (PlainStep shortTtl)
    expiringStore.items quietGet.calls quietGet.shared.items := by
  refine memoryStore_linearizable.1 ?_
  have hstart : Linearize.Reached (memoryImpl ℕ shortTtl) Undisturbed expiringStore _ := .start
  have hchecked := (hstart.invoke (.get "n" "k" 5 5)).advance (k := 0) rfl trivial rfl
  refine hchecked.finish (k := 0) rfl (fun item hitem => ?_) rfl
  cases hitem
  rfl

/-- A `put` that returns while a `get` is under way. -/
def overlappingPut : Linearize.Call (StoreOp ℕ) (StoreReply ℕ) :=
  ⟨.put "n" "k" 2 20, .done, 2, 3⟩

/-- The `get`, which has seen the expired item. -/
def overlappingGet : Linearize.Call (StoreOp ℕ) (StoreReply ℕ) :=
  ⟨.get "n" "k" 20 20, .item none, 0, 4⟩

/-- A `get` after both. -/
def laterGet : Linearize.Call (StoreOp ℕ) (StoreReply ℕ) := ⟨.get "n" "k" 21 21, .item none, 5, 6⟩

/-- The run. -/
def lostPut : Linearize.System (MemoryStore ℕ) (StoreOp ℕ) (Phase ℕ) (StoreReply ℕ) where
  shared := (expiringStore.put shortTtl "n" "k" 2 20).remove "n" "k"
  calls := [overlappingPut, overlappingGet, laterGet]
  clock := 7

theorem reached_lostPut :
    Linearize.Reached (memoryImpl ℕ shortTtl) (fun _ _ => True) expiringStore lostPut := by
  have hstart : Linearize.Reached (memoryImpl ℕ shortTtl) (fun _ _ => True) expiringStore _ := .start
  have hchecked := (hstart.invoke (.get "n" "k" 20 20)).advance (k := 0) rfl trivial rfl
  have hput := (hchecked.invoke (.put "n" "k" 2 20)).finish (k := 1) rfl trivial rfl
  have hremoved := hput.finish (k := 0) rfl trivial rfl
  exact (hremoved.invoke (.get "n" "k" 21 21)).finish (k := 0) rfl trivial rfl

/-- In no order does a `get` after the `put` find nothing. -/
theorem lostPut_not_linearizable :
    Linearize.Reached (memoryImpl ℕ shortTtl) (fun _ _ => True) expiringStore lostPut ∧
      ¬ Linearize.Linearizable (PlainStep shortTtl) expiringStore.items lostPut.calls
        lostPut.shared.items := by
  refine ⟨reached_lostPut, ?_⟩
  rintro ⟨order, hperm, hpairwise, hseq⟩
  have horder : order ∈ [overlappingPut, overlappingGet, laterGet].permutations' :=
    List.mem_permutations'.2 hperm
  simp only [List.permutations', List.permutations'Aux, List.flatMap_cons, List.flatMap_nil,
    List.map_cons, List.map_nil, List.append_nil, List.cons_append, List.nil_append, List.mem_cons,
    List.not_mem_nil, or_false] at horder
  -- the later `get` comes last
  rcases horder with rfl | rfl | rfl | rfl | rfl | rfl
  · obtain ⟨m, ⟨rfl, -⟩, -, ⟨-, hreply⟩, -⟩ := hseq
    cases hreply
  · obtain ⟨m, ⟨rfl, -⟩, n, ⟨rfl, -⟩, -, ⟨-, hreply⟩, -⟩ := hseq
    cases hreply
  · exact absurd hpairwise (by decide)
  · exact absurd hpairwise (by decide)
  · exact absurd hpairwise (by decide)
  · exact absurd hpairwise (by decide)

end Store

end Juncture
