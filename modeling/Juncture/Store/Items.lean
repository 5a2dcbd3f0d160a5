import Mathlib.Data.List.AList
import Mathlib.Data.Finset.Sort
import Mathlib.Data.String.Basic

/-!
# What the stores hold

An item has a namespace and a key in it.  `MemoryStore` keeps a map for each namespace, whose items may
expire; `SqliteStore` keeps the rows of a table, which has no column for that.

The type of values is a parameter; a row has the text of its value.
-/

namespace Juncture

namespace Store

/-- `StoreError`. -/
inductive StoreError where
  | serialize (msg : String)
  | storage (msg : String)
  | vectorSearch (msg : String)
deriving DecidableEq

/-- `Item`, without its embedding; times are in nanoseconds. -/
structure Item (V : Type) where
  /-- Namespace. -/
  ns : String
  /-- Key in the namespace. -/
  key : String
  /-- Value. -/
  value : V
  /-- When it was first put. -/
  createdAt : ℤ
  /-- When it was last put or refreshed. -/
  updatedAt : ℤ
  /-- When it expires, if it does. -/
  expiresAt : Option ℤ := none
deriving DecidableEq

/-- `is_expired`, when the clock shows `now`. -/
def Item.isExpired {V : Type} (item : Item V) (now : ℤ) : Bool :=
  item.expiresAt.any fun expiresAt => decide (expiresAt < now)

/-- `MemoryStore`, without its configuration. -/
structure MemoryStore (V : Type) where
  /-- The items of each namespace. -/
  data : AList fun _ : String => AList fun _ : String => Item V := ∅

/-- The table `store_items` of a `SqliteStore`, by namespace and key: the texts of values and times. -/
structure SqliteStore where
  /-- The rows. -/
  rows : AList fun _ : String × String => String × String × String := ∅

namespace MemoryStore

variable {V : Type}

/-- The namespaces there are, some of which may hold nothing. -/
def namespaces (s : MemoryStore V) : Finset String := s.data.keys.toFinset

/-- A namespace holds an item that has not expired. -/
def holdsLive (s : MemoryStore V) (now : ℤ) (ns : String) : Bool :=
  (s.data.lookup ns).any fun items => items.entries.any fun e => !e.2.isExpired now

theorem mem_namespaces_of_holdsLive {s : MemoryStore V} {now : ℤ} {ns : String}
    (h : s.holdsLive now ns) : ns ∈ s.namespaces := by
  refine List.mem_toFinset.mpr (AList.mem_keys.mp (AList.lookup_isSome.mp ?_))
  unfold holdsLive at h
  cases hlookup : s.data.lookup ns with
  | none => simp [hlookup] at h
  | some items => rfl

end MemoryStore

/-- The namespaces of the rows. -/
def SqliteStore.namespaces (s : SqliteStore) : Finset String :=
  (s.rows.keys.map Prod.fst).toFinset

end Store

end Juncture
