import Mathlib.Logic.Function.Basic
import Mathlib.Logic.Relation
import Mathlib.Data.List.Perm.Basic
import Mathlib.Data.List.Nodup
import Mathlib.Order.Lattice

/-!
# Tarjan's algorithm

Strongly connected components by one depth-first search.  Nodes are numbered as they are visited
and put on a stack; the low link of a node is the least number that is known to be reached from it
on the stack; a node whose low link is its own number closes a component, which is what lies on the
stack down to it.

The search is given as a relation on its states (`Runs`, `Sweeps`), as the recursion unfolds, so
that a program is an instance if each of its runs is one of these.

* `Inv` : the invariant between two steps, with the nodes whose visit is not over.
* `Scanning`, `Visited` : what holds while the successors of a node are gone through, and after its
  visit.
* `Runs.visited` : every visit keeps the invariant.
* `Sweeps.partition` : the components that a search has found are the classes of mutual
  reachability of the nodes that are reached from its roots.
-/

namespace Tarjan

open Relation

variable {α : Type*}

/-- `y` is reached from `x`. -/
abbrev Reach (succ : α → List α) : α → α → Prop := ReflTransGen fun x y => y ∈ succ x

/-- The state of the search.  The top of the stack comes first. -/
structure State (α : Type*) where
  /-- The next number. -/
  index : ℕ
  /-- The visited nodes of open components. -/
  stack : List α
  /-- The numbers of the visited nodes. -/
  num : α → Option ℕ
  /-- The low links of the visited nodes. -/
  low : α → ℕ
  /-- The closed components. -/
  components : List (List α)

/-- The stack down to a node, and what is below it. -/
def splitStack [DecidableEq α] (v : α) : List α → List α × List α
  | [] => ([], [])
  | w :: stack =>
    if w = v then ([w], stack) else (w :: (splitStack v stack).1, (splitStack v stack).2)

namespace State

variable [DecidableEq α]

/-- The search before the first visit. -/
def initial : State α := ⟨0, [], fun _ => none, fun _ => 0, []⟩

/-- A visit begins. -/
def enter (s : State α) (v : α) : State α where
  index := s.index + 1
  stack := v :: s.stack
  num := Function.update s.num v (some s.index)
  low := Function.update s.low v s.index
  components := s.components

/-- The low link of a node takes a value into account. -/
def lower (s : State α) (v : α) (k : ℕ) : State α :=
  { s with low := Function.update s.low v (min (s.low v) k) }

/-- A visit ends. -/
def close (s : State α) (v : α) : State α :=
  if s.num v = some (s.low v) then
    { s with
      stack := (splitStack v s.stack).2
      components := s.components ++ [(splitStack v s.stack).1] }
  else s

end State

/-- A call of the search: a visit, or the rest of the loop over the successors of a node. -/
inductive Call (α : Type*) where
  | visit (v : α)
  | scan (v : α) (rest : List α)

/-- The calls, from the state before to the state after. -/
inductive Runs [DecidableEq α] (succ : α → List α) : Call α → State α → State α → Prop
  | visit {v s s'} : Runs succ (.scan v (succ v)) (s.enter v) s' →
      Runs succ (.visit v) s (s'.close v)
  | done {v s} : Runs succ (.scan v []) s s
  | tree {v w rest s s₁ s₂} : s.num w = none → Runs succ (.visit w) s s₁ →
      Runs succ (.scan v rest) (s₁.lower v (s₁.low w)) s₂ → Runs succ (.scan v (w :: rest)) s s₂
  | back {v w rest s s' k} : s.num w = some k → w ∈ s.stack →
      Runs succ (.scan v rest) (s.lower v k) s' → Runs succ (.scan v (w :: rest)) s s'
  | cross {v w rest s s' k} : s.num w = some k → w ∉ s.stack →
      Runs succ (.scan v rest) s s' → Runs succ (.scan v (w :: rest)) s s'

/-- The loop over the roots: those that are not visited yet are. -/
inductive Sweeps [DecidableEq α] (succ : α → List α) : List α → State α → State α → Prop
  | done {s} : Sweeps succ [] s s
  | seen {v rest s s' k} : s.num v = some k → Sweeps succ rest s s' → Sweeps succ (v :: rest) s s'
  | fresh {v rest s s₁ s₂} : s.num v = none → Runs succ (.visit v) s s₁ →
      Sweeps succ rest s₁ s₂ → Sweeps succ (v :: rest) s s₂

/-- The invariant: `gray` are the nodes whose visit is not over. -/
structure Inv (succ : α → List α) (gray : List α) (s : State α) : Prop where
  /-- Numbers are below the next one. -/
  bounded : ∀ x k, s.num x = some k → k < s.index
  /-- A visited node is on the stack or in a component. -/
  seen : ∀ x, s.num x ≠ none ↔ x ∈ s.stack ∨ x ∈ s.components.flatten
  /-- It is there once. -/
  nodup : (s.stack ++ s.components.flatten).Nodup
  /-- Open visits are on the stack. -/
  gray_mem : ∀ g ∈ gray, g ∈ s.stack
  /-- When a visit is over, all successors are visited. -/
  black : ∀ x, s.num x ≠ none → x ∉ gray → ∀ y ∈ succ x, s.num y ≠ none
  /-- No edge leaves the closed components. -/
  closed : ∀ x ∈ s.components.flatten, ∀ y ∈ succ x, y ∈ s.components.flatten
  /-- From everything on the stack an open visit is reached. -/
  backward : ∀ x ∈ s.stack, ∃ g ∈ gray, Reach succ x g
  /-- The closed components are classes of mutual reachability. -/
  component : ∀ c ∈ s.components, c ≠ [] ∧ ∀ x ∈ c, ∀ y, y ∈ c ↔ Reach succ x y ∧ Reach succ y x

/-- What has happened to the search since the state `base`, in which `v` was visited. -/
structure Since (succ : α → List α) (base : State α) (v : α) (s : State α) : Prop where
  /-- Numbers stay. -/
  keeps : ∀ x k, base.num x = some k → s.num x = some k
  /-- So do low links. -/
  keepsLow : ∀ x, base.num x ≠ none → s.low x = base.low x
  /-- New nodes have larger numbers, and are reached from `v`. -/
  fresh : ∀ x k, base.num x = none → s.num x = some k → base.index ≤ k ∧ Reach succ v x
  /-- Closed components stay. -/
  keepsClosed : ∀ x ∈ base.components.flatten, x ∈ s.components.flatten
  /-- The number of `v`. -/
  self : s.num v = some base.index
  /-- The low link of `v` is at most its number. -/
  low_le : s.low v ≤ base.index

/-- What holds while the successors of `v` are gone through; `rest` are those that are left. -/
structure Scanning (succ : α → List α) (gray : List α) (base : State α) (v : α) (rest : List α)
    (s : State α) : Prop extends Since succ base v s where
  /-- The invariant, with `v` open. -/
  inv : Inv succ (v :: gray) s
  /-- The stack has grown above `v`. -/
  stack : ∃ top, s.stack = top ++ v :: base.stack
  /-- The low link of `v` is the number of a node on the stack that is reached from it. -/
  low_reach : ∃ y ∈ s.stack, s.num y = some (s.low v) ∧ Reach succ v y
  /-- It bounds the numbers below that the nodes above have edges to. -/
  low_edges : ∀ x ∈ s.stack, x ∉ base.stack → x ≠ v → ∀ y ∈ base.stack, y ∈ succ x →
    ∀ k, s.num y = some k → s.low v ≤ k
  /-- The same for the successors of `v`, which are visited. -/
  scanned : ∀ y ∈ succ v, y ∈ rest ∨
    (s.num y ≠ none ∧ (y ∈ base.stack → ∀ k, s.num y = some k → s.low v ≤ k))
  /-- What is left are successors. -/
  rest_subset : ∀ w ∈ rest, w ∈ succ v

/-- What holds after a visit of `v`. -/
structure Visited (succ : α → List α) (gray : List α) (base : State α) (v : α) (s : State α) :
    Prop extends Since succ base v s where
  /-- The invariant. -/
  inv : Inv succ gray s
  /-- The stack is as before, with what is left open on top. -/
  stack : ∃ top, s.stack = top ++ base.stack
  /-- The component of `v` is closed, or its low link leads below `v`. -/
  low_reach : s.low v = base.index ∨
    ∃ y ∈ base.stack, s.num y = some (s.low v) ∧ Reach succ v y
  /-- The low link bounds the numbers below that what is left open has edges to. -/
  low_edges : ∀ x ∈ s.stack, x ∉ base.stack → ∀ y ∈ base.stack, y ∈ succ x →
    ∀ k, s.num y = some k → s.low v ≤ k

/-! ### The invariant -/

variable {succ : α → List α} {gray : List α} {base s s₁ : State α} {v w : α} {rest : List α} {k : ℕ}

namespace Inv

/-- A node on the stack is visited. -/
theorem seen_stack (h : Inv succ gray s) {x : α} (hx : x ∈ s.stack) : s.num x ≠ none :=
  (h.seen x).2 (.inl hx)

/-- The stack and the closed components are disjoint. -/
theorem not_closed (h : Inv succ gray s) {x : α} (hx : x ∈ s.stack) :
    x ∉ s.components.flatten :=
  fun hx' => List.disjoint_of_nodup_append h.nodup hx hx'

/-- From a closed component only closed components are reached. -/
theorem closed_of_reach (h : Inv succ gray s) {x y : α} (hx : x ∈ s.components.flatten)
    (hxy : Reach succ x y) : y ∈ s.components.flatten := by
  induction hxy with
  | refl => exact hx
  | tail _ hedge ih => exact h.closed _ ih _ hedge

/-- Between two visits from outside everything is in a component. -/
theorem stack_eq_nil (h : Inv succ [] s) : s.stack = [] := by
  refine List.eq_nil_iff_forall_not_mem.2 fun x hx => ?_
  obtain ⟨g, hg, -⟩ := h.backward x hx
  cases hg

end Inv

/-- A visit within a visit. -/
theorem Since.trans (h : Since succ base v s) (h₁ : Since succ s w s₁)
    (hlt : base.index ≤ s.index) (hw : w ∈ succ v) : Since succ base v s₁ where
  keeps x k hx := h₁.keeps x k (h.keeps x k hx)
  keepsLow x hx := by
    obtain ⟨k, hk⟩ := Option.ne_none_iff_exists'.1 hx
    rw [h₁.keepsLow x (by rw [h.keeps x k hk]; simp), h.keepsLow x hx]
  fresh x k hx hk := by
    cases hs : s.num x with
    | none =>
      obtain ⟨hle, hreach⟩ := h₁.fresh x k hs hk
      exact ⟨hlt.trans hle, .head hw hreach⟩
    | some k' =>
      obtain rfl : k' = k := Option.some.inj ((h₁.keeps x k' hs).symm.trans hk)
      exact h.fresh x k' hx hs
  keepsClosed x hx := h₁.keepsClosed x (h.keepsClosed x hx)
  self := h₁.keeps v _ h.self
  low_le := by
    rw [h₁.keepsLow v (by rw [h.self]; simp)]
    exact h.low_le

/-- The stack only grows during a visit. -/
theorem Scanning.base_stack_subset (h : Scanning succ gray base v rest s) {x : α}
    (hx : x ∈ base.stack) : x ∈ s.stack := by
  obtain ⟨top, hstack⟩ := h.stack
  rw [hstack]
  exact List.mem_append_right _ (List.mem_cons_of_mem _ hx)

/-- The next number is above that of the node. -/
theorem Scanning.index_lt (h : Scanning succ gray base v rest s) : base.index < s.index :=
  h.inv.bounded v _ h.self

/-! ### The end of a visit -/

section Close

variable (h : Scanning succ gray base v [] s) (hbase : Inv succ gray base) (hv : base.num v = none)
include h hbase

/-- What is new on the stack has not been visited before. -/
theorem Scanning.new_of_mem {x : α} (hx : x ∈ s.stack) (hnew : x ∉ base.stack) :
    base.num x = none := by
  by_contra hseen
  obtain hx' | hx' := (hbase.seen x).1 hseen
  · exact hnew hx'
  · exact h.inv.not_closed hx (h.keepsClosed x hx')

/-- Numbers on the old stack are below that of the node. -/
theorem Scanning.lt_of_mem_base {y : α} (hy : y ∈ base.stack) :
    ∃ k, s.num y = some k ∧ k < base.index := by
  obtain ⟨k, hk⟩ := Option.ne_none_iff_exists'.1 (hbase.seen_stack hy)
  exact ⟨k, h.keeps y k hk, hbase.bounded y k hk⟩

/-- A successor of what is new on the stack is new on the stack, in a closed component, or on the
old stack with a number that the low link bounds. -/
theorem Scanning.successor {x y : α} (hx : x ∈ s.stack) (hnew : x ∉ base.stack)
    (hxy : y ∈ succ x) : (y ∈ s.stack ∧ y ∉ base.stack) ∨ y ∈ s.components.flatten ∨
      (y ∈ base.stack ∧ ∀ k, s.num y = some k → s.low v ≤ k) := by
  have hseen : s.num y ≠ none ∧ (y ∈ base.stack → ∀ k, s.num y = some k → s.low v ≤ k) := by
    by_cases hxv : x = v
    · subst hxv
      exact (h.scanned y hxy).resolve_left fun hy => nomatch hy
    · refine ⟨?_, fun hy => h.low_edges x hx hnew hxv y hy hxy⟩
      have hgray : x ∉ v :: gray := fun hmem => (List.mem_cons.1 hmem).elim hxv fun hmem =>
        hnew (hbase.gray_mem x hmem)
      exact h.inv.black x (h.inv.seen_stack hx) hgray y hxy
  by_cases hy : y ∈ base.stack
  · exact .inr (.inr ⟨hy, hseen.2 hy⟩)
  · obtain hy' | hy' := (h.inv.seen y).1 hseen.1
    · exact .inl ⟨hy', hy⟩
    · exact .inr (.inl hy')

end Close

/-- A visit whose node leads below it leaves the node open. -/
theorem Scanning.visited_of_lt (h : Scanning succ gray base v [] s) (hbase : Inv succ gray base)
    (hlt : s.low v < base.index) : Visited succ gray base v s := by
  obtain ⟨y, hy, hlow, hreach⟩ := h.low_reach
  have hy' : y ∈ base.stack := by
    by_contra hnew
    have := (h.fresh y _ (h.new_of_mem hbase hy hnew) hlow).1
    omega
  refine
    { toSince := h.toSince
      inv := { h.inv with
        gray_mem := fun g hg => h.inv.gray_mem g (List.mem_cons_of_mem _ hg)
        black := fun x hx hgray z hz => ?_
        backward := fun x hx => ?_ }
      stack := ?_
      low_reach := .inr ⟨y, hy', hlow, hreach⟩
      low_edges := fun x hx hnew z hz hxz k hk => ?_ }
  · by_cases hxv : x = v
    · subst hxv
      exact ((h.scanned z hz).resolve_left fun hz => nomatch hz).1
    · exact h.inv.black x hx (fun hmem => (List.mem_cons.1 hmem).elim hxv hgray) z hz
  · obtain ⟨g, hg, hxg⟩ := h.inv.backward x hx
    obtain rfl | hg := List.mem_cons.1 hg
    · -- from the node itself an older open visit is reached
      obtain ⟨g', hg', hyg⟩ := hbase.backward y hy'
      exact ⟨g', hg', hxg.trans (hreach.trans hyg)⟩
    · exact ⟨g, hg, hxg⟩
  · obtain ⟨top, hstack⟩ := h.stack
    exact ⟨top ++ [v], by rw [hstack, List.append_assoc]; rfl⟩
  · obtain ⟨-, hz'⟩ | hz' | ⟨-, hle⟩ := h.successor hbase hx hnew hxz
    · exact absurd hz hz'
    · exact absurd hz' (h.inv.not_closed (h.base_stack_subset hz))
    · exact hle k hk

/-- The component that is closed: what is new on the stack. -/
theorem Scanning.component (h : Scanning succ gray base v [] s) (hbase : Inv succ gray base)
    (hgray : ∀ g ∈ gray, Reach succ g v) (hlow : s.low v = base.index) {c : List α}
    (hc : ∀ x, x ∈ c ↔ x ∈ s.stack ∧ x ∉ base.stack) (hself : v ∈ c) :
    (∀ x ∈ c, ∀ y ∈ succ x, y ∈ c ∨ y ∈ s.components.flatten) ∧
      ∀ x ∈ c, ∀ y, y ∈ c ↔ Reach succ x y ∧ Reach succ y x := by
  have hleaves : ∀ x ∈ c, ∀ y ∈ succ x, y ∈ c ∨ y ∈ s.components.flatten := by
    intro x hx y hxy
    obtain ⟨hx, hnew⟩ := (hc x).1 hx
    obtain hy | hy | ⟨hy, hle⟩ := h.successor hbase hx hnew hxy
    · exact .inl ((hc y).2 hy)
    · exact .inr hy
    · obtain ⟨k, hk, hlt⟩ := h.lt_of_mem_base hbase hy
      have := hle k hk
      omega
  have hreach : ∀ x ∈ c, Reach succ v x ∧ Reach succ x v := by
    intro x hx
    obtain ⟨hx, hnew⟩ := (hc x).1 hx
    obtain ⟨k, hk⟩ := Option.ne_none_iff_exists'.1 (h.inv.seen_stack hx)
    obtain ⟨g, hg, hxg⟩ := h.inv.backward x hx
    refine ⟨(h.fresh x k (h.new_of_mem hbase hx hnew) hk).2, ?_⟩
    obtain rfl | hg := List.mem_cons.1 hg
    · exact hxg
    · exact hxg.trans (hgray g hg)
  have hclosure : ∀ x y, Reach succ x y → x ∈ c → y ∈ c ∨ y ∈ s.components.flatten := by
    intro x y hxy hx
    induction hxy with
    | refl => exact .inl hx
    | tail _ hedge ih =>
      obtain hmid | hmid := ih
      · exact hleaves _ hmid _ hedge
      · exact .inr (h.inv.closed _ hmid _ hedge)
  refine ⟨hleaves, fun x hx y => ⟨fun hy => ?_, fun ⟨hxy, hyx⟩ => ?_⟩⟩
  · exact ⟨(hreach x hx).2.trans (hreach y hy).1, (hreach y hy).2.trans (hreach x hx).1⟩
  · refine (hclosure x y hxy hx).resolve_right fun hy => ?_
    -- a closed component is not left, but the node is on the stack
    have hv := h.inv.closed_of_reach hy (hyx.trans (hreach x hx).2)
    exact h.inv.not_closed ((hc v).1 hself).1 hv

/-! ### The steps of a visit -/

section

variable [DecidableEq α]

/-- Low links are not part of the invariant. -/
theorem Inv.lower (h : Inv succ gray s) (v : α) (k : ℕ) : Inv succ gray (s.lower v k) :=
  ⟨h.bounded, h.seen, h.nodup, h.gray_mem, h.black, h.closed, h.backward, h.component⟩

omit [DecidableEq α] in
theorem inv_initial : Inv succ [] (State.initial : State α) where
  bounded x k h := nomatch h
  seen x := by simp [State.initial]
  nodup := List.nodup_nil
  gray_mem g hg := nomatch hg
  black x h := absurd rfl h
  closed x hx := nomatch hx
  backward x hx := nomatch hx
  component c hc := nomatch hc

@[simp] theorem low_lower_self (s : State α) (v : α) (k : ℕ) :
    (s.lower v k).low v = min (s.low v) k := Function.update_self ..

theorem low_lower_of_ne (s : State α) {v x : α} (k : ℕ) (h : x ≠ v) :
    (s.lower v k).low x = s.low x := Function.update_of_ne h ..

/-- The low link of a node that is being scanned can be lowered. -/
theorem Since.lower (h : Since succ base v s) (hv : base.num v = none) (k : ℕ) :
    Since succ base v (s.lower v k) where
  keeps := h.keeps
  keepsLow x hx := by
    have hne : x ≠ v := fun hxv => hx (hxv ▸ hv)
    rw [low_lower_of_ne s k hne]
    exact h.keepsLow x hx
  fresh := h.fresh
  keepsClosed := h.keepsClosed
  self := h.self
  low_le := by
    rw [low_lower_self]
    exact (min_le_left _ _).trans h.low_le

@[simp] theorem num_enter_self (s : State α) (v : α) : (s.enter v).num v = some s.index :=
  Function.update_self ..

theorem num_enter_of_ne (s : State α) {v x : α} (h : x ≠ v) : (s.enter v).num x = s.num x :=
  Function.update_of_ne h ..

theorem seen_enter (s : State α) (v x : α) :
    (s.enter v).num x ≠ none ↔ x = v ∨ s.num x ≠ none := by
  by_cases hx : x = v
  · subst hx
    simp
  · simp [num_enter_of_ne s hx, hx]

/-- The invariant when a visit begins. -/
theorem Inv.of_enter (h : Inv succ gray base) (hv : base.num v = none) :
    Inv succ (v :: gray) (base.enter v) where
  bounded x k hx := by
    by_cases hxv : x = v
    · subst hxv
      rw [num_enter_self] at hx
      obtain rfl := Option.some.inj hx
      exact Nat.lt_succ_self _
    · rw [num_enter_of_ne base hxv] at hx
      exact (h.bounded x k hx).trans (Nat.lt_succ_self _)
  seen x := by
    rw [seen_enter, h.seen x]
    exact or_assoc.symm.trans (or_congr_left List.mem_cons.symm)
  nodup := by
    have hnot : v ∉ base.stack ++ base.components.flatten := by
      rw [List.mem_append, ← h.seen v, hv]
      exact fun hno => hno rfl
    exact List.nodup_cons.2 ⟨hnot, h.nodup⟩
  gray_mem g hg := by
    obtain rfl | hg := List.mem_cons.1 hg
    · exact List.mem_cons_self
    · exact List.mem_cons_of_mem _ (h.gray_mem g hg)
  black x hx hgray y hy := by
    rw [List.mem_cons, not_or] at hgray
    have hx' := ((seen_enter base v x).1 hx).resolve_left hgray.1
    exact (seen_enter base v y).2 (.inr (h.black x hx' hgray.2 y hy))
  closed := h.closed
  backward x hx := by
    obtain rfl | hx := List.mem_cons.1 hx
    · exact ⟨x, List.mem_cons_self, .refl⟩
    · obtain ⟨g, hg, hreach⟩ := h.backward x hx
      exact ⟨g, List.mem_cons_of_mem _ hg, hreach⟩
  component := h.component

/-- A visit begins. -/
theorem Inv.enter (h : Inv succ gray base) (hv : base.num v = none) :
    Scanning succ gray base v (succ v) (base.enter v) where
  keeps x k hx := by
    have hxv : x ≠ v := by
      rintro rfl
      rw [hv] at hx
      cases hx
    exact (num_enter_of_ne base hxv).trans hx
  keepsLow x hx := by
    have hxv : x ≠ v := fun hxv => hx (hxv ▸ hv)
    exact Function.update_of_ne hxv ..
  fresh x k hx hk := by
    by_cases hxv : x = v
    · subst hxv
      rw [num_enter_self] at hk
      obtain rfl := Option.some.inj hk
      exact ⟨le_rfl, .refl⟩
    · rw [num_enter_of_ne base hxv, hx] at hk
      cases hk
  keepsClosed x hx := hx
  self := num_enter_self base v
  low_le := by simp [State.enter]
  inv := h.of_enter hv
  stack := ⟨[], rfl⟩
  low_reach := ⟨v, List.mem_cons_self, by simp [State.enter], .refl⟩
  low_edges x hx hbase hne := absurd ((List.mem_cons.1 hx).resolve_left hne) hbase
  scanned y hy := .inl hy
  rest_subset w hw := hw

/-- A successor that has not been visited: its visit comes first. -/
theorem Scanning.tree (h : Scanning succ gray base v (w :: rest) s) (hv : base.num v = none)
    (hw : s.num w = none) (hvisit : Visited succ (v :: gray) s w s₁) :
    Scanning succ gray base v rest (s₁.lower v (s₁.low w)) := by
  have hedge : w ∈ succ v := h.rest_subset w List.mem_cons_self
  have hsince := h.toSince.trans hvisit.toSince (Nat.le_of_lt h.index_lt) hedge
  have hlow : s₁.low v = s.low v := hvisit.keepsLow v (by rw [h.self]; simp)
  have hmem : ∀ x, x ∈ s.stack → x ∈ s₁.stack := by
    obtain ⟨top, hstack⟩ := hvisit.stack
    exact fun x hx => hstack ▸ List.mem_append_right top hx
  -- numbers on the old stack are those at the beginning
  have hnum : ∀ y ∈ base.stack, ∀ k, s₁.num y = some k → s.num y = some k := by
    intro y hy k hk
    obtain ⟨k', hk'⟩ := Option.ne_none_iff_exists'.1 (h.inv.seen_stack (h.base_stack_subset hy))
    rw [hk', ← hk, hvisit.keeps y k' hk']
  refine
    { toSince := hsince.lower hv _
      inv := hvisit.inv.lower _ _
      stack := ?_
      low_reach := ?_
      low_edges := fun x hx hbase hne y hy hxy k hk => ?_
      scanned := fun y hy => ?_
      rest_subset := fun x hx => h.rest_subset x (List.mem_cons_of_mem _ hx) }
  · obtain ⟨top, hstack⟩ := h.stack
    obtain ⟨top', hstack'⟩ := hvisit.stack
    exact ⟨top' ++ top, by rw [List.append_assoc, ← hstack]; exact hstack'⟩
  · rw [low_lower_self, hlow]
    obtain hle | hlt := le_or_gt (s.low v) (s₁.low w)
    · obtain ⟨y, hy, hk, hreach⟩ := h.low_reach
      rw [min_eq_left hle]
      exact ⟨y, hmem y hy, hvisit.keeps y _ hk, hreach⟩
    · rw [min_eq_right (Nat.le_of_lt hlt)]
      obtain hclosed | ⟨y, hy, hk, hreach⟩ := hvisit.low_reach
      · have := h.low_le
        have := h.index_lt
        omega
      · exact ⟨y, hmem y hy, hk, .head hedge hreach⟩
  · rw [low_lower_self, hlow]
    by_cases hold : x ∈ s.stack
    · exact (min_le_left _ _).trans (h.low_edges x hold hbase hne y hy hxy k (hnum y hy k hk))
    · exact (min_le_right _ _).trans
        (hvisit.low_edges x hx hold y (h.base_stack_subset hy) hxy k hk)
  · rw [low_lower_self, hlow]
    by_cases hyw : y = w
    · subst hyw
      refine .inr ⟨by rw [show (s₁.lower v (s₁.low y)).num y = s₁.num y from rfl, hvisit.self]; simp,
        fun hy' => ?_⟩
      -- the old stack has been visited before
      exact absurd hw (h.inv.seen_stack (h.base_stack_subset hy'))
    · obtain hy' | ⟨hseen, hle⟩ := h.scanned y hy
      · exact .inl ((List.mem_cons.1 hy').resolve_left hyw)
      · obtain ⟨k', hk'⟩ := Option.ne_none_iff_exists'.1 hseen
        refine .inr ⟨?_, fun hy' k hk => (min_le_left _ _).trans (hle hy' k (hnum y hy' k hk))⟩
        rw [show (s₁.lower v (s₁.low w)).num y = s₁.num y from rfl, hvisit.keeps y k' hk']
        simp

/-- A successor on the stack: the low link takes its number into account. -/
theorem Scanning.back (h : Scanning succ gray base v (w :: rest) s) (hv : base.num v = none)
    (hw : s.num w = some k) (hstack : w ∈ s.stack) :
    Scanning succ gray base v rest (s.lower v k) where
  toSince := h.toSince.lower hv k
  inv := h.inv.lower v k
  stack := h.stack
  low_reach := by
    rw [low_lower_self]
    obtain hle | hlt := le_or_gt (s.low v) k
    · rw [min_eq_left hle]
      exact h.low_reach
    · rw [min_eq_right (Nat.le_of_lt hlt)]
      exact ⟨w, hstack, hw, .single (h.rest_subset w List.mem_cons_self)⟩
  low_edges x hx hbase hne y hy hxy j hj := by
    rw [low_lower_self]
    exact (min_le_left _ _).trans (h.low_edges x hx hbase hne y hy hxy j hj)
  scanned y hy := by
    rw [low_lower_self]
    by_cases hyw : y = w
    · subst hyw
      refine .inr ⟨(h.inv.lower v k).seen_stack hstack, fun _ j hj => ?_⟩
      obtain rfl : k = j := Option.some.inj (hw.symm.trans hj)
      exact min_le_right _ _
    · obtain hy' | ⟨hseen, hle⟩ := h.scanned y hy
      · exact .inl ((List.mem_cons.1 hy').resolve_left hyw)
      · exact .inr ⟨hseen, fun hy' j hj => (min_le_left _ _).trans (hle hy' j hj)⟩
  rest_subset x hx := h.rest_subset x (List.mem_cons_of_mem _ hx)

/-- A successor in a closed component: nothing happens. -/
theorem Scanning.cross (h : Scanning succ gray base v (w :: rest) s) (hw : s.num w = some k)
    (hstack : w ∉ s.stack) : Scanning succ gray base v rest s :=
  { h with
    scanned := fun y hy => by
      by_cases hyw : y = w
      · subst hyw
        exact .inr ⟨by rw [hw]; simp, fun hy' => absurd (h.base_stack_subset hy') hstack⟩
      · exact (h.scanned y hy).imp_left fun hy' => (List.mem_cons.1 hy').resolve_left hyw
    rest_subset := fun x hx => h.rest_subset x (List.mem_cons_of_mem _ hx) }

theorem splitStack_append {top below : List α} (h : v ∉ top) :
    splitStack v (top ++ v :: below) = (top ++ [v], below) := by
  induction top with
  | nil => simp [splitStack]
  | cons x top ih =>
    rw [List.mem_cons, not_or] at h
    simp [splitStack, Ne.symm h.1, ih h.2]

/-- The invariant when what is new on the stack is made a component. -/
theorem Scanning.inv_close (h : Scanning succ gray base v [] s) (hbase : Inv succ gray base)
    (hgray : ∀ g ∈ gray, Reach succ g v) (hlow : s.low v = base.index) {c : List α}
    (hstack : s.stack = c ++ base.stack) (hself : v ∈ c) :
    Inv succ gray { s with stack := base.stack, components := s.components ++ [c] } := by
  have hnodup : (c ++ base.stack).Nodup := hstack ▸ h.inv.nodup.of_append_left
  have hc : ∀ x, x ∈ c ↔ x ∈ s.stack ∧ x ∉ base.stack := by
    intro x
    rw [hstack, List.mem_append]
    exact ⟨fun hx => ⟨.inl hx, List.disjoint_of_nodup_append hnodup hx⟩,
      fun hx => hx.1.resolve_right hx.2⟩
  obtain ⟨hleaves, hclass⟩ := h.component hbase hgray hlow hc hself
  have hflat : (s.components ++ [c]).flatten = s.components.flatten ++ c := by simp
  have hmem : ∀ x, x ∈ (s.components ++ [c]).flatten ↔ x ∈ s.components.flatten ∨ x ∈ c := by
    intro x
    rw [hflat, List.mem_append]
  refine
    { bounded := h.inv.bounded
      seen := fun x => ?_
      nodup := ?_
      gray_mem := hbase.gray_mem
      black := fun x hx hnot y hy => ?_
      closed := fun x hx y hy => ?_
      backward := hbase.backward
      component := fun d hd => ?_ }
  · show s.num x ≠ none ↔ x ∈ base.stack ∨ x ∈ (s.components ++ [c]).flatten
    rw [h.inv.seen x, hstack, List.mem_append, hmem x]
    tauto
  · -- the names have only moved from the stack to the components
    show (base.stack ++ (s.components ++ [c]).flatten).Nodup
    rw [hflat]
    have hperm : (base.stack ++ (s.components.flatten ++ c)).Perm
        (s.stack ++ s.components.flatten) := by
      rw [hstack, ← List.append_assoc]
      refine List.perm_append_comm.trans ?_
      simp only [List.append_assoc, List.Perm.refl]
    exact hperm.nodup_iff.2 h.inv.nodup
  · -- all successors of `v` have been gone through
    by_cases hxv : x = v
    · subst hxv
      exact ((h.scanned y hy).resolve_left fun hy => nomatch hy).1
    · exact h.inv.black x hx (fun hx' => (List.mem_cons.1 hx').elim hxv hnot) y hy
  · rw [hmem] at hx ⊢
    obtain hx | hx := hx
    · exact .inl (h.inv.closed x hx y hy)
    · exact (hleaves x hx y hy).symm
  · obtain hd | hd := List.mem_append.1 hd
    · exact h.inv.component d hd
    · obtain rfl := List.mem_singleton.1 hd
      exact ⟨List.ne_nil_of_mem hself, hclass⟩

/-- **A visit ends.** -/
theorem Scanning.close (h : Scanning succ gray base v [] s) (hbase : Inv succ gray base)
    (hgray : ∀ g ∈ gray, Reach succ g v) : Visited succ gray base v (s.close v) := by
  by_cases hlow : s.num v = some (s.low v)
  · have hlow' : s.low v = base.index := Option.some.inj (hlow.symm.trans h.self)
    obtain ⟨top, hstack⟩ := h.stack
    have hstack' : s.stack = (top ++ [v]) ++ base.stack := by
      rw [hstack, List.append_assoc]
      rfl
    have htop : v ∉ top := by
      have hnodup : (top ++ v :: base.stack).Nodup := hstack ▸ h.inv.nodup.of_append_left
      exact fun hv => List.disjoint_of_nodup_append hnodup hv List.mem_cons_self
    have hclose : s.close v = { s with
        stack := base.stack, components := s.components ++ [top ++ [v]] } := by
      rw [State.close, if_pos hlow, hstack, splitStack_append htop]
    have hself : v ∈ top ++ [v] := List.mem_append_right _ List.mem_cons_self
    rw [hclose]
    exact
      { keeps := h.keeps
        keepsLow := h.keepsLow
        fresh := h.fresh
        keepsClosed := fun x hx => by
          rw [List.flatten_append]
          exact List.mem_append_left _ (h.keepsClosed x hx)
        self := h.self
        low_le := h.low_le
        inv := h.inv_close hbase hgray hlow' hstack' hself
        stack := ⟨[], rfl⟩
        low_reach := .inl hlow'
        low_edges := fun x hx hnew => absurd hx hnew }
  · -- the low link leads below `v`, whose component is left open
    have hclose : s.close v = s := if_neg hlow
    rw [hclose]
    have hne : s.low v ≠ base.index := fun heq => hlow (heq ▸ h.self)
    exact h.visited_of_lt hbase (lt_of_le_of_ne h.low_le hne)

/-! ### Runs -/

/-- What a call does. -/
def Call.Spec (succ : α → List α) : Call α → State α → State α → Prop
  | .visit v, s, s' => ∀ gray, Inv succ gray s → s.num v = none → (∀ g ∈ gray, Reach succ g v) →
    Visited succ gray s v s'
  | .scan v rest, s, s' => ∀ gray base, Inv succ gray base → base.num v = none →
    (∀ g ∈ gray, Reach succ g v) → Scanning succ gray base v rest s →
      Scanning succ gray base v [] s'

/-- **Every call does what it should.** -/
theorem Runs.spec {call : Call α} {s s' : State α} (h : Runs succ call s s') :
    call.Spec succ s s' := by
  induction h with
  | visit _ ih =>
    intro gray hinv hv hgray
    exact (ih gray _ hinv hv hgray (hinv.enter hv)).close hinv hgray
  | done => exact fun _ _ _ _ _ hs => hs
  | tree hw _ _ ihvisit ihscan =>
    intro gray base hinv hv hgray hs
    have hedge := hs.rest_subset _ List.mem_cons_self
    refine ihscan gray base hinv hv hgray (hs.tree hv hw (ihvisit _ hs.inv hw fun g hg => ?_))
    obtain rfl | hg := List.mem_cons.1 hg
    · exact .single hedge
    · exact (hgray g hg).tail hedge
  | back hw hstack _ ih =>
    intro gray base hinv hv hgray hs
    exact ih gray base hinv hv hgray (hs.back hv hw hstack)
  | cross hw hstack _ ih =>
    intro gray base hinv hv hgray hs
    exact ih gray base hinv hv hgray (hs.cross hw hstack)

/-- **A visit from outside.** -/
theorem Runs.visited {s s' : State α} (h : Runs succ (.visit v) s s') (hinv : Inv succ [] s)
    (hv : s.num v = none) : Visited succ [] s v s' :=
  h.spec [] hinv hv fun _ hg => nomatch hg

/-- The loop over the roots visits what is reached from them, and nothing else. -/
theorem Sweeps.visited {roots : List α} {s s' : State α} (h : Sweeps succ roots s s')
    (hinv : Inv succ [] s) : Inv succ [] s' ∧ (∀ x, s.num x ≠ none → s'.num x ≠ none) ∧
      (∀ r ∈ roots, s'.num r ≠ none) ∧
        ∀ x, s'.num x ≠ none → s.num x ≠ none ∨ ∃ r ∈ roots, Reach succ r x := by
  induction h with
  | done => exact ⟨hinv, fun _ hx => hx, fun r hr => (nomatch hr), fun _ hx => .inl hx⟩
  | seen hv _ ih =>
    obtain ⟨hinv', hkeeps, hroots, hreach⟩ := ih hinv
    refine ⟨hinv', hkeeps, fun r hr => ?_, fun x hx => (hreach x hx).imp_right ?_⟩
    · obtain rfl | hr := List.mem_cons.1 hr
      · exact hkeeps _ (by rw [hv]; simp)
      · exact hroots r hr
    · exact fun ⟨r, hr, hrx⟩ => ⟨r, List.mem_cons_of_mem _ hr, hrx⟩
  | @fresh v rest s s₁ s₂ hv hvisit _ ih =>
    have hvisited := hvisit.visited hinv hv
    obtain ⟨hinv', hkeeps, hroots, hreach⟩ := ih hvisited.inv
    have hkeeps' : ∀ x, s.num x ≠ none → s₁.num x ≠ none := by
      intro x hx
      obtain ⟨k, hk⟩ := Option.ne_none_iff_exists'.1 hx
      rw [hvisited.keeps x k hk]
      simp
    refine ⟨hinv', fun x hx => hkeeps x (hkeeps' x hx), fun r hr => ?_, fun x hx => ?_⟩
    · obtain rfl | hr := List.mem_cons.1 hr
      · exact hkeeps _ (by rw [hvisited.self]; simp)
      · exact hroots r hr
    · obtain hx | ⟨r, hr, hrx⟩ := hreach x hx
      · by_cases hs : s.num x = none
        · obtain ⟨k, hk⟩ := Option.ne_none_iff_exists'.1 hx
          exact .inr ⟨v, List.mem_cons_self, (hvisited.fresh x k hs hk).2⟩
        · exact .inl hs
      · exact .inr ⟨r, List.mem_cons_of_mem _ hr, hrx⟩

/-- The components are the classes of mutual reachability of the nodes reached from the roots. -/
structure IsPartition (succ : α → List α) (roots : List α) (components : List (List α)) : Prop where
  /-- No component is empty. -/
  nonempty : ∀ c ∈ components, c ≠ []
  /-- No node is in two components, or in one twice. -/
  nodup : components.flatten.Nodup
  /-- What is reached from the roots is covered, and nothing else. -/
  covers : ∀ x, x ∈ components.flatten ↔ ∃ r ∈ roots, Reach succ r x
  /-- A component is what its nodes reach, and are reached from. -/
  mutual_reach : ∀ c ∈ components, ∀ x ∈ c, ∀ y, y ∈ c ↔ Reach succ x y ∧ Reach succ y x

/-- **What the search finds.** -/
theorem Sweeps.partition {roots : List α} {s : State α} (h : Sweeps succ roots .initial s) :
    IsPartition succ roots s.components := by
  obtain ⟨hinv, -, hroots, hreach⟩ := h.visited inv_initial
  have hclosed : ∀ x, s.num x ≠ none ↔ x ∈ s.components.flatten := by
    intro x
    rw [hinv.seen x, hinv.stack_eq_nil]
    simp
  refine ⟨fun c hc => (hinv.component c hc).1, hinv.nodup.of_append_right, fun x => ?_,
    fun c hc => (hinv.component c hc).2⟩
  constructor
  · intro hx
    exact (hreach x ((hclosed x).2 hx)).resolve_left fun hx => hx rfl
  · rintro ⟨r, hr, hrx⟩
    exact hinv.closed_of_reach ((hclosed r).1 (hroots r hr)) hrx

end

end Tarjan
