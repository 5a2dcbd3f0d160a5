import Mathlib.Data.List.Basic
import Mathlib.Data.List.Perm.Basic

/-!
# Operations under a lock

Several operations on one object overlap.  Each is made of steps, and takes the lock of the object for each
of them; in between, steps of other operations may come.

* `Impl` : operations, step by step.
* `Reached` : the runs, with a condition on the steps.
* `Linearizable` : the operations that have returned might have come one after the other.
* `Reached.linearizable` : they might, where each takes effect at its last step as it should, and at no other.
-/

namespace Linearize

variable {σ τ ι φ ω : Type*}

/-- Operations `ι` with results `ω`.  What is still to be done of one is its phase. -/
structure Impl (σ ι φ ω : Type*) where
  /-- The first phase. -/
  start : ι → φ
  /-- The operation that a phase is part of. -/
  op : φ → ι
  /-- One step under the lock: the next phase, or the result. -/
  lock : φ → σ → σ × (φ ⊕ ω)
  op_start : ∀ i, op (start i) = i
  op_lock : ∀ p s s' p', lock p s = (s', .inl p') → op p' = op p

/-- An operation that has returned. -/
structure Call (ι ω : Type*) where
  /-- The operation. -/
  input : ι
  /-- Its result. -/
  result : ω
  /-- When it was invoked. -/
  invoked : ℕ
  /-- When it returned. -/
  returned : ℕ

/-- The object, and who works on it. -/
structure System (σ ι φ ω : Type*) where
  /-- The object. -/
  shared : σ
  /-- The operations in progress, each with the time it was invoked. -/
  pending : List (ℕ × φ) := []
  /-- Those that have returned, in the order of their returns. -/
  calls : List (Call ι ω) := []
  /-- Number of steps so far. -/
  clock : ℕ := 0

variable {M : Impl σ ι φ ω} {P Q : φ → σ → Prop} {spec : ι → τ → τ → ω → Prop} {abs : σ → τ}
  {s₀ : σ} {x : System σ ι φ ω}

/-- The runs from `s₀` whose steps are as `P` says. -/
inductive Reached (M : Impl σ ι φ ω) (P : φ → σ → Prop) (s₀ : σ) : System σ ι φ ω → Prop
  | start : Reached M P s₀ { shared := s₀ }
  /-- An operation is invoked. -/
  | invoke {x : System σ ι φ ω} (h : Reached M P s₀ x) (i : ι) : Reached M P s₀
      { x with pending := x.pending ++ [(x.clock, M.start i)], clock := x.clock + 1 }
  /-- An operation takes a step and goes on. -/
  | advance {x : System σ ι φ ω} (h : Reached M P s₀ x) {k t : ℕ} {p p' : φ} {s : σ}
      (hk : x.pending[k]? = some (t, p)) (hP : P p x.shared)
      (hlock : M.lock p x.shared = (s, .inl p')) : Reached M P s₀
      { x with shared := s, pending := x.pending.set k (t, p'), clock := x.clock + 1 }
  /-- An operation takes its last step. -/
  | finish {x : System σ ι φ ω} (h : Reached M P s₀ x) {k t : ℕ} {p : φ} {r : ω} {s : σ}
      (hk : x.pending[k]? = some (t, p)) (hP : P p x.shared)
      (hlock : M.lock p x.shared = (s, .inr r)) : Reached M P s₀
      { shared := s
        pending := x.pending.eraseIdx k
        calls := x.calls ++ [⟨M.op p, r, t, x.clock⟩]
        clock := x.clock + 1 }

theorem Reached.mono (hPQ : ∀ p s, P p s → Q p s) (h : Reached M P s₀ x) : Reached M Q s₀ x := by
  induction h with
  | start => exact .start
  | invoke _ i ih => exact ih.invoke i
  | advance _ hk hP hlock ih => exact ih.advance hk (hPQ _ _ hP) hlock
  | finish _ hk hP hlock ih => exact ih.finish hk (hPQ _ _ hP) hlock

/-! ### Sequential runs -/

/-- Operations one after the other, with these results. -/
def Sequential (spec : ι → τ → τ → ω → Prop) : τ → List (ι × ω) → τ → Prop
  | m, [], m' => m = m'
  | m, (i, r) :: l, m' => ∃ n, spec i m n r ∧ Sequential spec n l m'

theorem Sequential.concat {m n n' : τ} {l : List (ι × ω)} {i : ι} {r : ω}
    (h : Sequential spec m l n) (hspec : spec i n n' r) : Sequential spec m (l ++ [(i, r)]) n' := by
  induction l generalizing m with
  | nil =>
    cases h
    exact ⟨n', hspec, rfl⟩
  | cons e l ih =>
    obtain ⟨n₁, hfirst, hrest⟩ := h
    exact ⟨n₁, hfirst, ih hrest⟩

/-- The operations might have come one after the other: in some order in which none comes before one that
had returned when it was invoked. -/
def Linearizable (spec : ι → τ → τ → ω → Prop) (m₀ : τ) (calls : List (Call ι ω)) (m : τ) : Prop :=
  ∃ order : List (Call ι ω), order.Perm calls ∧
    order.Pairwise (fun a b => ¬ b.returned < a.invoked) ∧
    Sequential spec m₀ (order.map fun c => (c.input, c.result)) m

/-- A step takes effect as the operation that it completes, or not at all. -/
def TakesEffect (M : Impl σ ι φ ω) (spec : ι → τ → τ → ω → Prop) (abs : σ → τ) (p : φ) (s : σ) : Prop :=
  match M.lock p s with
  | (s', .inl _) => abs s' = abs s
  | (s', .inr r) => spec (M.op p) (abs s) (abs s') r

/-! ### Real time -/

/-- The times of a system are in the past. -/
theorem Reached.times (h : Reached M P s₀ x) :
    (∀ e ∈ x.pending, e.1 < x.clock) ∧ ∀ c ∈ x.calls, c.invoked < x.clock ∧ c.returned < x.clock := by
  induction h with
  | start => exact ⟨List.forall_mem_nil _, List.forall_mem_nil _⟩
  | @invoke x _ i ih =>
    refine ⟨fun e he => ?_, fun c hc => ?_⟩
    · obtain he | he := List.mem_append.1 he
      · have := ih.1 e he
        dsimp only
        omega
      · cases List.mem_singleton.1 he
        exact Nat.lt_succ_self _
    · have := ih.2 c hc
      dsimp only
      omega
  | @advance x _ k t p p' s hk hP hlock ih =>
    refine ⟨fun e he => ?_, fun c hc => ?_⟩
    · have htime : e.1 < x.clock := by
        obtain he | rfl := List.mem_or_eq_of_mem_set he
        · exact ih.1 e he
        · exact ih.1 (t, p) (List.mem_of_getElem? hk)
      exact Nat.lt_succ_of_lt htime
    · have := ih.2 c hc
      dsimp only
      omega
  | @finish x _ k t p r s hk hP hlock ih =>
    refine ⟨fun e he => Nat.lt_succ_of_lt (ih.1 e (List.mem_of_mem_eraseIdx he)), fun c hc => ?_⟩
    obtain hc | hc := List.mem_append.1 hc
    · have := ih.2 c hc
      dsimp only
      omega
    · cases List.mem_singleton.1 hc
      exact ⟨Nat.lt_succ_of_lt (ih.1 (t, p) (List.mem_of_getElem? hk)), Nat.lt_succ_self _⟩

/-- The order of the returns is one in which none comes before one that had returned when it was
invoked. -/
theorem Reached.pairwise (h : Reached M P s₀ x) :
    x.calls.Pairwise (fun a b => ¬ b.returned < a.invoked) := by
  induction h with
  | start => exact .nil
  | invoke _ i ih => exact ih
  | advance _ _ _ _ ih => exact ih
  | finish h hk hP hlock ih =>
    refine List.pairwise_append.2 ⟨ih, List.pairwise_singleton _ _, fun a ha b hb => ?_⟩
    cases List.mem_singleton.1 hb
    have := (h.times.2 a ha).1
    dsimp only
    omega

/-- **Operations that take effect at their last steps might have come one after the other.** -/
theorem Reached.linearizable (h : Reached M (TakesEffect M spec abs) s₀ x) :
    Linearizable spec (abs s₀) x.calls (abs x.shared) := by
  refine ⟨x.calls, .refl _, h.pairwise, ?_⟩
  induction h with
  | start => exact rfl
  | invoke _ i ih => exact ih
  | advance _ hk hP hlock ih =>
    unfold TakesEffect at hP
    rw [hlock] at hP
    dsimp only at hP ⊢
    rw [hP]
    exact ih
  | finish _ hk hP hlock ih =>
    unfold TakesEffect at hP
    rw [hlock] at hP
    rw [List.map_append]
    exact ih.concat hP

end Linearize
