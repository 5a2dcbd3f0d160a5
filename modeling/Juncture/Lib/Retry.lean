import Mathlib.Order.Basic

/-!
# Attempts

Something is tried until it goes well, until it fails in a way that another attempt does not mend, or until
no attempt is left.  Before each further attempt there is a pause; what is done in it may depend on the
failure and on the pauses before, and may itself break down.

* `Retry.run` : the attempts, with what their pauses do.
* `Retry.Exact` : as many attempts as there should be, and the outcome of the last one.
* `Retry.exact_run_iff` : a run is exact if and only if no pause on its way breaks down.
-/

namespace Retry

variable {ε α σ π : Type*}

/-- How failures are met. -/
structure Plan (ε σ π : Type*) where
  /-- Another attempt may mend the failure. -/
  again : ε → Bool
  /-- The pause after an attempt with this number: what is done, and how it goes on, unless it breaks
  down. -/
  pause : ℕ → σ → ε → List π × Option σ

/-- What has been done. -/
@[ext] structure Run (ε α π : Type*) where
  /-- Attempts. -/
  calls : ℕ
  /-- What the pauses have done. -/
  pauses : List π
  /-- What is returned, unless a pause has broken down. -/
  result : Option (Except ε α)

/-- One attempt and a pause before a run. -/
def Run.after (r : Run ε α π) (done : List π) : Run ε α π :=
  { r with calls := r.calls + 1, pauses := done ++ r.pauses }

variable (plan : Plan ε σ π) (outcomes : ℕ → Except ε α)

/-- Attempt number `n`, and up to `more` further ones. -/
def run : ℕ → ℕ → σ → Run ε α π
  | 0, n, _ => ⟨1, [], some (outcomes n)⟩
  | more + 1, n, s =>
    match outcomes n with
    | .ok a => ⟨1, [], some (.ok a)⟩
    | .error e =>
      if plan.again e then
        match plan.pause n s e with
        | (done, none) => ⟨1, done, none⟩
        | (done, some s) => (run more (n + 1) s).after done
      else ⟨1, [], some (.error e)⟩

/-- From number `n` on, this many attempts fail in a way that another one may mend. -/
def Mendable (n k : ℕ) : Prop := ∀ i < k, ∃ e, outcomes (n + i) = .error e ∧ plan.again e = true

/-- No further attempt comes after this outcome. -/
def Final (outcome : Except ε α) : Prop := ∀ e, outcome = .error e → plan.again e = false

/-- The run makes some attempts, all but the last of which fail in a way that another one may mend, and
returns the last outcome, which is final or that of the last attempt there is. -/
def Exact (more n : ℕ) (r : Run ε α π) : Prop :=
  ∃ k ≤ more, r.calls = k + 1 ∧ Mendable plan outcomes n k ∧ r.result = some (outcomes (n + k)) ∧
    (k = more ∨ Final plan (outcomes (n + k)))

/-- No pause breaks down on the way. -/
def Sound : ℕ → ℕ → σ → Prop
  | 0, _, _ => True
  | more + 1, n, s => ∀ e, outcomes n = .error e → plan.again e = true →
    ∃ done s', plan.pause n s e = (done, some s') ∧ Sound more (n + 1) s'

variable {plan outcomes} {more n k : ℕ} {s : σ}

theorem mendable_zero : Mendable plan outcomes n 0 := fun _ hi => absurd hi (Nat.not_lt_zero _)

theorem mendable_succ : Mendable plan outcomes n (k + 1) ↔
    (∃ e, outcomes n = .error e ∧ plan.again e = true) ∧ Mendable plan outcomes (n + 1) k := by
  constructor
  · intro h
    refine ⟨h 0 k.succ_pos, fun i hi => ?_⟩
    rw [Nat.add_right_comm]
    exact h (i + 1) (Nat.succ_lt_succ hi)
  · rintro ⟨hfirst, hrest⟩ i hi
    cases i with
    | zero => exact hfirst
    | succ i =>
      rw [← Nat.add_assoc, Nat.add_right_comm]
      exact hrest i (Nat.lt_of_succ_lt_succ hi)

/-! ### The first attempt -/

variable (plan) in
theorem final_or (outcome : Except ε α) :
    Final plan outcome ∨ ∃ e, outcome = .error e ∧ plan.again e = true := by
  by_cases h : Final plan outcome
  · exact .inl h
  · simp only [Final, not_forall, Bool.not_eq_false] at h
    obtain ⟨e, he, hagain⟩ := h
    exact .inr ⟨e, he, hagain⟩

theorem run_of_final (h : Final plan (outcomes n)) :
    run plan outcomes more n s = ⟨1, [], some (outcomes n)⟩ := by
  cases more with
  | zero => rfl
  | succ more =>
    rw [run]
    split
    · rename_i a ha
      rw [ha]
    · rename_i e he
      rw [h e he, he]
      rfl

section Again

variable {e : ε} (he : outcomes n = .error e) (hagain : plan.again e = true)
include he hagain

theorem run_of_broken {done : List π} (hpause : plan.pause n s e = (done, none)) :
    run plan outcomes (more + 1) n s = ⟨1, done, none⟩ := by
  simp only [run, he, hagain, hpause, if_true]

theorem run_of_pause {done : List π} {s' : σ} (hpause : plan.pause n s e = (done, some s')) :
    run plan outcomes (more + 1) n s = (run plan outcomes more (n + 1) s').after done := by
  simp only [run, he, hagain, hpause, if_true]

theorem sound_succ : Sound plan outcomes (more + 1) n s ↔
    ∃ done s', plan.pause n s e = (done, some s') ∧ Sound plan outcomes more (n + 1) s' := by
  constructor
  · intro h
    exact h e he hagain
  · intro h e' he' _
    rw [he] at he'
    cases he'
    exact h

/-- A failure that another attempt may mend is followed by an exact run. -/
theorem exact_after_iff {r : Run ε α π} (hr : 0 < r.calls) {done : List π} :
    Exact plan outcomes (more + 1) n (r.after done) ↔ Exact plan outcomes more (n + 1) r := by
  constructor
  · rintro ⟨k, hk, hcalls, hmend, hresult, hend⟩
    cases k with
    | zero =>
      simp only [Run.after] at hcalls
      omega
    | succ k =>
      refine ⟨k, Nat.le_of_succ_le_succ hk, Nat.succ.inj hcalls, (mendable_succ.1 hmend).2, ?_, ?_⟩
      · rw [Nat.add_right_comm]
        exact hresult
      · rw [Nat.add_right_comm]
        exact hend.imp Nat.succ.inj id
  · rintro ⟨k, hk, hcalls, hmend, hresult, hend⟩
    rw [Nat.add_right_comm] at hresult hend
    exact ⟨k + 1, Nat.succ_le_succ hk, congrArg Nat.succ hcalls,
      mendable_succ.2 ⟨⟨e, he, hagain⟩, hmend⟩, hresult, hend.imp (congrArg Nat.succ) id⟩

end Again

theorem sound_of_final (h : Final plan (outcomes n)) : Sound plan outcomes more n s := by
  cases more with
  | zero => trivial
  | succ more =>
    intro e he hagain
    rw [h e he] at hagain
    cases hagain

/-- A run that ends with its first attempt. -/
theorem exact_one (h : more = 0 ∨ Final plan (outcomes n)) :
    Exact plan outcomes more n (⟨1, [], some (outcomes n)⟩ : Run ε α π) :=
  ⟨0, Nat.zero_le _, rfl, mendable_zero, rfl, h.imp Eq.symm id⟩

/-! ### All of them -/

theorem calls_pos (more n : ℕ) (s : σ) : 0 < (run plan outcomes more n s).calls := by
  cases more with
  | zero => exact Nat.one_pos
  | succ more =>
    obtain hfinal | ⟨e, he, hagain⟩ := final_or plan (outcomes n)
    · rw [run_of_final hfinal]
      exact Nat.one_pos
    · rcases hpause : plan.pause n s e with ⟨done, _ | s'⟩
      · rw [run_of_broken he hagain hpause]
        exact Nat.one_pos
      · rw [run_of_pause he hagain hpause]
        exact Nat.succ_pos _

/-- **Attempts.**  A run makes the attempts it should and returns the last outcome, if and only if no pause
on its way breaks down. -/
theorem exact_run_iff (more n : ℕ) (s : σ) : Exact plan outcomes more n (run plan outcomes more n s) ↔
    Sound plan outcomes more n s := by
  induction more generalizing n s with
  | zero => exact iff_of_true (exact_one (.inl rfl)) trivial
  | succ more ih =>
    obtain hfinal | ⟨e, he, hagain⟩ := final_or plan (outcomes n)
    · rw [run_of_final hfinal]
      exact iff_of_true (exact_one (.inr hfinal)) (sound_of_final hfinal)
    · rw [sound_succ he hagain]
      rcases hpause : plan.pause n s e with ⟨done, _ | s'⟩
      · -- nothing is returned
        rw [run_of_broken he hagain hpause]
        refine iff_of_false ?_ ?_
        · rintro ⟨k, -, -, -, hresult, -⟩
          cases hresult
        · rintro ⟨done', s', hpause', -⟩
          cases hpause'
      · rw [run_of_pause he hagain hpause, exact_after_iff he hagain (calls_pos _ _ _), ih]
        constructor
        · intro h
          exact ⟨done, s', rfl, h⟩
        · rintro ⟨done', s'', hpause', h⟩
          cases hpause'
          exact h

end Retry
