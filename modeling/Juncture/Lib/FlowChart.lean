import Mathlib.Data.Nat.Notation
import Mathlib.Tactic.TypeStar

/-!
# Flow charts

A flow chart has a block at each of its places.  A block changes the store and says where control goes,
to another place or out of the chart; or it fails.

* `run` : what has come of a chart after so many blocks.
* `Verified.run` : Floyd's method.  What the blocks keep holds wherever control gets; assertions may
  count the blocks, so that they also bound how many there are.
-/

namespace FlowChart

/-- A block at each place. -/
abbrev Chart (ι S ε : Type*) := ι → S → Except ε (S × Option ι)

/-- What comes of a chart. -/
inductive Outcome (ι S ε : Type*)
  /-- Control has left the chart, after `blocks` blocks. -/
  | halted (blocks : ℕ) (s : S)
  /-- A block has failed, after `blocks` others. -/
  | failed (blocks : ℕ) (e : ε)
  /-- Control is at a place. -/
  | going (i : ι) (s : S)

variable {ι S ε : Type*} (c : Chart ι S ε)

/-- What has come of the chart after `n` blocks, from the place `i` on. -/
def run (i : ι) (s : S) : ℕ → Outcome ι S ε
  | 0 => .going i s
  | n + 1 =>
    match run i s n with
    | .going j t =>
      match c j t with
      | .ok (u, some k) => .going k u
      | .ok (u, none) => .halted (n + 1) u
      | .error e => .failed n e
    | r => r

/-- The outcome is one that the assertions allow, after `n` blocks. -/
def Outcome.Satisfies (A : ℕ → ι → S → Prop) (Q : ℕ → S → Prop) (E : ℕ → ε → Prop) (n : ℕ) :
    Outcome ι S ε → Prop
  | halted m t => m ≤ n ∧ Q m t
  | failed m e => m < n ∧ E m e
  | going i s => A n i s

/-- The blocks keep the assertions `A`, and lead to `Q` and `E`. -/
structure Verified (A : ℕ → ι → S → Prop) (Q : ℕ → S → Prop) (E : ℕ → ε → Prop) : Prop where
  /-- Where control stays in the chart. -/
  stays : ∀ n i s t j, A n i s → c i s = .ok (t, some j) → A (n + 1) j t
  /-- Where control leaves it. -/
  leaves : ∀ n i s t, A n i s → c i s = .ok (t, none) → Q (n + 1) t
  /-- Where a block fails. -/
  fails : ∀ n i s e, A n i s → c i s = .error e → E n e

variable {c} {i : ι} {s : S} {m n : ℕ}

/-- Control gets to a place from another one. -/
theorem exists_of_going {k : ι} {u : S} (h : run c i s (n + 1) = .going k u) :
    ∃ j t, run c i s n = .going j t ∧ c j t = .ok (u, some k) := by
  rw [run] at h
  cases hrun : run c i s n with
  | halted m t => rw [hrun] at h; cases h
  | failed m e => rw [hrun] at h; cases h
  | going j t =>
    rw [hrun] at h
    dsimp only at h
    refine ⟨j, t, rfl, ?_⟩
    rcases hblock : c j t with e | ⟨u', _ | k'⟩
    · rw [hblock] at h
      cases h
    · rw [hblock] at h
      cases h
    · rw [hblock] at h
      cases h
      rfl

/-- Control leaves the chart from a place. -/
theorem exists_of_halted {u : S} (h : run c i s n = .halted m u) :
    ∃ k j t, m = k + 1 ∧ k < n ∧ run c i s k = .going j t ∧ c j t = .ok (u, none) := by
  induction n with
  | zero => cases h
  | succ n ih =>
    rw [run] at h
    cases hrun : run c i s n with
    | halted m' t =>
      rw [hrun] at h
      obtain ⟨k, j, t, hm, hk, hgoing⟩ := ih (hrun.trans h)
      exact ⟨k, j, t, hm, Nat.lt_succ_of_lt hk, hgoing⟩
    | failed m' e => rw [hrun] at h; cases h
    | going j t =>
      rw [hrun] at h
      dsimp only at h
      rcases hblock : c j t with e | ⟨u', _ | k'⟩
      · rw [hblock] at h
        cases h
      · rw [hblock] at h
        cases h
        exact ⟨n, j, t, rfl, Nat.lt_succ_self n, hrun, hblock⟩
      · rw [hblock] at h
        cases h

/-- A block fails at a place. -/
theorem exists_of_failed {e : ε} (h : run c i s n = .failed m e) :
    m < n ∧ ∃ j t, run c i s m = .going j t ∧ c j t = .error e := by
  induction n with
  | zero => cases h
  | succ n ih =>
    rw [run] at h
    cases hrun : run c i s n with
    | halted m' t => rw [hrun] at h; cases h
    | failed m' e' =>
      rw [hrun] at h
      obtain ⟨hm, hgoing⟩ := ih (hrun.trans h)
      exact ⟨Nat.lt_succ_of_lt hm, hgoing⟩
    | going j t =>
      rw [hrun] at h
      dsimp only at h
      rcases hblock : c j t with e' | ⟨u', _ | k'⟩
      · rw [hblock] at h
        cases h
        exact ⟨Nat.lt_succ_self _, j, t, hrun, hblock⟩
      · rw [hblock] at h
        cases h
      · rw [hblock] at h
        cases h

/-- **Floyd's method**: what the blocks keep holds wherever control gets. -/
theorem Verified.run {A : ℕ → ι → S → Prop} {Q : ℕ → S → Prop} {E : ℕ → ε → Prop}
    (h : Verified c A Q E) (hstart : A 0 i s) : ∀ n, (run c i s n).Satisfies A Q E n := by
  intro n
  induction n with
  | zero => exact hstart
  | succ n ih =>
    rw [FlowChart.run]
    cases hrun : FlowChart.run c i s n with
    | halted m t =>
      rw [hrun] at ih
      exact ⟨Nat.le_succ_of_le ih.1, ih.2⟩
    | failed m e =>
      rw [hrun] at ih
      exact ⟨Nat.lt_succ_of_lt ih.1, ih.2⟩
    | going j t =>
      rw [hrun] at ih
      dsimp only
      rcases hblock : c j t with e | ⟨u, _ | k⟩
      · exact ⟨Nat.lt_succ_self n, h.fails n j t e ih hblock⟩
      · exact ⟨Nat.le_refl _, h.leaves n j t u ih hblock⟩
      · exact h.stays n j t u k ih hblock

end FlowChart
