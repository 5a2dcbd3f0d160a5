import Mathlib.Data.List.Basic

/-!
# Objects seen from outside

An object answers calls, `step : σ → ι → Option (σ × ω)`, until one of them breaks it.  Two objects are
alike if no list of calls tells them apart.

* `Alike.of_bisimulation` : a relation that calls preserve, answer by answer.
* `Alike.next`, `Alike.breaks` : what alike objects have in common.
-/

namespace Observe

variable {σ ι ω : Type*} {step : σ → ι → Option (σ × ω)} {s s' t : σ}

/-- The answers to a list of calls; `none` if a call breaks the object. -/
def answers (step : σ → ι → Option (σ × ω)) : σ → List ι → List (Option ω)
  | _, [] => []
  | s, i :: is =>
    match step s i with
    | none => [none]
    | some (t, o) => some o :: answers step t is

theorem answers_cons_none {i : ι} (h : step s i = none) (is : List ι) :
    answers step s (i :: is) = [none] := by
  simp only [answers, h]

theorem answers_cons_some {i : ι} {o : ω} (h : step s i = some (t, o)) (is : List ι) :
    answers step s (i :: is) = some o :: answers step t is := by
  simp only [answers, h]

/-- No list of calls tells the two objects apart. -/
def Alike (step : σ → ι → Option (σ × ω)) (s s' : σ) : Prop :=
  ∀ is, answers step s is = answers step s' is

theorem Alike.refl (s : σ) : Alike step s s := fun _ => rfl

/-- Two objects take a call alike: it breaks both, or both give one answer and are related again. -/
inductive Takes (R : σ → σ → Prop) : Option (σ × ω) → Option (σ × ω) → Prop where
  | breaks : Takes R none none
  | answer (o : ω) {t t' : σ} (h : R t t') : Takes R (some (t, o)) (some (t', o))

/-- Related objects are alike, if calls keep them related. -/
theorem Alike.of_bisimulation {R : σ → σ → Prop}
    (hstep : ∀ s s' i, R s s' → Takes R (step s i) (step s' i)) (h : R s s') :
    Alike step s s' := by
  intro is
  induction is generalizing s s' with
  | nil => rfl
  | cons i is ih =>
    have htakes := hstep s s' i h
    generalize hr : step s i = r at htakes
    generalize hr' : step s' i = r' at htakes
    cases htakes with
    | breaks => rw [answers_cons_none hr, answers_cons_none hr']
    | answer o hR => rw [answers_cons_some hr, answers_cons_some hr', ih hR]

/-- A call that one object answers, the other answers too, and they stay alike. -/
theorem Alike.next (h : Alike step s s') {i : ι} {o : ω} (hi : step s i = some (t, o)) :
    ∃ t', step s' i = some (t', o) ∧ Alike step t t' := by
  cases hi' : step s' i with
  | none =>
    have hone := h [i]
    rw [answers_cons_some hi, answers_cons_none hi'] at hone
    cases hone
  | some r =>
    obtain ⟨t', o'⟩ := r
    have hone := h [i]
    rw [answers_cons_some hi, answers_cons_some hi'] at hone
    obtain rfl : o = o' := by simpa [answers] using hone
    refine ⟨t', rfl, fun is => ?_⟩
    have hmore := h (i :: is)
    rw [answers_cons_some hi, answers_cons_some hi'] at hmore
    exact (List.cons.inj hmore).2

/-- A call that breaks one object breaks the other. -/
theorem Alike.breaks (h : Alike step s s') {i : ι} (hi : step s i = none) : step s' i = none := by
  cases hi' : step s' i with
  | none => rfl
  | some r =>
    have hone := h [i]
    rw [answers_cons_none hi, answers_cons_some hi'] at hone
    cases hone

end Observe
