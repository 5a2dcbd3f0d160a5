import Mathlib.Data.List.Basic
import Mathlib.Logic.Function.Iterate

/-!
# Machines driven by choices

A machine is a function `step : σ → ι → σ`; the choices `ι` are what the environment decides, such
as which of several tasks moves next.  A run is a fold over a list of choices, and `Reaches` says
that some run leads from one state to another with every choice allowed by `P`.

* `Reaches.invariant` : what every allowed step preserves, every run preserves.
* `reaches_foldl`, `reaches_iterate` : a loop whose body is made of steps is made of steps.

A *partial* machine may refuse a choice, which ends its run.  `trace step cs s n` is the state after
`n` steps of the run that makes the choices `cs 0, cs 1, …`.

* `trace_invariant` : step lemma to run lemma, for an invariant that may mention the step number.
* `trace_simulation` : the same for a relation between two machines.

Two machines may agree only as long as nothing special happens.  `Agrees Q f f'` says that `f'` does
what `f` does whenever `f` ends in `Q`, where `Q` is lost for good once it is lost; so it composes
like a simulation, but is used from the end of a run backwards.
-/

namespace Machine

variable {σ ι : Type*} {step : σ → ι → σ} {P : ι → Prop} {s t u : σ}

/-- Some run with choices in `P` leads from `s` to `t`. -/
def Reaches (step : σ → ι → σ) (P : ι → Prop) (s t : σ) : Prop :=
  ∃ cs : List ι, (∀ c ∈ cs, P c) ∧ cs.foldl step s = t

theorem Reaches.refl (s : σ) : Reaches step P s s := ⟨[], by simp, rfl⟩

theorem Reaches.trans (h : Reaches step P s t) (h' : Reaches step P t u) : Reaches step P s u := by
  obtain ⟨cs, hcs, rfl⟩ := h
  obtain ⟨ds, hds, rfl⟩ := h'
  refine ⟨cs ++ ds, fun c hc => ?_, List.foldl_append⟩
  rcases List.mem_append.1 hc with hc | hc
  exacts [hcs c hc, hds c hc]

theorem Reaches.single {c : ι} (hc : P c) : Reaches step P s (step s c) :=
  ⟨[c], by simpa using hc, rfl⟩

theorem Reaches.of_foldl {cs : List ι} (h : ∀ c ∈ cs, P c) : Reaches step P s (cs.foldl step s) :=
  ⟨cs, h, rfl⟩

theorem Reaches.mono {Q : ι → Prop} (hPQ : ∀ c, P c → Q c) (h : Reaches step P s t) :
    Reaches step Q s t := by
  obtain ⟨cs, hcs, rfl⟩ := h
  exact ⟨cs, fun c hc => hPQ c (hcs c hc), rfl⟩

/-- **Step lemma to run lemma.** -/
theorem Reaches.invariant {I : σ → Prop} (hstep : ∀ s c, P c → I s → I (step s c))
    (h : Reaches step P s t) (hs : I s) : I t := by
  obtain ⟨cs, hcs, rfl⟩ := h
  induction cs generalizing s with
  | nil => exact hs
  | cons c cs ih =>
    exact ih (hstep s c (hcs c List.mem_cons_self) hs) fun d hd => hcs d (List.mem_cons_of_mem c hd)

theorem reaches_foldl {α : Type*} {f : σ → α → σ} (hf : ∀ s a, Reaches step P s (f s a)) :
    ∀ (l : List α) (s : σ), Reaches step P s (l.foldl f s) := by
  intro l
  induction l with
  | nil => intro s; exact .refl s
  | cons a l ih => intro s; exact (hf s a).trans (ih (f s a))

theorem reaches_iterate {f : σ → σ} (hf : ∀ s, Reaches step P s (f s)) :
    ∀ (n : ℕ) (s : σ), Reaches step P s (f^[n] s) := by
  intro n
  induction n with
  | zero => intro s; exact .refl s
  | succ n ih => intro s; exact (hf s).trans (ih (f s))

/-! ### Machines that agree for a while -/

section Agreement

variable {α : Type*} {Q : σ → Prop} {f f' g g' : σ → σ}

/-- Where `f` ends in `Q` it starts in `Q`, and `f'` does the same. -/
def Agrees (Q : σ → Prop) (f f' : σ → σ) : Prop := ∀ s, Q (f s) → Q s ∧ f' s = f s

theorem Agrees.refl (h : ∀ s, Q (f s) → Q s) : Agrees Q f f := fun s hs => ⟨h s hs, rfl⟩

theorem Agrees.comp (hg : Agrees Q g g') (hf : Agrees Q f f') : Agrees Q (g ∘ f) (g' ∘ f') := by
  intro s hs
  obtain ⟨hs', hgs⟩ := hg (f s) hs
  obtain ⟨hs'', hfs⟩ := hf s hs'
  exact ⟨hs'', by rw [Function.comp, hfs]; exact hgs⟩

theorem Agrees.foldl {f f' : σ → α → σ} (h : ∀ a, Agrees Q (fun s => f s a) fun s => f' s a) :
    ∀ l : List α, Agrees Q (fun s => l.foldl f s) fun s => l.foldl f' s := by
  intro l
  induction l with
  | nil => exact .refl fun s hs => hs
  | cons a l ih => exact ih.comp (h a)

theorem Agrees.iterate (h : Agrees Q f f') : ∀ n, Agrees Q f^[n] f'^[n] := by
  intro n
  induction n with
  | zero => exact .refl fun s hs => hs
  | succ n ih => exact ih.comp h

end Agreement

/-! ### Partial machines -/

/-- The state of a partial machine after `n` steps, if it gets that far. -/
def trace (step : σ → ι → Option σ) (cs : ℕ → ι) (s : σ) : ℕ → Option σ
  | 0 => some s
  | n + 1 => (trace step cs s n).bind fun t => step t (cs n)

section Trace

variable {step : σ → ι → Option σ} {cs : ℕ → ι} {n m : ℕ}

@[simp] theorem trace_zero : trace step cs s 0 = some s := rfl

theorem trace_succ_eq_some_iff :
    trace step cs s (n + 1) = some u ↔ ∃ t, trace step cs s n = some t ∧ step t (cs n) = some u :=
  Option.bind_eq_some_iff

/-- A run that has ended stays ended. -/
theorem trace_eq_none_of_lt (h : trace step cs s n = some t) (ht : step t (cs n) = none)
    (hm : n < m) : trace step cs s m = none := by
  induction m with
  | zero => cases hm
  | succ m ih =>
    show (trace step cs s m).bind _ = none
    obtain hlt | rfl := Nat.lt_succ_iff_lt_or_eq.1 hm
    · rw [ih hlt]
      rfl
    · rw [h]
      exact ht

/-- A run that gets far has got less far before. -/
theorem exists_of_le (h : trace step cs s m = some t) (hn : n ≤ m) :
    ∃ u, trace step cs s n = some u := by
  induction m generalizing t with
  | zero =>
    obtain rfl : n = 0 := by omega
    exact ⟨t, h⟩
  | succ m ih =>
    obtain rfl | hlt := Nat.eq_or_lt_of_le hn
    · exact ⟨t, h⟩
    · obtain ⟨u, hu, -⟩ := trace_succ_eq_some_iff.1 h
      exact ih hu (by omega)

theorem trace_invariant {I : ℕ → σ → Prop} (h0 : I 0 s)
    (hstep : ∀ n t u, trace step cs s n = some t → I n t → step t (cs n) = some u → I (n + 1) u) :
    ∀ {n t}, trace step cs s n = some t → I n t := by
  intro n
  induction n with
  | zero =>
    intro t h
    cases h
    exact h0
  | succ n ih =>
    intro u h
    obtain ⟨t, ht, hu⟩ := trace_succ_eq_some_iff.1 h
    exact hstep n t u ht (ih ht) hu

/-- **Two machines in step**: what is preserved whenever both take a step relates their runs as far as
both get. -/
theorem trace_simulation {τ κ : Type*} {step' : τ → κ → Option τ} {cs' : ℕ → κ} {s' : τ}
    {R : ℕ → σ → τ → Prop} (h0 : R 0 s s')
    (hstep : ∀ n x y x' y', trace step cs s (n + 1) = some x' → trace step' cs' s' (n + 1) = some y' →
      R n x y → step x (cs n) = some x' → step' y (cs' n) = some y' → R (n + 1) x' y') :
    ∀ {n x y}, trace step cs s n = some x → trace step' cs' s' n = some y → R n x y := by
  intro n
  induction n with
  | zero =>
    intro x y hx hy
    cases hx
    cases hy
    exact h0
  | succ n ih =>
    intro x y hx hy
    obtain ⟨t, ht, htx⟩ := trace_succ_eq_some_iff.1 hx
    obtain ⟨u, hu, huy⟩ := trace_succ_eq_some_iff.1 hy
    exact hstep n t u x y hx hy (ih ht hu) htx huy

/-- The run goes on from each of its states. -/
theorem trace_add (h : trace step cs s n = some t) :
    ∀ m, trace step cs s (n + m) = trace step (fun i => cs (n + i)) t m := by
  intro m
  induction m with
  | zero => exact h
  | succ m ih =>
    show (trace step cs s (n + m)).bind _ = _
    rw [ih]
    rfl

end Trace

end Machine
