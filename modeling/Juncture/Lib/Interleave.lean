import Mathlib.Data.List.Basic

/-!
# Interleaved programs

Several parties work on a shared state.  A party is at rest, with a state of its own, or in the middle of a
program, which is made of atomic operations on the shared state; the operations of different parties
come in any order.

* `Prog.run` : a program that is run without a break.
* `Reached` : the states of the runs in which operations of different programs come in any order.
* `Whole` : the states of the runs in which every program is run without a break.
* `Reached.whole` : where no program is disturbed by another, nothing else is reached.
* `Whole.reached` : what is reached by whole programs is reached.
-/

namespace Interleave

/-! ### Programs -/

/-- A program: each operation writes the shared state, and how it goes on depends on what was there. -/
inductive Prog (σ α : Type) where
  | done (a : α)
  | op (write : σ → σ) (next : σ → Prog σ α)

namespace Prog

variable {σ α β : Type}

/-- A program that is run without a break. -/
def run : Prog σ α → σ → σ × α
  | .done a, s => (s, a)
  | .op write next, s => (next s).run (write s)

/-- One program after the other. -/
def bind : Prog σ α → (α → Prog σ β) → Prog σ β
  | .done a, f => f a
  | .op write next, f => .op write fun s => (next s).bind f

instance : Monad (Prog σ) where
  pure := .done
  bind := .bind

@[simp] theorem run_pure (a : α) (s : σ) : (pure a : Prog σ α).run s = (s, a) := rfl

@[simp] theorem run_bind (p : Prog σ α) (f : α → Prog σ β) (s : σ) :
    (p >>= f).run s = (f (p.run s).2).run (p.run s).1 := by
  induction p generalizing s with
  | done a => rfl
  | op write next ih => exact ih s (write s)

/-- Something is read. -/
def load (read : σ → α) : Prog σ α := .op id fun s => .done (read s)

/-- Something is written. -/
def store (write : σ → σ) : Prog σ Unit := .op write fun _ => .done ()

/-- Something is read and written at once. -/
def update (read : σ → α) (write : σ → σ) : Prog σ α := .op write fun s => .done (read s)

@[simp] theorem run_load (read : σ → α) (s : σ) : (load read).run s = (s, read s) := rfl

@[simp] theorem run_store (write : σ → σ) (s : σ) : (store write).run s = (write s, ()) := rfl

@[simp] theorem run_update (read : σ → α) (write : σ → σ) (s : σ) :
    (update read write).run s = (write s, read s) := rfl

/-- There is nothing left to do. -/
def AtRest : Prog σ α → Prop
  | .done _ => True
  | .op .. => False

end Prog

/-! ### Systems -/

section Systems

variable {σ l ι : Type} (act : l → ι → Prog σ (Option l)) (start : l)

/-- A shared state and the parties, each in the middle of a program that leads to its next state; a party
without a next state is gone. -/
structure System (σ l : Type) where
  /-- What is shared. -/
  shared : σ
  /-- The parties. -/
  parties : List (Prog σ (Option l))

/-- What happens next. -/
inductive Move (l ι : Type) where
  /-- A party joins. -/
  | join
  /-- A party at rest begins its next program, with some input. -/
  | begin (party : l) (input : ι)
  /-- A program goes on. -/
  | tick

/-- A move, and whether it disturbs no other party: an operation disturbs those that are not at rest. -/
inductive Step : Move l ι → Bool → System σ l → System σ l → Prop
  | join (s : System σ l) : Step .join true s { s with parties := s.parties ++ [.done (some start)] }
  | begin {shared : σ} {ps qs : List (Prog σ (Option l))} {party : l} {input : ι} {calm : Bool}
      (hcalm : calm → (act party input).AtRest ∨ ∀ p ∈ ps ++ qs, p.AtRest) :
      Step (.begin party input) calm { shared, parties := ps ++ .done (some party) :: qs }
        { shared, parties := ps ++ act party input :: qs }
  | tick {shared : σ} {ps qs : List (Prog σ (Option l))} {write : σ → σ}
      {next : σ → Prog σ (Option l)} {calm : Bool} (hcalm : calm → ∀ p ∈ ps ++ qs, p.AtRest) :
      Step .tick calm { shared, parties := ps ++ .op write next :: qs }
        { shared := write shared, parties := ps ++ next shared :: qs }

/-- The systems of the runs whose moves are as `P` says, from a shared state without parties. -/
inductive Reached (P : Move l ι → Bool → Prop) (init : σ) : System σ l → Prop
  | init : Reached P init { shared := init, parties := [] }
  | next {s t : System σ l} {m : Move l ι} {calm : Bool} (hs : Reached P init s) (hP : P m calm)
      (hstep : Step act start m calm s t) : Reached P init t

/-- The same, where every program is run without a break: the shared state, and the states of the
parties. -/
inductive Whole (Good : l → ι → Prop) (init : σ) : σ × List (Option l) → Prop
  | init : Whole Good init (init, [])
  | join {shared : σ} {ls : List (Option l)} (hs : Whole Good init (shared, ls)) :
      Whole Good init (shared, ls ++ [some start])
  | next {shared : σ} {ks ls : List (Option l)} {party : l} {input : ι}
      (hs : Whole Good init (shared, ks ++ some party :: ls)) (hgood : Good party input) :
      Whole Good init (((act party input).run shared).1, ks ++ ((act party input).run shared).2 :: ls)

/-- The moves that disturb no party, and are good. -/
def Calm (Good : l → ι → Prop) (m : Move l ι) (calm : Bool) : Prop :=
  calm ∧ ∀ party input, m = .begin party input → Good party input

/-- All programs are run to their end. -/
def complete : List (Prog σ (Option l)) → σ → σ × List (Option l)
  | [], s => (s, [])
  | p :: ps, s => ((complete ps (p.run s).1).1, (p.run s).2 :: (complete ps (p.run s).1).2)

variable {act start} {Good : l → ι → Prop} {init : σ}

theorem complete_append (ps qs : List (Prog σ (Option l))) (s : σ) :
    complete (ps ++ qs) s =
      ((complete qs (complete ps s).1).1, (complete ps s).2 ++ (complete qs (complete ps s).1).2) := by
  induction ps generalizing s with
  | nil => rfl
  | cons p ps ih => simp [complete, ih]

/-- Parties at rest do nothing. -/
theorem complete_of_atRest {ps : List (Prog σ (Option l))} (h : ∀ p ∈ ps, p.AtRest) :
    ∃ ls : List (Option l), ps = ls.map .done ∧ ∀ s, complete ps s = (s, ls) := by
  induction ps with
  | nil => exact ⟨[], rfl, fun _ => rfl⟩
  | cons p ps ih =>
    obtain ⟨ls, rfl, hls⟩ := ih fun q hq => h q (List.mem_cons_of_mem _ hq)
    cases p with
    | done a => exact ⟨a :: ls, rfl, fun s => by simp [complete, Prog.run, hls]⟩
    | op write next => exact (h _ List.mem_cons_self).elim

theorem Reached.mono {P Q : Move l ι → Bool → Prop} (hPQ : ∀ m calm, P m calm → Q m calm)
    {s : System σ l} (h : Reached act start P init s) : Reached act start Q init s := by
  induction h with
  | init => exact .init
  | next _ hP hstep ih => exact ih.next (hPQ _ _ hP) hstep

/-- **Where no program is disturbed, nothing else is reached** than by whole programs, once those in the
middle of one are through. -/
theorem Reached.whole {s : System σ l} (h : Reached act start (Calm Good) init s) :
    Whole act start Good init (complete s.parties s.shared) := by
  induction h with
  | init => exact .init
  | next _ hcalm hstep ih =>
    cases hstep with
    | join s =>
      rw [complete_append]
      exact ih.join
    | @begin shared ps qs party input _ hrest =>
      have hgood := hcalm.2 party input rfl
      obtain hdone | hrest := hrest hcalm.1
      · -- what a party does by itself is the same at any time
        cases hact : act party input with
        | op write next => exact (hact ▸ hdone).elim
        | done a =>
          simp only [complete_append, complete, Prog.run] at ih ⊢
          have hnext := ih.next hgood
          rw [hact] at hnext
          exact hnext
      · obtain ⟨ks, -, hks⟩ := complete_of_atRest fun p hp => hrest p (List.mem_append_left _ hp)
        obtain ⟨ls, -, hls⟩ := complete_of_atRest fun p hp => hrest p (List.mem_append_right _ hp)
        simp only [complete_append, complete, Prog.run, hks, hls] at ih ⊢
        exact ih.next hgood
    | @tick shared ps qs write next _ hrest =>
      obtain ⟨ks, -, hks⟩ := complete_of_atRest fun p hp => hrest hcalm.1 p (List.mem_append_left _ hp)
      simpa only [complete_append, complete, Prog.run, hks] using ih

/-- A program is run to its end, while the others are at rest. -/
theorem Reached.run {ps qs : List (Prog σ (Option l))} (hrest : ∀ p ∈ ps ++ qs, p.AtRest)
    (p : Prog σ (Option l)) {shared : σ}
    (h : Reached act start (Calm Good) init { shared, parties := ps ++ p :: qs }) :
    Reached act start (Calm Good) init
      { shared := (p.run shared).1, parties := ps ++ .done (p.run shared).2 :: qs } := by
  induction p generalizing shared with
  | done a => exact h
  | op write next ih =>
    have hcalm : Calm Good (.tick : Move l ι) true := ⟨rfl, fun _ _ h => by cases h⟩
    exact ih shared (h.next hcalm (.tick fun _ => hrest))

theorem atRest_map_done (ls : List (Option l)) :
    ∀ p ∈ ls.map (Prog.done : Option l → Prog σ (Option l)), p.AtRest := by
  intro p hp
  obtain ⟨a, -, rfl⟩ := List.mem_map.mp hp
  trivial

/-- What is reached by whole programs is reached. -/
theorem Whole.reached {s : σ × List (Option l)} (h : Whole act start Good init s) :
    Reached act start (Calm Good) init { shared := s.1, parties := s.2.map .done } := by
  induction h with
  | init => exact .init
  | @join shared ls _ ih =>
    have hcalm : Calm Good (.join : Move l ι) true := ⟨rfl, fun _ _ h => by cases h⟩
    rw [List.map_append]
    exact ih.next hcalm (.join _)
  | @next shared ks ls party input _ hgood ih =>
    have hrest : ∀ p ∈ ks.map (Prog.done : Option l → Prog σ (Option l)) ++ ls.map .done, p.AtRest := by
      rw [← List.map_append]
      exact atRest_map_done _
    have hcalm : Calm Good (.begin party input) true :=
      ⟨rfl, fun _ _ h => by cases h; exact hgood⟩
    rw [List.map_append, List.map_cons] at ih ⊢
    exact (ih.next hcalm (.begin fun _ => .inr hrest)).run hrest _

/-- **Step lemma to run lemma**, for whole programs. -/
theorem Whole.invariant {I : σ × List (Option l) → Prop} (hinit : I (init, []))
    (hjoin : ∀ shared ls, I (shared, ls) → I (shared, ls ++ [some start]))
    (hnext : ∀ shared ks party input ls, Good party input → I (shared, ks ++ some party :: ls) →
      I (((act party input).run shared).1, ks ++ ((act party input).run shared).2 :: ls))
    {s : σ × List (Option l)} (h : Whole act start Good init s) : I s := by
  induction h with
  | init => exact hinit
  | join _ ih => exact hjoin _ _ ih
  | next _ hgood ih => exact hnext _ _ _ _ _ hgood ih

end Systems

end Interleave
