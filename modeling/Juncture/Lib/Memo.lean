import Juncture.Lib.Machine
import Mathlib.Data.Set.Basic

/-!
# Remembered answers

Somebody asks questions, and an answer that has been worked out is kept in some places under which the
same question may be asked again.  A question looks through its places one after the other, and is worked
out when none of them has an answer it understands; an answer that is too old is taken away, in a step of
its own.  Any number of questions are on their way at a time and take turns in any order, and the places
may also lose what they hold.

* `Memo.World.step` : the questions and the places.
* `Memo.Coherent` : an answer under a place is one that each question with this place could have got.
* `Memo.faithful_iff` : every answer is one that the question could have got by being worked out, in every
  order of turns, if and only if the places are coherent.
* `Memo.late_of_settled` : where nothing is lost, a question is worked out no more once its answer is kept.
-/

namespace Memo

open Machine

variable {ι κ γ V ε σ : Type*} {α : ι → Type*}

/-- Where answers are kept, and as what. -/
structure Form (ι κ γ V : Type*) (α : ι → Type*) where
  /-- The places of a question, which depend on where it is asked. -/
  places : ι → γ → List κ
  /-- What is kept of an answer. -/
  encode : (i : ι) → α i → Option V
  /-- What a question makes of what it finds. -/
  decode : (i : ι) → V → Option (α i)

/-- Shelves: what is put into a place stays there until it is dropped, replaced or lost. -/
structure Shelves (κ V σ : Type*) where
  /-- Nothing is there. -/
  empty : σ
  /-- What is in a place, and since when. -/
  look : σ → κ → Option (V × ℕ)
  /-- Something is put into a place. -/
  put : σ → ℕ → κ → V → σ
  /-- A place is emptied. -/
  drop : σ → κ → σ
  /-- What was put into the place is too old now. -/
  expired : κ → ℕ → ℕ → Bool
  look_empty : ∀ x, look empty x = none
  look_put : ∀ s t x v, look (put s t x v) x = some (v, t)
  look_put_of_ne : ∀ s t x v y, y ≠ x → look (put s t x v) y = none ∨ look (put s t x v) y = look s y
  look_drop : ∀ s x y, look (drop s x) y = none ∨ look (drop s x) y = look s y
  expired_self : ∀ x t, expired x t t = false

/-- How far a question has got. -/
inductive Stage (κ ε β : Type*) where
  /-- These places are left to look into. -/
  | asking (left : List κ)
  /-- What was found in the place was too old. -/
  | dropping (x : κ) (left : List κ)
  /-- It is being worked out. -/
  | running
  /-- The answer is to be kept in these places. -/
  | keeping (a : β) (left : List κ)
  /-- It is answered. -/
  | returned (r : Except ε β)

/-- A question on its way. -/
structure Call (κ ε : Type*) (α : ι → Type*) where
  /-- What is asked. -/
  question : ι
  /-- How far it has got. -/
  stage : Stage κ ε (α question)

/-- The shelves and the questions. -/
structure World (σ κ ε : Type*) (α : ι → Type*) where
  /-- The shelves. -/
  store : σ
  /-- The questions, in the order they were asked in. -/
  calls : List (Call κ ε α) := []

/-- What happens. -/
inductive Event (κ γ V ε : Type*) (α : ι → Type*) where
  /-- A question is asked. -/
  | ask (i : ι) (scope : γ)
  /-- The question with this number takes its turn. -/
  | move (n now : ℕ)
  /-- The question with this number is worked out, if `body` has an end for it. -/
  | finish (n : ℕ) (body : (i : ι) → Option (Except ε (α i))) (scope : γ)
  /-- Somebody else puts something into a place. -/
  | other (x : κ) (v : V) (now : ℕ)

variable (form : Form ι κ γ V α) (shelves : Shelves κ V σ)

/-- A turn of a question. -/
def Stage.move (i : ι) (now : ℕ) (s : σ) : Stage κ ε (α i) → σ × Stage κ ε (α i)
  | .asking [] => (s, .running)
  | .asking (x :: left) =>
    match shelves.look s x with
    | none => (s, .asking left)
    | some (v, stamp) =>
      if shelves.expired x now stamp then (s, .dropping x left)
      else
        match form.decode i v with
        | none => (s, .asking left)
        | some a => (s, .returned (.ok a))
  | .dropping x left => (shelves.drop s x, .asking left)
  | .running => (s, .running)
  | .keeping a [] => (s, .returned (.ok a))
  | .keeping a (x :: left) =>
    match form.encode i a with
    | none => (s, .keeping a left)
    | some v => (shelves.put s now x v, .keeping a left)
  | .returned r => (s, .returned r)

/-- What comes of the work. -/
def Stage.ended (form : Form ι κ γ V α) (scope : γ) (i : ι) :
    Option (Except ε (α i)) → Stage κ ε (α i) → Stage κ ε (α i)
  | some (.ok a), .running => .keeping a (form.places i scope)
  | some (.error e), .running => .returned (.error e)
  | _, stage => stage

/-- The world after an event; one that cannot happen changes nothing. -/
def World.step (w : World σ κ ε α) : Event κ γ V ε α → World σ κ ε α
  | .ask i scope => { w with calls := w.calls ++ [⟨i, .asking (form.places i scope)⟩] }
  | .move n now =>
    match w.calls[n]? with
    | none => w
    | some c =>
      { store := (c.stage.move form shelves c.question now w.store).1
        calls := w.calls.set n ⟨c.question, (c.stage.move form shelves c.question now w.store).2⟩ }
  | .finish n body scope =>
    match w.calls[n]? with
    | none => w
    | some c => { w with
        calls := w.calls.set n ⟨c.question, c.stage.ended form scope c.question (body c.question)⟩ }
  | .other x v now => { w with store := shelves.put w.store now x v }

/-! ### Faithful answers -/

/-- The place is one of the question's. -/
def Uses (i : ι) (x : κ) : Prop := ∃ scope, x ∈ form.places i scope

/-- Working out comes to one of the possible ends, and others keep to other places. -/
def Event.Allowed (possible : (i : ι) → Set (Except ε (α i))) : Event κ γ V ε α → Prop
  | .ask _ _ | .move _ _ => True
  | .finish _ body _ => ∀ i r, body i = some r → r ∈ possible i
  | .other x _ _ => ∀ i, ¬ Uses form i x

/-- What a question is answered with is what working it out can come to. -/
def World.Faithful (possible : (i : ι) → Set (Except ε (α i))) (w : World σ κ ε α) : Prop :=
  ∀ c ∈ w.calls, ∀ r, c.stage = .returned r → r ∈ possible c.question

/-- What one question leaves in a place is understood, by another one that looks there, as an answer that
it could have got itself. -/
def Coherent (possible : (i : ι) → Set (Except ε (α i))) : Prop :=
  ∀ i j x, Uses form i x → Uses form j x → ∀ a, .ok a ∈ possible i →
    ∀ v, form.encode i a = some v → ∀ b, form.decode j v = some b → .ok b ∈ possible j

/-- The places of a question do not push each other out. -/
def Apart : Prop :=
  ∀ i scope, ∀ x ∈ form.places i scope, ∀ y ∈ form.places i scope, x ≠ y →
    ∀ s t v, shelves.look (shelves.put s t y v) x = shelves.look s x

/-- From one world to another, in some order of turns. -/
abbrev Runs (possible : (i : ι) → Set (Except ε (α i))) (w w' : World σ κ ε α) : Prop :=
  Reaches (World.step form shelves) (Event.Allowed form possible) w w'

variable {form shelves} {possible : (i : ι) → Set (Except ε (α i))} {w w' : World σ κ ε α} {i j : ι}
  {x y : κ} {s s' : σ} {now n : ℕ} {v : V}

/-- An answer that was kept. -/
def Kept (form : Form ι κ γ V α) (possible : (i : ι) → Set (Except ε (α i))) (x : κ) (v : V) : Prop :=
  ∃ i, Uses form i x ∧ ∃ a, .ok a ∈ possible i ∧ form.encode i a = some v

/-- In the places of questions there are only answers that were kept. -/
def Holds (form : Form ι κ γ V α) (shelves : Shelves κ V σ)
    (possible : (i : ι) → Set (Except ε (α i))) (s : σ) : Prop :=
  ∀ j x, Uses form j x → ∀ v t, shelves.look s x = some (v, t) → Kept form possible x v

/-- The question looks into its own places, keeps what it has got, and is answered as it should be. -/
def Stage.Sound (form : Form ι κ γ V α) (possible : (i : ι) → Set (Except ε (α i))) (i : ι) :
    Stage κ ε (α i) → Prop
  | .asking left | .dropping _ left => ∀ x ∈ left, Uses form i x
  | .running => True
  | .keeping a left => .ok a ∈ possible i ∧ ∀ x ∈ left, Uses form i x
  | .returned r => r ∈ possible i

/-- What holds all the time. -/
structure World.Sound (form : Form ι κ γ V α) (shelves : Shelves κ V σ)
    (possible : (i : ι) → Set (Except ε (α i))) (w : World σ κ ε α) : Prop where
  /-- Of the places. -/
  store : Holds form shelves possible w.store
  /-- Of the questions. -/
  calls : ∀ c ∈ w.calls, c.stage.Sound form possible c.question

theorem Holds.drop (h : Holds form shelves possible s) (x : κ) :
    Holds form shelves possible (shelves.drop s x) := by
  intro j y hy v t hlook
  obtain hnone | hsame := shelves.look_drop s x y
  · rw [hnone] at hlook
    cases hlook
  · rw [hsame] at hlook
    exact h j y hy v t hlook

theorem Holds.put (h : Holds form shelves possible s)
    (hput : ∀ j, Uses form j x → Kept form possible x v) :
    Holds form shelves possible (shelves.put s now x v) := by
  intro j y hy v' t hlook
  by_cases hyx : y = x
  · subst hyx
    rw [shelves.look_put, Option.some.injEq, Prod.mk.injEq] at hlook
    rw [← hlook.1]
    exact hput j hy
  · obtain hnone | hsame := shelves.look_put_of_ne s now x v y hyx
    · rw [hnone] at hlook
      cases hlook
    · rw [hsame] at hlook
      exact h j y hy v' t hlook

/-- **A turn keeps all this.** -/
theorem Stage.Sound.move (hcoherent : Coherent form possible) (hs : Holds form shelves possible s)
    (now : ℕ) {stage : Stage κ ε (α i)} (h : stage.Sound form possible i) :
    Holds form shelves possible (stage.move form shelves i now s).1 ∧
      (stage.move form shelves i now s).2.Sound form possible i := by
  cases stage with
  | asking left =>
    cases left with
    | nil => exact ⟨hs, trivial⟩
    | cons x left =>
      have hleft : ∀ y ∈ left, Uses form i y := fun y hy => h y (List.mem_cons_of_mem x hy)
      have hx : Uses form i x := h x List.mem_cons_self
      simp only [Stage.move]
      cases hlook : shelves.look s x with
      | none => exact ⟨hs, hleft⟩
      | some p =>
        dsimp only
        split_ifs with hexpired
        · exact ⟨hs, hleft⟩
        · cases hdecode : form.decode i p.1 with
          | none => exact ⟨hs, hleft⟩
          | some b =>
            obtain ⟨k, hk, a, ha, hencode⟩ := hs i x hx p.1 p.2 hlook
            exact ⟨hs, hcoherent k i x hk hx a ha p.1 hencode b hdecode⟩
  | dropping x left => exact ⟨hs.drop x, h⟩
  | running => exact ⟨hs, h⟩
  | keeping a left =>
    cases left with
    | nil => exact ⟨hs, h.1⟩
    | cons x left =>
      have hleft : ∀ y ∈ left, Uses form i y := fun y hy => h.2 y (List.mem_cons_of_mem x hy)
      simp only [Stage.move]
      cases hencode : form.encode i a with
      | none => exact ⟨hs, h.1, hleft⟩
      | some v =>
        exact ⟨hs.put fun _ _ => ⟨i, h.2 x List.mem_cons_self, a, h.1, hencode⟩, h.1, hleft⟩
  | returned r => exact ⟨hs, h⟩

/-- Only a question that is being worked out comes to an end. -/
theorem Stage.ended_cases (form : Form ι κ γ V α) (scope : γ) (body : Option (Except ε (α i))) (stage : Stage κ ε (α i)) :
    stage.ended form scope i body = stage ∨
      (stage = .running ∧ ∃ a, body = some (.ok a) ∧
        stage.ended form scope i body = .keeping a (form.places i scope)) ∨
      (stage = .running ∧ ∃ e, body = some (.error e) ∧
        stage.ended form scope i body = .returned (.error e)) := by
  cases stage with
  | running =>
    obtain _ | e | a := body
    · exact .inl rfl
    · exact .inr (.inr ⟨rfl, e, rfl, rfl⟩)
    · exact .inr (.inl ⟨rfl, a, rfl, rfl⟩)
  | asking left => obtain _ | e | a := body <;> exact .inl rfl
  | dropping x left => obtain _ | e | a := body <;> exact .inl rfl
  | keeping a left => obtain _ | e | a := body <;> exact .inl rfl
  | returned r => obtain _ | e | a := body <;> exact .inl rfl

theorem Stage.Sound.ended {body : Option (Except ε (α i))} (hbody : ∀ r, body = some r → r ∈ possible i)
    (scope : γ) {stage : Stage κ ε (α i)} (h : stage.Sound form possible i) :
    (stage.ended form scope i body).Sound form possible i := by
  obtain hsame | ⟨-, a, ha, hended⟩ | ⟨-, e, he, hended⟩ := Stage.ended_cases form scope body stage
  · rwa [hsame]
  · rw [hended]
    exact ⟨hbody _ ha, fun x hx => ⟨scope, hx⟩⟩
  · rw [hended]
    exact hbody _ he

theorem World.Sound.step (hcoherent : Coherent form possible) (h : w.Sound form shelves possible)
    {e : Event κ γ V ε α} (he : e.Allowed form possible) :
    (w.step form shelves e).Sound form shelves possible := by
  cases e with
  | ask i scope =>
    refine ⟨h.store, fun c hc => ?_⟩
    obtain hc | hc := List.mem_append.1 hc
    · exact h.calls c hc
    · obtain rfl := List.mem_singleton.1 hc
      exact fun x hx => ⟨scope, hx⟩
  | move n now =>
    simp only [World.step]
    cases hn : w.calls[n]? with
    | none => exact h
    | some c =>
      have hmove := (h.calls c (List.mem_of_getElem? hn)).move hcoherent h.store now
      refine ⟨hmove.1, fun c' hc' => ?_⟩
      obtain hc' | rfl := List.mem_or_eq_of_mem_set hc'
      · exact h.calls c' hc'
      · exact hmove.2
  | finish n body scope =>
    simp only [World.step]
    cases hn : w.calls[n]? with
    | none => exact h
    | some c =>
      have hend := (h.calls c (List.mem_of_getElem? hn)).ended (he c.question) scope
      refine ⟨h.store, fun c' hc' => ?_⟩
      obtain hc' | rfl := List.mem_or_eq_of_mem_set hc'
      · exact h.calls c' hc'
      · exact hend
  | other x v now => exact ⟨h.store.put fun j hj => absurd hj (he j), h.calls⟩

theorem World.Sound.faithful (h : w.Sound form shelves possible) : w.Faithful possible := by
  intro c hc r hr
  have hstage := h.calls c hc
  rw [hr] at hstage
  exact hstage

/-! ### One question after another -/

/-- The same is put into some places. -/
def Shelves.putAll (shelves : Shelves κ V σ) (v : V) (left : List κ) (s : σ) : σ :=
  left.foldl (fun s x => shelves.put s 0 x v) s

theorem look_putAll_of_notMem {left : List κ} (hx : x ∉ left) (h : shelves.look s x = none) :
    shelves.look (shelves.putAll v left s) x = none := by
  induction left generalizing s with
  | nil => exact h
  | cons y left ih =>
    rw [List.mem_cons, not_or] at hx
    refine ih hx.2 ?_
    obtain hnone | hsame := shelves.look_put_of_ne s 0 y v x hx.1
    · exact hnone
    · rw [hsame, h]

theorem look_putAll_of_apart {left : List κ}
    (h : ∀ y ∈ left, x ≠ y → ∀ s t v, shelves.look (shelves.put s t y v) x = shelves.look s x)
    (hs : x ∈ left ∨ shelves.look s x = some (v, 0)) :
    shelves.look (shelves.putAll v left s) x = some (v, 0) := by
  induction left generalizing s with
  | nil =>
    obtain hx | hs := hs
    · cases hx
    · exact hs
  | cons y left ih =>
    refine ih (fun z hz => h z (List.mem_cons_of_mem y hz)) ?_
    by_cases hxy : x = y
    · exact .inr (by rw [hxy, shelves.look_put])
    · obtain hx | hs := hs
      · exact .inl ((List.mem_cons.1 hx).resolve_left hxy)
      · exact .inr (by rw [h y List.mem_cons_self hxy, hs])

section Turns

variable (form shelves possible)

theorem runs_step (w : World σ κ ε α) {e : Event κ γ V ε α} (he : e.Allowed form possible) :
    Runs form shelves possible w (w.step form shelves e) :=
  Reaches.single he

/-- A turn of the question that was asked last. -/
theorem runs_move (s : σ) (now : ℕ) (cs : List (Call κ ε α)) (stage : Stage κ ε (α i)) :
    Runs form shelves possible ⟨s, cs ++ [⟨i, stage⟩]⟩
      ⟨(stage.move form shelves i now s).1, cs ++ [⟨i, (stage.move form shelves i now s).2⟩]⟩ := by
  have hstep := runs_step form shelves possible ⟨s, cs ++ [⟨i, stage⟩]⟩ (e := .move cs.length now) trivial
  simpa [World.step, List.set_append_right] using hstep

/-- Nothing is found, and the question is worked out. -/
theorem runs_running (cs : List (Call κ ε α)) {left : List κ} (h : ∀ x ∈ left, shelves.look s x = none) :
    Runs form shelves possible ⟨s, cs ++ [⟨i, .asking left⟩]⟩ ⟨s, cs ++ [⟨i, .running⟩]⟩ := by
  induction left with
  | nil => exact runs_move form shelves possible s 0 cs (.asking [])
  | cons x left ih =>
    have hmove := runs_move form shelves possible s 0 cs (.asking (x :: left) : Stage κ ε (α i))
    simp only [Stage.move, h x List.mem_cons_self] at hmove
    exact hmove.trans (ih fun y hy => h y (List.mem_cons_of_mem x hy))

/-- The answer is kept in all its places. -/
theorem runs_kept (s : σ) (cs : List (Call κ ε α)) {a : α i} (hencode : form.encode i a = some v)
    (left : List κ) :
    Runs form shelves possible ⟨s, cs ++ [⟨i, .keeping a left⟩]⟩
      ⟨shelves.putAll v left s, cs ++ [⟨i, .returned (.ok a)⟩]⟩ := by
  induction left generalizing s with
  | nil => exact runs_move form shelves possible s 0 cs (.keeping a [])
  | cons x left ih =>
    have hmove := runs_move form shelves possible s 0 cs (.keeping a (x :: left) : Stage κ ε (α i))
    simp only [Stage.move, hencode] at hmove
    exact hmove.trans (ih _)

/-- An answer is found. -/
theorem runs_found (cs : List (Call κ ε α)) {b : α i} (hdecode : form.decode i v = some b)
    {left : List κ} (h : ∀ x ∈ left, shelves.look s x = none ∨ shelves.look s x = some (v, 0))
    (hx : x ∈ left) (hfound : shelves.look s x = some (v, 0)) :
    Runs form shelves possible ⟨s, cs ++ [⟨i, .asking left⟩]⟩ ⟨s, cs ++ [⟨i, .returned (.ok b)⟩]⟩ := by
  induction left with
  | nil => cases hx
  | cons y left ih =>
    have hmove := runs_move form shelves possible s 0 cs (.asking (y :: left) : Stage κ ε (α i))
    obtain hy | hy := h y List.mem_cons_self
    · have hxy : x ≠ y := by
        rintro rfl
        rw [hy] at hfound
        cases hfound
      simp only [Stage.move, hy] at hmove
      exact hmove.trans
        (ih (fun z hz => h z (List.mem_cons_of_mem y hz)) ((List.mem_cons.1 hx).resolve_left hxy))
    · simp only [Stage.move, hy, shelves.expired_self, Bool.false_eq_true, if_false, hdecode] at hmove
      exact hmove

/-- **Remembered answers.**  In every order of turns each question is answered with what working it out
can come to, if and only if the places are coherent. -/
theorem faithful_iff (happart : Apart form shelves) :
    (∀ w : World σ κ ε α, Runs form shelves possible ⟨shelves.empty, []⟩ w → w.Faithful possible) ↔
      Coherent form possible := by
  constructor
  · rintro hfaithful i j x ⟨scope, hix⟩ ⟨scope', hjx⟩ a ha v hencode b hdecode
    -- One question is worked out, and then the other one is asked.
    classical
    have hempty : ∀ y, shelves.look shelves.empty y = none := shelves.look_empty
    have hask := runs_step form shelves possible ⟨shelves.empty, []⟩ (e := .ask i scope) trivial
    have hrun := runs_running form shelves possible (i := i) [] fun y (_ : y ∈ form.places i scope) =>
      hempty y
    obtain ⟨body, hbody, hother⟩ : ∃ body : (k : ι) → Option (Except ε (α k)),
        body i = some (.ok a) ∧ ∀ k ≠ i, body k = none :=
      ⟨Function.update (fun _ => none) i (some (.ok a)), Function.update_self _ _ _,
        fun k hk => Function.update_of_ne hk _ _⟩
    have hend : ∀ k r, body k = some r → r ∈ possible k := by
      intro k r hr
      by_cases hk : k = i
      · subst hk
        rw [hbody, Option.some.injEq] at hr
        exact hr ▸ ha
      · rw [hother k hk] at hr
        cases hr
    have hfinish := runs_step form shelves possible ⟨shelves.empty, [⟨i, .running⟩]⟩
      (e := .finish 0 body scope) hend
    simp only [World.step, List.getElem?_cons_zero, hbody, Stage.ended, List.set_cons_zero] at hfinish
    have hkept := runs_kept form shelves possible shelves.empty [] hencode (form.places i scope)
    have hask' := runs_step form shelves possible
      ⟨shelves.putAll v (form.places i scope) shelves.empty, [⟨i, .returned (.ok a)⟩]⟩
      (e := .ask j scope') trivial
    have hlook : ∀ y ∈ form.places i scope,
        shelves.look (shelves.putAll v (form.places i scope) shelves.empty) y = some (v, 0) :=
      fun y hy => look_putAll_of_apart (fun z hz => happart i scope y hy z hz) (.inl hy)
    have hknown : ∀ y ∈ form.places j scope',
        shelves.look (shelves.putAll v (form.places i scope) shelves.empty) y = none ∨
          shelves.look (shelves.putAll v (form.places i scope) shelves.empty) y = some (v, 0) := by
      intro y _
      by_cases hy : y ∈ form.places i scope
      · exact .inr (hlook y hy)
      · exact .inl (look_putAll_of_notMem hy (hempty y))
    have hfound := runs_found form shelves possible [⟨i, .returned (.ok a)⟩] hdecode hknown hjx
      (hlook x hix)
    exact hfaithful _ ((((hask.trans hrun).trans hfinish).trans hkept).trans (hask'.trans hfound))
      ⟨j, .returned (.ok b)⟩ (List.mem_append_right _ List.mem_cons_self) (.ok b) rfl
  · intro hcoherent w hw
    have hstep : ∀ (w : World σ κ ε α) (e : Event κ γ V ε α), e.Allowed form possible →
        w.Sound form shelves possible → (w.step form shelves e).Sound form shelves possible :=
      fun w e he h => h.step hcoherent he
    refine (hw.invariant hstep ⟨?_, ?_⟩).faithful
    · intro j x _ v t hlook
      rw [shelves.look_empty] at hlook
      cases hlook
    · intro c hc
      cases hc

end Turns

/-! ### Where nothing is lost -/

/-- What is put into the place stays there until something else is put into it. -/
structure Shelves.Lossless (shelves : Shelves κ V σ) (x : κ) : Prop where
  /-- It does not get too old. -/
  ageless : ∀ t u, shelves.expired x t u = false
  /-- It is not pushed out. -/
  roomy : ∀ s t v y, y ≠ x → shelves.look (shelves.put s t y v) x = shelves.look s x
  /-- It is not dropped with something else. -/
  undropped : ∀ s y, y ≠ x → shelves.look (shelves.drop s y) x = shelves.look s x

/-- The answers to a question are kept, and it understands all that is kept in this place of it. -/
structure Form.Steady (form : Form ι κ γ V α) (i : ι) (x : κ) : Prop where
  /-- Its answers can be kept. -/
  encodes : ∀ a, (form.encode i a).isSome = true
  /-- What is in the place can be understood. -/
  decodes : ∀ j, Uses form j x → ∀ a v, form.encode j a = some v → (form.decode i v).isSome = true

/-- The question is asked where this place is looked into, and its answers are kept there; others keep to
other places. -/
def Event.Within (form : Form ι κ γ V α) (i : ι) (x : κ) : Event κ γ V ε α → Prop
  | .ask j scope => j = i → x ∈ form.places i scope
  | .finish _ _ scope => x ∈ form.places i scope
  | .move _ _ => True
  | .other y _ _ => y ≠ x

/-- There is an answer to the question in the place. -/
def Settled (form : Form ι κ γ V α) (shelves : Shelves κ V σ) (i : ι) (x : κ) (s : σ) : Prop :=
  ∃ v t, shelves.look s x = some (v, t) ∧ (form.decode i v).isSome = true

/-- Answers are kept in places of their questions, and one to this question in this place, which is not
emptied. -/
def Stage.Keeps (form : Form ι κ γ V α) (i : ι) (x : κ) (settled : Prop) (j : ι) :
    Stage κ ε (α j) → Prop
  | .asking _ | .running | .returned _ => True
  | .dropping y _ => y ≠ x
  | .keeping _ left => (∀ y ∈ left, Uses form j y) ∧ (j = i → x ∈ left ∨ settled)

/-- The question is answered, or will find an answer in the place. -/
def Stage.Late {β : Type*} (x : κ) : Stage κ ε β → Prop
  | .asking left | .dropping _ left => x ∈ left
  | .returned _ => True
  | .running | .keeping _ _ => False

/-- What holds as long as nothing is lost. -/
def World.Keeps (form : Form ι κ γ V α) (shelves : Shelves κ V σ) (i : ι) (x : κ)
    (w : World σ κ ε α) : Prop :=
  ∀ c ∈ w.calls, c.stage.Keeps form i x (Settled form shelves i x w.store) c.question

/-- There is an answer in the place, and the question is worked out no more. -/
structure World.Quiet (form : Form ι κ γ V α) (shelves : Shelves κ V σ) (i : ι) (x : κ) (first : ℕ)
    (w : World σ κ ε α) : Prop where
  /-- There is an answer. -/
  settled : Settled form shelves i x w.store
  /-- Nothing has been lost. -/
  keeps : w.Keeps form shelves i x
  /-- This many questions have been asked. -/
  asked : first ≤ w.calls.length
  /-- Those asked later find the answer. -/
  late : ∀ n c, first ≤ n → w.calls[n]? = some c → c.question = i → c.stage.Late x

theorem Stage.Keeps.mono {settled settled' : Prop} (h : settled → settled') {stage : Stage κ ε (α j)}
    (hstage : stage.Keeps form i x settled j) : stage.Keeps form i x settled' j := by
  cases stage with
  | asking left => trivial
  | dropping y left => exact hstage
  | running => trivial
  | keeping a left => exact ⟨hstage.1, fun hj => (hstage.2 hj).imp id h⟩
  | returned r => trivial

theorem Settled.put_of_ne (hlossless : shelves.Lossless x) (hyx : y ≠ x)
    (h : Settled form shelves i x s) : Settled form shelves i x (shelves.put s now y v) := by
  obtain ⟨v', t, hlook, hdecode⟩ := h
  exact ⟨v', t, by rw [hlossless.roomy s now v y hyx, hlook], hdecode⟩

/-- A turn keeps what is in the place, and puts an answer there if one is to be kept. -/
theorem Stage.Keeps.move (hlossless : shelves.Lossless x) (hsteady : form.Steady i x) (now : ℕ)
    {stage : Stage κ ε (α j)} (h : stage.Keeps form i x (Settled form shelves i x s) j) :
    (Settled form shelves i x s → Settled form shelves i x (stage.move form shelves j now s).1) ∧
      (stage.move form shelves j now s).2.Keeps form i x
        (Settled form shelves i x (stage.move form shelves j now s).1) j := by
  cases stage with
  | asking left =>
    cases left with
    | nil => exact ⟨id, trivial⟩
    | cons y left =>
      simp only [Stage.move]
      cases hlook : shelves.look s y with
      | none => exact ⟨id, trivial⟩
      | some p =>
        dsimp only
        split_ifs with hexpired
        · refine ⟨id, ?_⟩
          rintro rfl
          rw [hlossless.ageless] at hexpired
          cases hexpired
        · cases form.decode j p.1 <;> exact ⟨id, trivial⟩
  | dropping y left =>
    refine ⟨?_, trivial⟩
    rintro ⟨v, t, hlook, hdecode⟩
    exact ⟨v, t, by rw [Stage.move, hlossless.undropped s y h, hlook], hdecode⟩
  | running => exact ⟨id, trivial⟩
  | keeping a left =>
    cases left with
    | nil => exact ⟨id, trivial⟩
    | cons y left =>
      have hleft : ∀ z ∈ left, Uses form j z := fun z hz => h.1 z (List.mem_cons_of_mem y hz)
      simp only [Stage.move]
      cases hencode : form.encode j a with
      | none =>
        refine ⟨id, hleft, ?_⟩
        rintro rfl
        have hsome := hsteady.encodes a
        rw [hencode] at hsome
        cases hsome
      | some v =>
        by_cases hyx : y = x
        · subst hyx
          have hsettled : Settled form shelves i y (shelves.put s now y v) :=
            ⟨v, now, shelves.look_put s now y v, hsteady.decodes j (h.1 y List.mem_cons_self) a v hencode⟩
          exact ⟨fun _ => hsettled, hleft, fun _ => .inr hsettled⟩
        · refine ⟨Settled.put_of_ne hlossless hyx, hleft, fun hj => ?_⟩
          obtain hx | hsettled := h.2 hj
          · exact .inl ((List.mem_cons.1 hx).resolve_left fun hxy => hyx hxy.symm)
          · exact .inr (hsettled.put_of_ne hlossless hyx)
  | returned r => exact ⟨id, h⟩

theorem Stage.Keeps.ended {scope : γ} (hscope : x ∈ form.places i scope) {settled : Prop}
    (body : Option (Except ε (α j))) {stage : Stage κ ε (α j)} (h : stage.Keeps form i x settled j) :
    (stage.ended form scope j body).Keeps form i x settled j := by
  obtain hsame | ⟨-, a, -, hended⟩ | ⟨-, e, -, hended⟩ := Stage.ended_cases form scope body stage
  · rwa [hsame]
  · rw [hended]
    refine ⟨fun y hy => ⟨scope, hy⟩, ?_⟩
    rintro rfl
    exact .inl hscope
  · rw [hended]
    trivial

/-- A question for which there is an answer in the place finds one. -/
theorem Stage.Late.move (hlossless : shelves.Lossless x) (hsettled : Settled form shelves i x s)
    {stage : Stage κ ε (α i)} (h : stage.Late x) : (stage.move form shelves i now s).2.Late x := by
  cases stage with
  | asking left =>
    cases left with
    | nil => exact absurd h List.not_mem_nil
    | cons y left =>
      obtain ⟨v, t, hlook, hdecode⟩ := hsettled
      obtain ⟨b, hb⟩ := Option.isSome_iff_exists.1 hdecode
      simp only [Stage.move]
      by_cases hyx : y = x
      · simp only [hyx, hlook, hlossless.ageless, Bool.false_eq_true, if_false, hb, Stage.Late]
      · have hleft : x ∈ left := (List.mem_cons.1 h).resolve_left fun hxy => hyx hxy.symm
        cases shelves.look s y with
        | none => exact hleft
        | some p =>
          dsimp only
          split_ifs
          · exact hleft
          · cases form.decode i p.1 with
            | none => exact hleft
            | some b' => trivial
  | dropping y left => exact h
  | running => exact h.elim
  | keeping a left => exact h.elim
  | returned r => trivial

theorem Stage.Late.ended {scope : γ} (body : Option (Except ε (α j))) {stage : Stage κ ε (α j)}
    (h : stage.Late x) : (stage.ended form scope j body).Late x := by
  obtain hsame | ⟨rfl, -⟩ | ⟨rfl, -⟩ := Stage.ended_cases form scope body stage
  · rwa [hsame]
  · exact h.elim
  · exact h.elim

theorem World.length_step (w : World σ κ ε α) (e : Event κ γ V ε α) :
    w.calls.length ≤ (w.step form shelves e).calls.length := by
  cases e with
  | ask j scope => simp [World.step]
  | move n now => cases hn : w.calls[n]? <;> simp [World.step, hn]
  | finish n body scope => cases hn : w.calls[n]? <;> simp [World.step, hn]
  | other y v now => exact le_rfl

section Lasting

variable (hlossless : shelves.Lossless x) (hsteady : form.Steady i x)
include hlossless hsteady

theorem World.Keeps.step {e : Event κ γ V ε α} (he : e.Within form i x)
    (h : w.Keeps form shelves i x) :
    (Settled form shelves i x w.store → Settled form shelves i x (w.step form shelves e).store) ∧
      (w.step form shelves e).Keeps form shelves i x := by
  cases e with
  | ask j scope =>
    refine ⟨id, fun c hc => ?_⟩
    obtain hc | hc := List.mem_append.1 hc
    · exact h c hc
    · obtain rfl := List.mem_singleton.1 hc
      trivial
  | move n now =>
    simp only [World.step]
    cases hn : w.calls[n]? with
    | none => exact ⟨id, h⟩
    | some c =>
      have hmove := (h c (List.mem_of_getElem? hn)).move hlossless hsteady now
      refine ⟨hmove.1, fun c' hc' => ?_⟩
      obtain hc' | rfl := List.mem_or_eq_of_mem_set hc'
      · exact (h c' hc').mono hmove.1
      · exact hmove.2
  | finish n body scope =>
    simp only [World.step]
    cases hn : w.calls[n]? with
    | none => exact ⟨id, h⟩
    | some c =>
      refine ⟨id, fun c' hc' => ?_⟩
      obtain hc' | rfl := List.mem_or_eq_of_mem_set hc'
      · exact h c' hc'
      · exact (h c (List.mem_of_getElem? hn)).ended he _
  | other y v now =>
    have hput : Settled form shelves i x w.store →
        Settled form shelves i x (shelves.put w.store now y v) := Settled.put_of_ne hlossless he
    exact ⟨hput, fun c hc => (h c hc).mono hput⟩

theorem World.Quiet.step {e : Event κ γ V ε α} (he : e.Within form i x)
    (h : w.Quiet form shelves i x n) : (w.step form shelves e).Quiet form shelves i x n := by
  obtain ⟨hsettled, hkeeps⟩ := h.keeps.step hlossless hsteady he
  refine ⟨hsettled h.settled, hkeeps, h.asked.trans (World.length_step w e), fun m c hm hc hi => ?_⟩
  cases e with
  | ask j scope =>
    by_cases hlt : m < w.calls.length
    · rw [World.step, List.getElem?_append_left hlt] at hc
      exact h.late m c hm hc hi
    · rw [World.step, List.getElem?_append_right (Nat.le_of_not_lt hlt), List.getElem?_singleton] at hc
      split_ifs at hc
      cases hc
      cases hi
      exact he rfl
  | move n' now =>
    simp only [World.step] at hc
    cases hn : w.calls[n']? with
    | none =>
      rw [hn] at hc
      exact h.late m c hm hc hi
    | some c' =>
      simp only [hn, List.getElem?_set] at hc
      split_ifs at hc with hnm
      · subst hnm
        cases hc
        cases hi
        exact (h.late n' c' hm hn rfl).move hlossless h.settled
      · exact h.late m c hm hc hi
  | finish n' body scope =>
    simp only [World.step] at hc
    cases hn : w.calls[n']? with
    | none =>
      rw [hn] at hc
      exact h.late m c hm hc hi
    | some c' =>
      simp only [hn, List.getElem?_set] at hc
      split_ifs at hc with hnm
      · subst hnm
        cases hc
        exact (h.late n' c' hm hn hi).ended _
      · exact h.late m c hm hc hi
  | other y v now => exact h.late m c hm hc hi

/-- **Worked out once.**  Where nothing is lost, a question is worked out no more when its answer has been
kept: who asks it later finds an answer. -/
theorem late_of_settled
    (h : Reaches (World.step form shelves) (Event.Within form i x) ⟨shelves.empty, []⟩ w)
    {c : Call κ ε α} (hc : c ∈ w.calls) (hi : c.question = i)
    (hkept : ∃ a, c.stage = .keeping a [])
    (h' : Reaches (World.step form shelves) (Event.Within form i x) w w') {m : ℕ}
    (hm : w.calls.length ≤ m) {c' : Call κ ε α} (hc' : w'.calls[m]? = some c') (hi' : c'.question = i) :
    c'.stage.Late x := by
  have hkeepsStep : ∀ (w : World σ κ ε α) (e : Event κ γ V ε α), e.Within form i x →
      w.Keeps form shelves i x → (w.step form shelves e).Keeps form shelves i x :=
    fun w e he hw => (hw.step hlossless hsteady he).2
  have hkeeps : w.Keeps form shelves i x := h.invariant hkeepsStep fun c hc => by cases hc
  obtain ⟨a, ha⟩ := hkept
  have hsettled : Settled form shelves i x w.store := by
    have hstage := hkeeps c hc
    rw [ha] at hstage
    exact (hstage.2 hi).resolve_left List.not_mem_nil
  have hquiet : w.Quiet form shelves i x w.calls.length :=
    ⟨hsettled, hkeeps, le_rfl, fun n c hn hc _ => by
      rw [List.getElem?_eq_none_iff.2 hn] at hc
      cases hc⟩
  have hquietStep : ∀ (w' : World σ κ ε α) (e : Event κ γ V ε α), e.Within form i x →
      w'.Quiet form shelves i x w.calls.length →
      (w'.step form shelves e).Quiet form shelves i x w.calls.length :=
    fun w' e he hw' => hw'.step hlossless hsteady he
  exact (h'.invariant hquietStep hquiet).late m c' hm hc' hi'

end Lasting

end Memo
