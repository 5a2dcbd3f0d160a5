import Mathlib.Data.List.Basic
import Mathlib.Data.List.Induction

/-!
# Sessions with one object

Parties send requests to an object, which serves them one at a time, in any order.  What a party sends
depends on the answers that it has got: of each party it is said which sessions, that is which lists of
requests with their answers, it may have had.

* `Runs` : the steps of a run, each with the object before it.
* `Runs.split` : what is known at each step of a run.
* `Preceded` : entries of one kind come after one of another kind.
-/

namespace Sessions

variable {σ ι ω π : Type*}

/-- A party sends a request and gets an answer. -/
structure Step (σ ι ω π : Type*) where
  /-- The object before. -/
  before : σ
  /-- The party. -/
  party : π
  /-- What it sends. -/
  request : ι
  /-- What it gets. -/
  answer : ω

variable [DecidableEq π]

/-- What a party has sent and got. -/
def session (p : π) (steps : List (Step σ ι ω π)) : List (ι × ω) :=
  (steps.filter fun x => x.party = p).map fun x => (x.request, x.answer)

variable {serve : σ → ι → σ × ω} {may : π → List (ι × ω) → Prop} {s₀ s : σ}
  {steps pre post : List (Step σ ι ω π)} {x : Step σ ι ω π} {p : π}

theorem mem_session {e : ι × ω} :
    e ∈ session p steps ↔ ∃ x ∈ steps, x.party = p ∧ (x.request, x.answer) = e := by
  simp only [session, List.mem_map, List.mem_filter, decide_eq_true_eq, and_assoc]

theorem session_append_self : session x.party (pre ++ [x]) =
    session x.party pre ++ [(x.request, x.answer)] := by
  simp [session]

/-- The session of a party alone. -/
theorem session_map (s : σ) (p : π) (log : List (ι × ω)) :
    session p (log.map fun e => (⟨s, p, e.1, e.2⟩ : Step σ ι ω π)) = log := by
  induction log with
  | nil => rfl
  | cons e log ih => rw [List.map_cons, session, List.filter_cons_of_pos (by simp), List.map_cons, ← session, ih]

/-- The steps of a run from `s₀`, and the object after them. -/
inductive Runs (serve : σ → ι → σ × ω) (may : π → List (ι × ω) → Prop) (s₀ : σ) :
    List (Step σ ι ω π) → σ → Prop
  | start : Runs serve may s₀ [] s₀
  | step {steps : List (Step σ ι ω π)} {s : σ} (h : Runs serve may s₀ steps s) (p : π) (i : ι)
    (hmay : may p (session p steps ++ [(i, (serve s i).2)])) :
    Runs serve may s₀ (steps ++ [⟨s, p, i, (serve s i).2⟩]) (serve s i).1

/-- **What is known at each step**: the run that led to it, that the party may send the request, and
where the answer comes from. -/
theorem Runs.split (h : Runs serve may s₀ steps s) (hx : steps = pre ++ x :: post) :
    Runs serve may s₀ pre x.before ∧ may x.party (session x.party pre ++ [(x.request, x.answer)]) ∧
      x.answer = (serve x.before x.request).2 := by
  induction h generalizing post with
  | start => simp at hx
  | step h p i hmay ih =>
    obtain rfl | ⟨post, y, rfl⟩ := List.eq_nil_or_concat post
    · obtain ⟨rfl, hlast⟩ := List.append_inj' hx rfl
      cases hlast
      exact ⟨h, hmay, rfl⟩
    · rw [List.concat_eq_append, ← List.cons_append, ← List.append_assoc] at hx
      exact ih (List.append_inj' hx rfl).1

theorem Runs.of_mem (h : Runs serve may s₀ steps s) (hx : x ∈ steps) :
    ∃ pre, (∀ y ∈ pre, y ∈ steps) ∧ Runs serve may s₀ pre x.before ∧
      may x.party (session x.party pre ++ [(x.request, x.answer)]) ∧
      x.answer = (serve x.before x.request).2 := by
  obtain ⟨pre, post, rfl⟩ := List.append_of_mem hx
  exact ⟨pre, fun y hy => List.mem_append_left _ hy, h.split rfl⟩

/-- A party alone has the sessions that leave the object as it is. -/
theorem Runs.of_session {log : List (ι × ω)} (hserve : ∀ e ∈ log, serve s e.1 = (s, e.2))
    (hmay : ∀ l, l <+: log → may p l) : Runs serve may s (log.map fun e => ⟨s, p, e.1, e.2⟩) s := by
  induction log using List.reverseRecOn with
  | nil => exact .start
  | append_singleton log e ih =>
    have hrun := ih (fun e he => hserve e (List.mem_append_left _ he))
      fun l hl => hmay l (hl.trans (List.prefix_append _ _))
    have hlast := hserve e (List.mem_append_right _ (List.mem_singleton_self e))
    have hstep := Runs.step hrun p e.1 (by rw [session_map, hlast]; exact hmay _ List.prefix_rfl)
    rw [List.map_append, List.map_singleton]
    rw [hlast] at hstep
    exact hstep

/-! ### Order in a session -/

section Preceded

variable {α : Type*} {P Q : α → Prop} {log log' : List α} {y : α}

/-- Every entry with `P` comes after one with `Q`. -/
def Preceded (P Q : α → Prop) (log : List α) : Prop :=
  ∀ pre y post, log = pre ++ y :: post → P y → ∃ z ∈ pre, Q z

theorem preceded_nil : Preceded P Q [] := by
  intro pre y post heq
  simp at heq

/-- One more entry. -/
theorem preceded_concat :
    Preceded P Q (log ++ [y]) ↔ Preceded P Q log ∧ (P y → ∃ z ∈ log, Q z) := by
  constructor
  · refine fun h => ⟨fun pre z post heq => h pre z (post ++ [y]) (by simp [heq]), h log y [] rfl⟩
  · rintro ⟨h, hy⟩ pre z post heq hz
    -- the entry is the last one, or stands further on the left
    obtain rfl | ⟨post, w, rfl⟩ := List.eq_nil_or_concat post
    · obtain ⟨rfl, hlast⟩ := List.append_inj' heq rfl
      cases hlast
      exact hy hz
    · rw [List.concat_eq_append, ← List.cons_append, ← List.append_assoc] at heq
      exact h pre z post (List.append_inj' heq rfl).1 hz

theorem Preceded.initial (h : Preceded P Q log) (hlog : log' <+: log) : Preceded P Q log' := by
  obtain ⟨rest, rfl⟩ := hlog
  intro pre y post heq
  exact h pre y (post ++ rest) (by simp [heq])

/-- Without entries with `Q` there are none with `P`. -/
theorem Preceded.forall_not (h : Preceded P Q log) (hQ : ∀ z ∈ log, ¬ Q z) : ∀ y ∈ log, ¬ P y := by
  intro y hy hP
  obtain ⟨pre, post, rfl⟩ := List.append_of_mem hy
  obtain ⟨z, hz, hQz⟩ := h pre y post rfl hP
  exact hQ z (List.mem_append_left _ hz) hQz

end Preceded

end Sessions
