import Mathlib.Data.List.Basic
import Mathlib.Data.List.Perm.Basic

/-!
# Questions and answers

In a conversation some messages ask questions, and some answer one.  While questions are open only answers
may come, each for one of them, in any order.

* `Dialogue.read` : the questions that are open after some messages, if they may come so.
* `read_answers_iff` : answers close the questions exactly if they are a rearrangement of them.
-/

namespace Juncture

namespace Dialogue

variable {K M : Type} [DecidableEq K]

/-- What a message does. -/
inductive Kind (K : Type) where
  /-- It asks questions, or says something if there are none. -/
  | asks (questions : List K)
  /-- It answers a question. -/
  | answers (question : K)
  /-- It answers nothing that could be asked. -/
  | stray

/-- One message. -/
def Kind.read (pending : List K) : Kind K → Option (List K)
  | .asks questions => if pending = [] then some questions else none
  | .answers question => if question ∈ pending then some (pending.erase question) else none
  | .stray => none

/-- The open questions after some messages, if these may follow. -/
def read (kind : M → Kind K) (pending : List K) (messages : List M) : Option (List K) :=
  messages.foldlM (fun pending m => (kind m).read pending) pending

variable {kind : M → Kind K} {pending : List K}

@[simp] theorem read_nil : read kind pending [] = some pending := rfl

@[simp] theorem read_cons (m : M) (messages : List M) :
    read kind pending (m :: messages) = ((kind m).read pending).bind fun p => read kind p messages :=
  List.foldlM_cons

theorem read_singleton (m : M) : read kind pending [m] = (kind m).read pending :=
  (read_cons m []).trans (Option.bind_fun_some _)

theorem read_append (xs ys : List M) :
    read kind pending (xs ++ ys) = (read kind pending xs).bind fun p => read kind p ys :=
  List.foldlM_append

/-- A question can only be asked when none is open. -/
theorem read_asks_eq_some_iff {questions p : List K} :
    (Kind.asks questions).read pending = some p ↔ pending = [] ∧ p = questions := by
  unfold Kind.read
  split_ifs with h
  · rw [Option.some.injEq, eq_comm]
    exact (and_iff_right h).symm
  · exact iff_of_false (fun hp => nomatch hp) fun hp => h hp.1

/-- **Answers** close all questions exactly if they answer each of them once. -/
theorem read_answers_iff {answers : List M} {questions : List K}
    (h : answers.map kind = questions.map .answers) :
    read kind pending answers = some [] ↔ questions.Perm pending := by
  induction answers generalizing pending questions with
  | nil =>
    obtain rfl := List.map_eq_nil_iff.1 h.symm
    rw [read_nil, Option.some.injEq, List.nil_perm]
  | cons m answers ih =>
    obtain _ | ⟨q, questions⟩ := questions
    · cases h
    obtain ⟨hm, h⟩ := List.cons.inj h
    rw [read_cons, hm, Kind.read, List.cons_perm_iff_perm_erase]
    split_ifs with hq
    · rw [Option.bind_some, ih h, and_iff_right hq]
    · exact iff_of_false (fun hp => nomatch hp) fun hp => hq hp.1

end Dialogue

end Juncture
