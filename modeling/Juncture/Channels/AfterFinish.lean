import Juncture.Channels.Restore

/-!
# Values that are held back

A `LastValueAfterFinishChannel` should show the value it was made with until it has finished, and then all
that was written, also what was written before.  It keeps one value, which updates change, and shows that
one before it has finished as well.

* `value_run` : what a channel holds after some updates and calls of `finish`.
* `withholds_iff` : when nothing is seen too early.

A channel that has been read back from a checkpoint starts finished or not, like any other.
-/

namespace Juncture

/-- A call that changes a `LastValueAfterFinishChannel`. -/
inductive FinishStep (T : Type) where
  | update (values : List T)
  | finish

namespace LastValueAfterFinishChannel

variable {T : Type} (r : Reducer T)

/-- What a call does, unless the reducer panics. -/
def step (ch : LastValueAfterFinishChannel T) : FinishStep T → Option (LastValueAfterFinishChannel T)
  | .update values => (ch.update r values).map Prod.fst
  | .finish => some ch.finish

/-- The value, with some values merged into it; nothing is merged if there are none. -/
def merge (value : T) (values : List T) : Option T :=
  if values.isEmpty then some value else r.reduce value values

/-- The value, with all updates merged into it one after the other. -/
def merged : T → List (FinishStep T) → Option T
  | value, [] => some value
  | value, .update values :: steps => (merge r value values).bind fun value => merged value steps
  | value, .finish :: steps => merged value steps

/-- The channel has been finished, before these calls or by one of them. -/
def Finished (ch : LastValueAfterFinishChannel T) (steps : List (FinishStep T)) : Prop :=
  ch.isFinished = true ∨ .finish ∈ steps

/-- After each of the calls: as long as the channel has not finished, it shows the value it started with
and persists nothing; then it shows all updates so far. -/
def Withholds (ch : LastValueAfterFinishChannel T) (steps : List (FinishStep T)) : Prop :=
  ∀ done, done <+: steps → ∀ ch', done.foldlM (step r) ch = some ch' →
    (¬ ch.Finished done → ch'.get = ch.value ∧ ∀ [Serde T], ch'.checkpoint = none) ∧
      (ch.Finished done → merged r ch.value done = some ch'.get)

/-- Up to the first call of `finish`, or to a panic, each update leaves the value as it is. -/
def Unnoticed (value : T) : List (FinishStep T) → Prop
  | [] => True
  | .update values :: steps => ∀ value' ∈ merge r value values, value' = value ∧ Unnoticed value steps
  | .finish :: _ => True

variable {r} {ch ch' : LastValueAfterFinishChannel T} {steps : List (FinishStep T)}

/-! ### Runs -/

/-- An update merges its values into the one that is held. -/
theorem value_update (values : List T) :
    (step r ch (.update values)).map value = merge r ch.value values := by
  simp only [step, update, merge]
  split
  · rfl
  · simp [Function.comp_def]

theorem isFinished_step {s : FinishStep T} (h : step r ch s = some ch') :
    ch'.isFinished = true ↔ ch.Finished [s] := by
  cases s with
  | finish =>
    obtain rfl := Option.some.inj h
    simp [Finished, finish]
  | update values =>
    simp only [step, update, Option.map_eq_some_iff] at h
    obtain ⟨⟨_, changed⟩, h, rfl⟩ := h
    simp only [Finished, List.mem_singleton, reduceCtorEq, or_false]
    split at h
    · obtain ⟨rfl, -⟩ := Prod.mk.inj (Option.some.inj h)
      exact Iff.rfl
    · obtain ⟨value, -, h⟩ := Option.map_eq_some_iff.mp h
      obtain ⟨rfl, -⟩ := Prod.mk.inj h
      rw [withValue_isFinished]

/-- **What a channel holds** after some calls: all updates, whether it has finished or not. -/
theorem value_run (steps : List (FinishStep T)) :
    (steps.foldlM (step r) ch).map value = merged r ch.value steps := by
  induction steps generalizing ch with
  | nil => rfl
  | cons s steps ih =>
    rw [List.foldlM_cons, Option.bind_eq_bind, Option.map_bind]
    cases s with
    | finish => exact ih
    | update values =>
      rw [merged, ← value_update, Option.bind_map]
      refine congrArg _ ?_
      funext ch
      exact ih

theorem isFinished_run (h : steps.foldlM (step r) ch = some ch') :
    ch'.isFinished = true ↔ ch.Finished steps := by
  induction steps generalizing ch with
  | nil =>
    obtain rfl := Option.some.inj h
    simp [Finished]
  | cons s steps ih =>
    rw [List.foldlM_cons, Option.bind_eq_bind, Option.bind_eq_some_iff] at h
    obtain ⟨mid, hmid, hrest⟩ := h
    rw [ih hrest, Finished, isFinished_step hmid]
    simp only [Finished, List.mem_cons, List.not_mem_nil, or_false, or_assoc]

/-- The updates go unnoticed exactly if none of them changes the value before `finish`. -/
theorem unnoticed_iff (value : T) (steps : List (FinishStep T)) :
    Unnoticed r value steps ↔
      ∀ done, done <+: steps → .finish ∉ done → ∀ value' ∈ merged r value done, value' = value := by
  induction steps with
  | nil =>
    refine iff_of_true trivial fun done hdone _ value' hvalue' => ?_
    rw [List.prefix_nil.mp hdone] at hvalue'
    exact (Option.some.inj hvalue').symm
  | cons s steps ih =>
    cases s with
    | finish =>
      refine iff_of_true trivial fun done hdone hfinish value' hvalue' => ?_
      obtain rfl | ⟨rest, rfl, -⟩ := List.prefix_cons_iff.mp hdone
      · exact (Option.some.inj hvalue').symm
      · exact absurd List.mem_cons_self hfinish
    | update values =>
      rw [Unnoticed, ih]
      constructor
      · intro h done hdone hfinish value' hvalue'
        obtain rfl | ⟨rest, rfl, hrest⟩ := List.prefix_cons_iff.mp hdone
        · exact (Option.some.inj hvalue').symm
        · rw [merged, Option.mem_def, Option.bind_eq_some_iff] at hvalue'
          obtain ⟨mid, hmid, hvalue'⟩ := hvalue'
          obtain ⟨rfl, hsteps⟩ := h mid hmid
          exact hsteps rest hrest (fun hmem => hfinish (List.mem_cons_of_mem _ hmem)) value' hvalue'
      · intro h mid hmid
        have hone := h [.update values] (List.cons_prefix_cons.mpr ⟨rfl, List.nil_prefix⟩) (by simp) mid
          (by rw [merged, hmid]; rfl)
        subst hone
        refine ⟨rfl, fun done hdone hfinish value' hvalue' => ?_⟩
        refine h (.update values :: done) (List.cons_prefix_cons.mpr ⟨rfl, hdone⟩)
          (by simpa using hfinish) value' ?_
        rw [merged, hmid]
        exact hvalue'

/-- **Nothing is seen too early** exactly if the channel has finished before, or no update before the first
call of `finish` changes the value. -/
theorem withholds_iff (r : Reducer T) (ch : LastValueAfterFinishChannel T)
    (steps : List (FinishStep T)) :
    Withholds r ch steps ↔ ch.isFinished = true ∨ Unnoticed r ch.value steps := by
  rw [unnoticed_iff]
  constructor
  · intro h
    refine or_iff_not_imp_left.mpr fun hfinished done hdone hfinish value' hvalue' => ?_
    rw [← value_run] at hvalue'
    obtain ⟨ch', hrun, rfl⟩ := Option.map_eq_some_iff.mp hvalue'
    obtain ⟨hget, -⟩ := (h done hdone ch' hrun).1 fun hor => hor.elim hfinished hfinish
    rw [← get_eq, hget]
  · intro h done hdone ch' hrun
    have hvalue : merged r ch.value done = some ch'.value := by rw [← value_run, hrun, Option.map_some]
    rw [get_eq]
    refine ⟨fun hunfinished => ?_, fun _ => hvalue⟩
    obtain ⟨hch, hfinish⟩ := not_or.mp hunfinished
    refine ⟨(h.resolve_left hch) done hdone hfinish ch'.value hvalue, fun {_} => ?_⟩
    have hoff : ch'.isFinished = false := by
      rw [← Bool.not_eq_true, isFinished_run hrun]
      exact hunfinished
    rw [checkpoint, hoff, if_neg Bool.false_ne_true]

/-- A value that is written before the channel has finished. -/
def earlyWrite : List (FinishStep ℤ) := [.update [5], .finish]

/-- It is seen at once. -/
theorem earlyWrite_not_withheld : ¬ Withholds (replaceReducer ℤ) { value := 0 } earlyWrite := by
  rw [withholds_iff]
  rintro (hfinished | hunnoticed)
  · exact Bool.false_ne_true hfinished
  · exact absurd (hunnoticed 5 rfl).1 (by decide)

end LastValueAfterFinishChannel

end Juncture
