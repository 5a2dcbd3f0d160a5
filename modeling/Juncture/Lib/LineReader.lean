import Mathlib.Data.List.Basic
import Mathlib.Data.List.Infix

/-!
# Reading lines from chunks

A reader gets its input in chunks, cut at any place, and has to find the lines in it.  It keeps what it
has not looked at in a buffer, and hands on an item at a time: it is polled for the next.

* `lines`, `rest` : the complete lines of an input, and what comes after them.
* `scan`, `read` : the reader looks for the next line that gives an item, in the buffer and in the
  chunks.
* `emitted` : what a list of lines gives.
* `outputs_eq_iff` : when a reader that looks at its buffer only after a further chunk misses nothing.
* `Consumed` : what is got from a stream that is polled to its end, and at what cost.
-/

namespace LineReader

variable {α ω : Type*}

/-! ### Lines -/

section Lines

variable [DecidableEq α] (nl : α)

/-- The first line, and what comes after it. -/
def takeLine : List α → Option (List α × List α)
  | [] => none
  | a :: as => if a = nl then some ([], as) else (takeLine as).map fun p => (a :: p.1, p.2)

/-- The complete lines. -/
def lines : List α → List (List α)
  | [] => []
  | a :: as =>
    if a = nl then [] :: lines as
    else match lines as with
      | [] => []
      | line :: more => (a :: line) :: more

/-- What comes after the last complete line. -/
def rest : List α → List α
  | [] => []
  | a :: as => if a = nl then rest as else if lines nl as = [] then a :: rest as else rest as

variable {nl}

/-- A line, its end, and what comes after. -/
theorem lines_append_cons {line : List α} (h : nl ∉ line) (xs : List α) :
    lines nl (line ++ nl :: xs) = line :: lines nl xs ∧ rest nl (line ++ nl :: xs) = rest nl xs := by
  induction line with
  | nil => simp [lines, rest]
  | cons a line ih =>
    obtain ⟨ha, hline⟩ := not_or.mp (List.mem_cons.not.mp h)
    simp [lines, rest, Ne.symm ha, ih hline]

theorem lines_eq_nil_of_takeLine {xs : List α} (h : takeLine nl xs = none) :
    lines nl xs = [] ∧ rest nl xs = xs := by
  induction xs with
  | nil => exact ⟨rfl, rfl⟩
  | cons a xs ih =>
    by_cases ha : a = nl
    · simp [takeLine, ha] at h
    · have hxs : takeLine nl xs = none := by simpa [takeLine, ha] using h
      simp [lines, rest, ha, ih hxs]

/-- What the first line is, is not changed by what follows. -/
theorem lines_of_takeLine {xs line after : List α} (h : takeLine nl xs = some (line, after))
    (ys : List α) : lines nl (xs ++ ys) = line :: lines nl (after ++ ys) := by
  induction xs generalizing line with
  | nil => cases h
  | cons a xs ih =>
    by_cases ha : a = nl
    · obtain ⟨rfl, rfl⟩ : [] = line ∧ xs = after := by simpa [takeLine, ha] using h
      simp [lines, ha]
    · obtain ⟨line', hxs, rfl⟩ : ∃ line', takeLine nl xs = some (line', after) ∧ a :: line' = line := by
        simpa [takeLine, ha] using h
      simp [lines, ha, ih hxs]

theorem length_of_takeLine {xs line after : List α} (h : takeLine nl xs = some (line, after)) :
    after.length < xs.length := by
  induction xs generalizing line with
  | nil => cases h
  | cons a xs ih =>
    by_cases ha : a = nl
    · obtain ⟨-, rfl⟩ : [] = line ∧ xs = after := by simpa [takeLine, ha] using h
      exact Nat.lt_succ_self _
    · obtain ⟨line', hxs, -⟩ : ∃ line', takeLine nl xs = some (line', after) ∧ a :: line' = line := by
        simpa [takeLine, ha] using h
      exact (ih hxs).trans (Nat.lt_succ_self _)

end Lines

/-! ### What lines give -/

/-- What becomes of a line. -/
inductive Verdict (ω : Type*) where
  /-- It gives nothing. -/
  | skip
  /-- It gives an item. -/
  | emit (o : ω)
  /-- It gives an item, and nothing is read after it. -/
  | last (o : ω)
  /-- Nothing is read after it. -/
  | stop

/-- Nothing is read after the line. -/
def Verdict.ends : Verdict ω → Bool
  | .last _ | .stop => true
  | .skip | .emit _ => false

theorem Verdict.ends_iff {v : Verdict ω} : v.ends ↔ v = .stop ∨ ∃ o, v = .last o := by
  cases v <;> simp [Verdict.ends]

/-- Some items are what a first verdict gives, when nothing is read after it. -/
def Verdict.Gives (v : Verdict ω) (os : List ω) : Prop :=
  match v with
  | .emit _ => False
  | .last o => os = [o]
  | .skip | .stop => os = []

variable (classify : List α → Verdict ω)

/-- What lines give. -/
def emitted : List (List α) → List ω
  | [] => []
  | line :: more => match classify line with
    | .skip => emitted more
    | .emit o => o :: emitted more
    | .last o => [o]
    | .stop => []

/-- The lines up to the first after which nothing is read. -/
def live : List (List α) → List (List α)
  | [] => []
  | line :: more => line :: if (classify line).ends then [] else live more

/-- The first verdict that is not to go on. -/
def first : List (List α) → Verdict ω
  | [] => .skip
  | line :: more => match classify line with
    | .skip => first more
    | v => v

section Emitted

variable {classify}

theorem emitted_cons_of_skip {line : List α} (h : classify line = .skip) (more : List (List α)) :
    emitted classify (line :: more) = emitted classify more := by
  rw [emitted, h]

theorem emitted_cons_of_emit {line : List α} {o : ω} (h : classify line = .emit o)
    (more : List (List α)) : emitted classify (line :: more) = o :: emitted classify more := by
  rw [emitted, h]

theorem emitted_append_of_ends {ls : List (List α)} (h : ∃ line ∈ ls, (classify line).ends)
    (ls' : List (List α)) : emitted classify (ls ++ ls') = emitted classify ls := by
  induction ls with
  | nil => obtain ⟨line, hline, -⟩ := h; cases hline
  | cons line ls ih =>
    cases hv : classify line with
    | skip =>
      have hls : ∃ line ∈ ls, (classify line).ends := by simpa [hv, Verdict.ends] using h
      simp [emitted, hv, ih hls]
    | emit o =>
      have hls : ∃ line ∈ ls, (classify line).ends := by simpa [hv, Verdict.ends] using h
      simp [emitted, hv, ih hls]
    | last o => simp [emitted, hv]
    | stop => simp [emitted, hv]

theorem emitted_append {ls : List (List α)} (h : ∀ line ∈ ls, (classify line).ends = false)
    (ls' : List (List α)) :
    emitted classify (ls ++ ls') = emitted classify ls ++ emitted classify ls' := by
  induction ls with
  | nil => rfl
  | cons line ls ih =>
    have hls := ih fun line hline => h line (List.mem_cons_of_mem _ hline)
    have hv := h line List.mem_cons_self
    cases hc : classify line with
    | skip => simp [emitted, hc, hls]
    | emit o => simp [emitted, hc, hls]
    | last o => simp [hc, Verdict.ends] at hv
    | stop => simp [hc, Verdict.ends] at hv

theorem emitted_prefix (ls ls' : List (List α)) :
    emitted classify ls <+: emitted classify (ls ++ ls') := by
  by_cases h : ∃ line ∈ ls, (classify line).ends
  · rw [emitted_append_of_ends h]
  · rw [emitted_append (by simpa using h)]
    exact List.prefix_append _ _

/-- A line after all others. -/
theorem emitted_concat_eq_iff {ls : List (List α)} {line : List α} :
    emitted classify (ls ++ [line]) = emitted classify ls ↔
      (∃ l ∈ ls, (classify l).ends) ∨ classify line = .skip ∨ classify line = .stop := by
  by_cases h : ∃ l ∈ ls, (classify l).ends
  · simp only [emitted_append_of_ends h, h, true_or]
  · rw [emitted_append (by simpa using h)]
    simp only [h, false_or]
    cases hc : classify line <;> simp [emitted, hc]

/-- Two verdicts that agree up to the end give the same. -/
theorem emitted_congr {classify' : List α → Verdict ω} {ls : List (List α)}
    (h : ∀ line ∈ live classify ls, classify' line = classify line) :
    emitted classify' ls = emitted classify ls := by
  induction ls with
  | nil => rfl
  | cons line ls ih =>
    have hline := h line List.mem_cons_self
    cases hc : classify line with
    | skip =>
      have hls := ih fun l hl => h l (by simp [live, hc, Verdict.ends, hl])
      simp [emitted, hline, hc, hls]
    | emit o =>
      have hls := ih fun l hl => h l (by simp [live, hc, Verdict.ends, hl])
      simp [emitted, hline, hc, hls]
    | last o => simp [emitted, hline, hc]
    | stop => simp [emitted, hline, hc]

/-- Where one verdict ends with an item, and the other goes on after a different one, they do not give the
same. -/
theorem ne_emitted_of_conflict {classify' : List α → Verdict ω} {Conflict : List α → Prop}
    (hconflict : ∀ line, Conflict line → ∃ o o', classify line = .last o ∧ classify' line = .emit o' ∧ o ≠ o')
    (hsame : ∀ line, ¬ Conflict line → classify line = classify' line) {ls : List (List α)}
    (h : ∃ line ∈ live classify' ls, Conflict line) {os : List ω} (hos : os <+: emitted classify ls) :
    os ≠ emitted classify' ls := by
  induction ls generalizing os with
  | nil => obtain ⟨line, hline, -⟩ := h; cases hline
  | cons line ls ih =>
    by_cases hline : Conflict line
    · obtain ⟨o, o', hc, hc', hne⟩ := hconflict line hline
      rintro rfl
      simp only [emitted, hc, hc'] at hos
      exact hne (List.cons_prefix_cons.mp hos).1.symm
    · have hc := hsame line hline
      obtain ⟨line', hmem, hline'⟩ := h
      obtain rfl | hmem := List.mem_cons.mp hmem
      · exact absurd hline' hline
      · cases hc' : classify' line with
        | skip =>
          simp only [emitted, hc, hc', Verdict.ends] at hos hmem ⊢
          exact ih ⟨line', hmem, hline'⟩ hos
        | emit o =>
          simp only [emitted, hc, hc', Verdict.ends] at hos hmem ⊢
          rintro rfl
          exact ih ⟨line', hmem, hline'⟩ (List.cons_prefix_cons.mp hos).2 rfl
        | last o => simp [hc', Verdict.ends] at hmem
        | stop => simp [hc', Verdict.ends] at hmem

/-- A last item is among what the lines stand for. -/
theorem emitted_ne_nil_of_first {expect : List α → Verdict ω}
    (hlast : ∀ line o, classify line = .last o → expect line = .last o)
    (hends : ∀ line, (classify line).ends = (expect line).ends) {ls : List (List α)} {o : ω}
    (h : first classify ls = .last o) (ls' : List (List α)) : emitted expect (ls ++ ls') ≠ [] := by
  induction ls with
  | nil => cases h
  | cons line ls ih =>
    have hline := hends line
    cases hc : classify line with
    | skip =>
      have hls := ih (by simpa [first, hc] using h)
      cases he : expect line with
      | skip => simpa [emitted, he] using hls
      | emit o => simp [emitted, he]
      | last o => simp [hc, he, Verdict.ends] at hline
      | stop => simp [hc, he, Verdict.ends] at hline
    | emit o => simp [first, hc] at h
    | last o => simp [emitted, hlast line o hc]
    | stop => simp [first, hc] at h

/-- **When the first item is all there is**, and is what the lines stand for: `classify` is what is done,
and `expect` what the lines stand for. -/
theorem first_gives_iff {expect : List α → Verdict ω}
    (hlast : ∀ line o, classify line = .last o → expect line = .last o)
    (hends : ∀ line, (classify line).ends = (expect line).ends) (ls : List (List α)) (after : List α) :
    (first classify ls).Gives (emitted expect (ls ++ [after])) ↔
    (∀ line ∈ live expect ls, classify line = expect line ∧ ∀ o, expect line ≠ .emit o) ∧
      ((∃ line ∈ ls, (expect line).ends) ∨ expect after = .skip ∨ expect after = .stop) := by
  induction ls with
  | nil =>
    cases hafter : expect after <;> simp [Verdict.Gives, first, live, emitted, hafter]
  | cons line ls ih =>
    have hline := hends line
    cases hc : classify line with
    | skip =>
      cases he : expect line with
      | skip =>
        simp only [first, emitted, live, hc, he, List.cons_append, Verdict.ends, Bool.false_eq_true,
          ↓reduceIte, List.forall_mem_cons, true_and, ih, List.exists_mem_cons_iff, false_or, reduceCtorEq,
          not_false_eq_true, implies_true, ne_eq]
      | emit o =>
        simp only [first, emitted, live, hc, he, List.cons_append, List.forall_mem_cons, reduceCtorEq,
          false_and, iff_false]
        -- the item is missed, whatever comes after it
        cases hfirst : first classify ls with
        | skip => simp [Verdict.Gives]
        | emit o' => simp [Verdict.Gives]
        | last o' => simp [Verdict.Gives, emitted_ne_nil_of_first hlast hends hfirst]
        | stop => simp [Verdict.Gives]
      | last o => simp [hc, he, Verdict.ends] at hline
      | stop => simp [hc, he, Verdict.ends] at hline
    | emit o =>
      cases he : expect line <;> simp [Verdict.Gives, first, live, hc, he]
    | last o =>
      simp [Verdict.Gives, first, live, emitted, hc, hlast line o hc, Verdict.ends]
    | stop =>
      cases he : expect line with
      | skip => simp [hc, he, Verdict.ends] at hline
      | emit o => simp [hc, he, Verdict.ends] at hline
      | last o => simp [Verdict.Gives, first, live, emitted, hc, he]
      | stop => simp [Verdict.Gives, first, live, emitted, hc, he, Verdict.ends]

end Emitted

/-! ### The reader -/

/-- What is found in a buffer. -/
inductive Scan (α ω : Type*) where
  /-- Nothing, up to here. -/
  | more (buffer : List α)
  /-- An item, with this left. -/
  | emit (o : ω) (buffer : List α)
  /-- A last item, with this left. -/
  | last (o : ω) (buffer : List α)
  /-- The end. -/
  | stop

/-- What is found in a buffer and in chunks. -/
inductive Read (α ω : Type*) where
  /-- An item, with this left of the buffer and of the chunks. -/
  | emit (o : ω) (buffer : List α) (chunks : List (Except ω (List α)))
  /-- A last item, with this left of the buffer. -/
  | last (o : ω) (buffer : List α)
  /-- Nothing. -/
  | closed

section Reader

variable [DecidableEq α] (nl : α)

/-- Takes lines off the buffer, to the first that gives something. -/
def scan (buffer : List α) : Scan α ω :=
  match _h : takeLine nl buffer with
  | none => .more buffer
  | some (line, after) => match classify line with
    | .skip => scan after
    | .emit o => .emit o after
    | .last o => .last o after
    | .stop => .stop
termination_by buffer.length
decreasing_by exact length_of_takeLine _h

/-- Takes chunks into the buffer, to the first line that gives something.  A chunk that failed is a last
item.  What is in the buffer at first is not looked at before a chunk has come. -/
def read (buffer : List α) : List (Except ω (List α)) → Read α ω
  | [] => .closed
  | .error o :: _ => .last o buffer
  | .ok chunk :: chunks => match scan classify nl (buffer ++ chunk) with
    | .more buffer => read buffer chunks
    | .emit o buffer => .emit o buffer chunks
    | .last o buffer => .last o buffer
    | .stop => .closed

/-- What is read of chunks that all come, one item after the other. -/
def outputs (buffer : List α) : List (List α) → List ω
  | [] => []
  | chunk :: chunks => match scan classify nl (buffer ++ chunk) with
    | .more buffer => outputs buffer chunks
    | .emit o buffer => o :: outputs buffer chunks
    | .last o _ => [o]
    | .stop => []

section

variable {classify nl}

theorem scan_of_none {buffer : List α} (h : takeLine nl buffer = none) :
    scan classify nl buffer = .more buffer := by
  rw [scan]
  split
  · rfl
  · next hsome => rw [h] at hsome; cases hsome

theorem scan_of_some {buffer line after : List α} (h : takeLine nl buffer = some (line, after)) :
    scan classify nl buffer = match classify line with
      | .skip => scan classify nl after
      | .emit o => .emit o after
      | .last o => .last o after
      | .stop => .stop := by
  rw [scan]
  split
  · next hnone => rw [h] at hnone; cases hnone
  · next hsome =>
    rw [h] at hsome
    obtain ⟨rfl, rfl⟩ := Prod.mk.inj (Option.some.inj hsome)
    rfl

end

/-- What is found is the first that the lines give, whatever comes behind them. -/
theorem scan_spec (buffer after : List α) :
    match scan classify nl buffer with
    | .more buffer' => lines nl buffer' = [] ∧ emitted classify (lines nl buffer) = [] ∧
        emitted classify (lines nl (buffer ++ after)) = emitted classify (lines nl (buffer' ++ after))
    | .emit o buffer' => emitted classify (lines nl (buffer ++ after)) =
        o :: emitted classify (lines nl (buffer' ++ after))
    | .last o _ => emitted classify (lines nl (buffer ++ after)) = [o]
    | .stop => emitted classify (lines nl (buffer ++ after)) = [] := by
  induction h : buffer.length using Nat.strongRecOn generalizing buffer with
  | _ n ih =>
    cases htake : takeLine nl buffer with
    | none =>
      have hlines := (lines_eq_nil_of_takeLine htake).1
      rw [scan_of_none htake]
      exact ⟨hlines, by rw [hlines]; rfl, rfl⟩
    | some p =>
      obtain ⟨line, rest⟩ := p
      have hall := lines_of_takeLine htake
      have hfirst : lines nl buffer = line :: lines nl rest := by simpa using hall []
      have hrest := ih rest.length (h ▸ length_of_takeLine htake) rest rfl
      rw [scan_of_some htake]
      cases hc : classify line with
      | skip =>
        simp only [hall, hfirst, emitted, hc]
        exact hrest
      | emit o => simp only [hall, emitted, hc]
      | last o => simp only [hall, emitted, hc]
      | stop => simp only [hall, emitted, hc]

/-- What is found is the first verdict that is not to go on. -/
theorem scan_first (buffer after : List α) :
    match scan classify nl buffer with
    | .more buffer' => lines nl buffer' = [] ∧
        first classify (lines nl (buffer ++ after)) = first classify (lines nl (buffer' ++ after))
    | .emit o _ => first classify (lines nl (buffer ++ after)) = .emit o
    | .last o _ => first classify (lines nl (buffer ++ after)) = .last o
    | .stop => first classify (lines nl (buffer ++ after)) = .stop := by
  induction h : buffer.length using Nat.strongRecOn generalizing buffer with
  | _ n ih =>
    cases htake : takeLine nl buffer with
    | none =>
      rw [scan_of_none htake]
      exact ⟨(lines_eq_nil_of_takeLine htake).1, rfl⟩
    | some p =>
      obtain ⟨line, rest⟩ := p
      have hall := lines_of_takeLine htake
      have hrest := ih rest.length (h ▸ length_of_takeLine htake) rest rfl
      rw [scan_of_some htake]
      cases hc : classify line with
      | skip =>
        simp only [hall, first, hc]
        exact hrest
      | emit o => simp only [hall, first, hc]
      | last o => simp only [hall, first, hc]
      | stop => simp only [hall, first, hc]

/-- A buffer without a line and chunks that all come are read to the first verdict that is not to go on. -/
theorem read_first (chunks : List (List α)) {buffer : List α} (hbuffer : lines nl buffer = []) :
    match read classify nl buffer (chunks.map .ok) with
    | .emit o _ _ => first classify (lines nl (buffer ++ chunks.flatten)) = .emit o
    | .last o _ => first classify (lines nl (buffer ++ chunks.flatten)) = .last o
    | .closed => first classify (lines nl (buffer ++ chunks.flatten)) = .skip ∨
        first classify (lines nl (buffer ++ chunks.flatten)) = .stop := by
  induction chunks generalizing buffer with
  | nil => exact .inl (by rw [List.flatten_nil, List.append_nil, hbuffer]; rfl)
  | cons chunk chunks ih =>
    have hscan := scan_first classify nl (buffer ++ chunk) chunks.flatten
    rw [List.map_cons, read, List.flatten_cons, ← List.append_assoc]
    cases hfound : scan classify nl (buffer ++ chunk) with
    | more buffer' =>
      rw [hfound] at hscan
      rw [hscan.2]
      exact ih hscan.1
    | emit o buffer' =>
      rw [hfound] at hscan
      exact hscan
    | last o buffer' =>
      rw [hfound] at hscan
      exact hscan
    | stop =>
      rw [hfound] at hscan
      exact .inr hscan

theorem read_cons (buffer chunk : List α) (chunks : List (Except ω (List α))) :
    read classify nl buffer (.ok chunk :: chunks) =
      match scan classify nl (buffer ++ chunk) with
      | .more buffer' => read classify nl buffer' chunks
      | .emit o buffer' => .emit o buffer' chunks
      | .last o buffer' => .last o buffer'
      | .stop => .closed := by
  rw [read]

/-- What is read comes first in what the lines give. -/
theorem outputs_initial (chunks : List (List α)) (buffer : List α) :
    outputs classify nl buffer chunks <+: emitted classify (lines nl (buffer ++ chunks.flatten)) := by
  induction chunks generalizing buffer with
  | nil => exact List.nil_prefix
  | cons chunk chunks ih =>
    have hscan := scan_spec classify nl (buffer ++ chunk) chunks.flatten
    rw [outputs, List.flatten_cons, ← List.append_assoc]
    cases hfound : scan classify nl (buffer ++ chunk) with
    | more buffer' =>
      rw [hfound] at hscan
      rw [hscan.2.2]
      exact ih _
    | emit o buffer' =>
      simp only [hfound] at hscan
      rw [hscan]
      exact List.cons_prefix_cons.mpr ⟨rfl, ih _⟩
    | last o buffer' =>
      simp only [hfound] at hscan
      rw [hscan]
    | stop =>
      simp only [hfound] at hscan
      rw [hscan]

/-- A chunk gives an item at most. -/
theorem length_outputs_append_le (chunks more : List (List α)) (buffer : List α) :
    (outputs classify nl buffer (chunks ++ more)).length ≤
      (outputs classify nl buffer chunks).length + more.length := by
  induction chunks generalizing buffer with
  | nil =>
    simp only [List.nil_append, outputs, List.length_nil, Nat.zero_add]
    induction more generalizing buffer with
    | nil => exact le_rfl
    | cons chunk more ih =>
      rw [outputs, List.length_cons]
      cases scan classify nl (buffer ++ chunk) with
      | more buffer' => exact (ih buffer').trans (Nat.le_succ _)
      | emit o buffer' => exact Nat.succ_le_succ (ih buffer')
      | last o buffer' => exact Nat.succ_le_succ (Nat.zero_le _)
      | stop => exact Nat.zero_le _
  | cons chunk chunks ih =>
    rw [List.cons_append, outputs, outputs]
    cases scan classify nl (buffer ++ chunk) with
    | more buffer' => exact ih buffer'
    | emit o buffer' =>
      have hrest := ih buffer'
      simp only [List.length_cons]
      omega
    | last o buffer' => exact Nat.le_add_right _ _
    | stop => exact Nat.zero_le _

/-- All items are read, if never more of them are waiting than chunks are still to come. -/
theorem outputs_eq_of_le (chunks : List (List α)) (buffer : List α)
    (hall : (emitted classify (lines nl (buffer ++ chunks.flatten))).length ≤ chunks.length)
    (hlate : ∀ i, 1 ≤ i → i ≤ chunks.length →
      (emitted classify (lines nl (buffer ++ chunks.flatten))).length ≤
        (emitted classify (lines nl (buffer ++ (chunks.take i).flatten))).length +
          (chunks.length - i)) :
    outputs classify nl buffer chunks = emitted classify (lines nl (buffer ++ chunks.flatten)) := by
  induction chunks generalizing buffer with
  | nil => exact (List.length_eq_zero_iff.mp (Nat.le_zero.mp hall)).symm
  | cons chunk chunks ih =>
    have hscan := fun after : List α =>
      scan_spec classify nl (buffer ++ chunk) after
    have hnow := hlate 1 le_rfl (Nat.succ_le_succ (Nat.zero_le _))
    have hnext : ∀ i, i ≤ chunks.length → _ := fun i hi =>
      hlate (i + 1) (Nat.succ_le_succ (Nat.zero_le _)) (Nat.succ_le_succ hi)
    simp only [List.flatten_cons, List.take_succ_cons, ← List.append_assoc, List.take_zero,
      List.flatten_nil, List.append_nil, List.length_cons] at hall hnow hnext ⊢
    rw [outputs]
    cases hfound : scan classify nl (buffer ++ chunk) with
    -- The chunk completes no output: the condition on the rest is the one on the whole.
    | more buffer' =>
      simp only [hfound] at hscan
      have hnone := (hscan []).2.1
      rw [hnone] at hnow
      simp only [fun after => (hscan after).2.2] at hall hnow hnext ⊢
      refine ih buffer' (by simpa using hnow) fun i _ hi => ?_
      have hi' := hnext i hi
      omega
    -- One poll, one chunk, one output: both sides of the condition lose one.
    | emit o buffer' =>
      simp only [hfound] at hscan
      simp only [hscan, List.length_cons] at hall hnext ⊢
      rw [ih buffer' (by omega) fun i _ hi => ?_]
      have hi' := hnext i hi
      omega
    | last o buffer' =>
      simp only [hfound] at hscan
      simp only [hscan]
    | stop =>
      simp only [hfound] at hscan
      simp only [hscan]

/-- **When nothing is missed**: the last chunks, however many, complete no more items than they are. -/
theorem outputs_eq_iff (chunks : List (List α)) :
    outputs classify nl [] chunks = emitted classify (lines nl chunks.flatten) ↔
      ∀ i ≤ chunks.length, (emitted classify (lines nl chunks.flatten)).length ≤
        (emitted classify (lines nl (chunks.take i).flatten)).length + (chunks.length - i) := by
  constructor
  · intro hout i hi
    have hlength := length_outputs_append_le classify nl (chunks.take i) (chunks.drop i) []
    rw [List.take_append_drop, hout, List.length_drop] at hlength
    have hprefix := (outputs_initial classify nl (chunks.take i) []).length_le
    rw [List.nil_append] at hprefix
    omega
  · intro hle
    have hnil : emitted classify (lines nl ([] : List α)) = [] := rfl
    have hzero := hle 0 (Nat.zero_le _)
    exact outputs_eq_of_le classify nl chunks [] (by simpa [hnil] using hzero) fun i _ hi => hle i hi

end Reader

/-! ### Streams that are polled -/

section Streams

variable {σ : Type*}

/-- What is got from a stream that is polled to its end, and what the polls cost together. -/
inductive Consumed (poll : σ → ℕ × Option (ω × σ)) : σ → List ω → ℕ → Prop
  | ended {s : σ} {cost : ℕ} (h : poll s = (cost, none)) : Consumed poll s [] cost
  | next {s s' : σ} {o : ω} {os : List ω} {cost more : ℕ} (h : poll s = (cost, some (o, s')))
      (hmore : Consumed poll s' os more) : Consumed poll s (o :: os) (cost + more)

variable {poll : σ → ℕ × Option (ω × σ)} {s s' : σ} {o : ω} {os : List ω} {cost c : ℕ}

/-- A stream that is over. -/
theorem consumed_of_none (h : poll s = (c, none)) : Consumed poll s os cost ↔ os = [] ∧ cost = c := by
  constructor
  · intro hs
    cases hs with
    | ended hend =>
      rw [h] at hend
      exact ⟨rfl, (Prod.mk.inj hend).1.symm⟩
    | next hnext =>
      rw [h] at hnext
      cases (Prod.mk.inj hnext).2
  · rintro ⟨rfl, rfl⟩
    exact .ended h

/-- A stream that gives an item. -/
theorem consumed_of_some (h : poll s = (c, some (o, s'))) :
    Consumed poll s os cost ↔ ∃ os' more, Consumed poll s' os' more ∧ os = o :: os' ∧ cost = c + more := by
  constructor
  · intro hs
    cases hs with
    | ended hend =>
      rw [h] at hend
      cases (Prod.mk.inj hend).2
    | next hnext hmore =>
      rw [h] at hnext
      obtain ⟨rfl, hsome⟩ := Prod.mk.inj hnext
      obtain ⟨rfl, rfl⟩ := Prod.mk.inj (Option.some.inj hsome)
      exact ⟨_, _, hmore, rfl, rfl⟩
  · rintro ⟨os', more, hmore, rfl, rfl⟩
    exact .next h hmore

/-- There is only one way to poll a stream. -/
theorem Consumed.unique {os' : List ω} {cost' : ℕ} (h : Consumed poll s os cost)
    (h' : Consumed poll s os' cost') : os = os' ∧ cost = cost' := by
  induction h generalizing os' cost' with
  | ended h =>
    obtain ⟨rfl, rfl⟩ := (consumed_of_none h).mp h'
    exact ⟨rfl, rfl⟩
  | next h _ ih =>
    obtain ⟨os', more, hmore, rfl, rfl⟩ := (consumed_of_some h).mp h'
    obtain ⟨rfl, rfl⟩ := ih hmore
    exact ⟨rfl, rfl⟩

/-- A stream that starts like another, at a further cost. -/
theorem Consumed.raise (h : Consumed poll s os cost) {extra : ℕ}
    (hpoll : poll s' = (extra + (poll s).1, (poll s).2)) : Consumed poll s' os (extra + cost) := by
  cases h with
  | ended h =>
    rw [h] at hpoll
    exact .ended hpoll
  | next h hmore =>
    rw [h] at hpoll
    rw [← Nat.add_assoc]
    exact .next hpoll hmore

end Streams

end LineReader
