import Juncture.Lib.Quoting
import Juncture.Store.Filters
import Mathlib.Tactic.Common

/-!
# Clauses in pieces

A clause is made of pieces: code, the name of a field in a literal, and a placeholder for a value.  Its
text is these pieces written one after the other; in PostgreSQL the placeholders are numbered afterwards,
in the text, wherever there is a question mark.

* `Piece` : what a clause says, apart from how it is written down.
* `structureOf` : a text with its literals blanked out, which is what its clauses are.
* `Fills` : the placeholders of a text stand for the parameters.

A text has no comments here: what a comment would hide counts as code.
-/

namespace Juncture

open Quoting

/-- The quote around literals. -/
abbrev quote : Char := '\''

/-- The tokens of a text: its clauses, with each literal blanked out. -/
def structureOf (sql : String) : List (Token Char) := tokens quote .code sql.toList

/-- A piece of a clause. -/
inductive Piece (P : Type) where
  | code (s : List Char)
  /-- What is in the literal that names a field. -/
  | name (bs : List Char)
  /-- A placeholder for a value. -/
  | value (p : P)

/-- How placeholders are written: the `n`th is a marker and then `digits n`. -/
structure Placeholders where
  /-- The marker. -/
  marker : Char
  /-- The number of the placeholder, where it has one. -/
  digits : ℕ → List Char

/-- SQLite: all placeholders are `?`. -/
def sqlitePlaceholders : Placeholders := ⟨'?', fun _ => []⟩

/-- PostgreSQL: `$1`, `$2` and so on. -/
def postgresPlaceholders : Placeholders := ⟨'$', fun n => (toString n).toList⟩

/-- The text of placeholder `n`. -/
def Placeholders.text (ph : Placeholders) (n : ℕ) : List Char := ph.marker :: ph.digits n

/-- No digit comes next. -/
def NoDigit (ts : List (Token Char)) : Prop := ∀ c, ts.head? = some (.code c) → c.isDigit = false

/-- From number `n` on, the placeholders among the tokens stand for the parameters, each for one and in
their order; `out` has the parameters in the places of the placeholders. -/
inductive Fills {P : Type} (ph : Placeholders) :
    ℕ → List (Token Char) → List (Token Char ⊕ P) → List P → Prop where
  | nil (n : ℕ) : Fills ph n [] [] []
  | param {n : ℕ} {ts : List (Token Char)} {out : List (Token Char ⊕ P)} {params : List P} (p : P)
      (hnext : NoDigit ts) (hrest : Fills ph (n + 1) ts out params) :
      Fills ph n ((ph.text n).map .code ++ ts) (.inr p :: out) (p :: params)
  | token {n : ℕ} {ts : List (Token Char)} {out : List (Token Char ⊕ P)} {params : List P}
      (t : Token Char) (ht : t ≠ .code ph.marker) (hrest : Fills ph n ts out params) :
      Fills ph n (t :: ts) (.inl t :: out) params

/-! ### Pieces -/

namespace Piece

variable {P Q : Type}

/-- The tokens of a clause, with the values in the places of the placeholders. -/
def filled : List (Piece P) → List (Token Char ⊕ P)
  | [] => []
  | .code s :: ps => s.map (fun c => .inl (.code c)) ++ filled ps
  | .name _ :: ps => .inl .literal :: filled ps
  | .value p :: ps => .inr p :: filled ps

/-- The values. -/
def values : List (Piece P) → List P
  | [] => []
  | .value p :: ps => p :: values ps
  | _ :: ps => values ps

/-- The literals. -/
def names : List (Piece P) → List (List Char)
  | [] => []
  | .name bs :: ps => bs :: names ps
  | _ :: ps => names ps

/-- The text, with `?` for each placeholder. -/
def text : List (Piece P) → List Char
  | [] => []
  | .code s :: ps => s ++ text ps
  | .name bs :: ps => quote :: (bs ++ quote :: text ps)
  | .value _ :: ps => '?' :: text ps

/-- The same pieces with other values. -/
def mapValue (f : P → Q) : Piece P → Piece Q
  | .code s => .code s
  | .name bs => .name bs
  | .value p => .value (f p)

/-- Each `?` of a text becomes a placeholder, from number `n` on. -/
def number (ph : Placeholders) : ℕ → List Char → List Char
  | _, [] => []
  | n, c :: cs => if c = '?' then ph.text n ++ number ph (n + 1) cs else c :: number ph n cs

/-- Code and literals, when the placeholders are written from number `n` on; what looks like one in a
literal is counted as well. -/
def frags (ph : Placeholders) : ℕ → List (Piece P) → List (Frag Char)
  | _, [] => []
  | n, .code s :: ps => .code s :: frags ph n ps
  | n, .name bs :: ps => .body (number ph n bs) :: frags ph (n + bs.count '?') ps
  | n, .value _ :: ps => .code (ph.text n) :: frags ph (n + 1) ps

/-- The text of the pieces does not start with a digit. -/
def StartsNoDigit : List (Piece P) → Prop
  | [] => True
  | .code [] :: ps => StartsNoDigit ps
  | .code (c :: _) :: _ => c.isDigit = false
  | _ :: _ => True

/-- Code has no quotes and nothing like a placeholder; a literal starts with `x`, code that does not
comes next, and a value later; after a value comes no digit. -/
def WellFormed (x : Char) : List (Piece P) → Prop
  | [] => True
  | .code s :: ps => (∀ c ∈ s, c ≠ quote ∧ c ≠ '?' ∧ c ≠ '$') ∧ WellFormed x ps
  | .name bs :: ps => (∃ rest, bs = x :: rest) ∧ (∃ y ys ps', ps = .code (y :: ys) :: ps' ∧ y ≠ x) ∧
    (∃ p, .value p ∈ ps) ∧ WellFormed x ps
  | .value _ :: ps => StartsNoDigit ps ∧ WellFormed x ps

/-- The check of a piece of code, character by character. -/
theorem isCode_of_all {s : List Char} (h : s.all (fun c => c != quote && c != '?' && c != '$') = true) :
    ∀ c ∈ s, c ≠ quote ∧ c ≠ '?' ∧ c ≠ '$' := by
  intro c hc
  have hall := List.all_eq_true.mp h c hc
  simpa only [Bool.and_eq_true, bne_iff_ne, and_assoc] using hall

/-- The check of a text that is code.  A literal is the text of its characters, so that it need not be
decoded. -/
theorem isCode_ofList {s : List Char} (h : s.all (fun c => c != quote && c != '?' && c != '$') = true) :
    ∀ c ∈ (String.ofList s).toList, c ≠ quote ∧ c ≠ '?' ∧ c ≠ '$' := by
  rw [String.toList_ofList]
  exact isCode_of_all h

/-- The check of the first character. -/
theorem noDigit_of_all {s : List Char} (h : s.head?.all (fun c => !c.isDigit) = true) :
    ∀ c ∈ s.head?, c.isDigit = false := by
  intro c hc
  rw [Option.mem_def.mp hc] at h
  simpa using h

theorem startsNoDigit_append {ps qs : List (Piece P)} (hps : StartsNoDigit ps)
    (hqs : StartsNoDigit qs) : StartsNoDigit (ps ++ qs) := by
  induction ps with
  | nil => exact hqs
  | cons p ps ih =>
    cases p with
    | code s =>
      cases s with
      | nil => exact ih hps
      | cons c s => exact hps
    | name bs => trivial
    | value p => trivial

theorem wellFormed_append {x : Char} {ps qs : List (Piece P)} (hps : WellFormed x ps)
    (hqs : WellFormed x qs) (hstart : StartsNoDigit qs) : WellFormed x (ps ++ qs) := by
  induction ps with
  | nil => exact hqs
  | cons p ps ih =>
    cases p with
    | code s => exact ⟨hps.1, ih hps.2⟩
    | name bs =>
      obtain ⟨hfirst, ⟨y, ys, ps', rfl, hy⟩, ⟨v, hv⟩, hrest⟩ := hps
      exact ⟨hfirst, ⟨y, ys, ps' ++ qs, rfl, hy⟩, ⟨v, List.mem_append_left _ hv⟩, ih hrest⟩
    | value p => exact ⟨startsNoDigit_append hps.1 hstart, ih hps.2⟩

@[simp] theorem text_append (ps qs : List (Piece P)) : text (ps ++ qs) = text ps ++ text qs := by
  induction ps with
  | nil => rfl
  | cons p ps ih => cases p <;> simp [text, ih]

@[simp] theorem values_append (ps qs : List (Piece P)) :
    values (ps ++ qs) = values ps ++ values qs := by
  induction ps with
  | nil => rfl
  | cons p ps ih => cases p <;> simp [values, ih]

@[simp] theorem names_append (ps qs : List (Piece P)) : names (ps ++ qs) = names ps ++ names qs := by
  induction ps with
  | nil => rfl
  | cons p ps ih => cases p <;> simp [names, ih]

/-! ### Numbering -/

@[simp] theorem number_sqlite (n : ℕ) (cs : List Char) : number sqlitePlaceholders n cs = cs := by
  induction cs generalizing n with
  | nil => rfl
  | cons c cs ih =>
    by_cases hc : c = '?'
    · rw [number, if_pos hc, ih, hc]
      rfl
    · rw [number, if_neg hc, ih]

theorem number_of_not_mem {ph : Placeholders} {n : ℕ} {cs : List Char} (h : '?' ∉ cs) :
    number ph n cs = cs := by
  induction cs with
  | nil => rfl
  | cons c cs ih =>
    rw [List.mem_cons, not_or] at h
    rw [number, if_neg (Ne.symm h.1), ih h.2]

theorem number_append (ph : Placeholders) (n : ℕ) (as bs : List Char) :
    number ph n (as ++ bs) = number ph n as ++ number ph (n + as.count '?') bs := by
  induction as generalizing n with
  | nil => rfl
  | cons c cs ih =>
    by_cases hc : c = '?'
    · simp only [List.cons_append, number, if_pos hc, ih, List.append_assoc]
      rw [hc, List.count_cons_self, Nat.add_right_comm, Nat.add_assoc]
    · simp only [List.cons_append, number, if_neg hc, ih]
      rw [List.count_cons_of_ne hc]

/-- Numbering the placeholders of the text numbers those of the pieces. -/
theorem number_text {x : Char} (ph : Placeholders) (n : ℕ) {ps : List (Piece P)}
    (h : WellFormed x ps) : number ph n (text ps) = Frag.flatten quote (frags ph n ps) := by
  induction ps generalizing n with
  | nil => rfl
  | cons p ps ih =>
    cases p with
    | code s =>
      have hs : '?' ∉ s := fun hmem => (h.1 _ hmem).2.1 rfl
      rw [text, number_append, number_of_not_mem hs, List.count_eq_zero.2 hs, frags, Frag.flatten,
        Nat.add_zero, ih n h.2]
    | name bs =>
      have hrest : number ph (n + bs.count '?') (quote :: text ps) =
          quote :: number ph (n + bs.count '?') (text ps) := rfl
      rw [text, frags, Frag.flatten, number, if_neg (by decide), number_append, hrest,
        ih _ h.2.2.2]
    | value p =>
      rw [text, frags, Frag.flatten, number, if_pos rfl, ih _ h.2]

/-! ### The literals -/

/-- Numbering leaves the quotes alone. -/
theorem paired_number {ph : Placeholders} (hph : ∀ n, quote ∉ ph.text n) (n : ℕ) (cs : List Char) :
    Paired quote (number ph n cs) ↔ Paired quote cs := by
  -- what is not a quote is passed over, numbered or not
  have hskip : ∀ n c cs, c ≠ quote → (∀ n, Paired quote (number ph n cs) ↔ Paired quote cs) →
      (Paired quote (number ph n (c :: cs)) ↔ Paired quote (c :: cs)) := by
    intro n c cs hc ih
    rw [paired_cons_of_ne hc]
    by_cases hmark : c = '?'
    · rw [number, if_pos hmark, paired_append_of_not_mem (hph n)]
      exact ih (n + 1)
    · rw [number, if_neg hmark, paired_cons_of_ne hc]
      exact ih n
  induction cs using Paired.induct quote generalizing n with
  | case1 => exact Iff.rfl
  | case2 c =>
    by_cases hc : c = quote
    · rw [hc]
      exact Iff.rfl
    · exact hskip n c [] hc fun _ => Iff.rfl
  | case3 d cs ih =>
    rw [number, if_neg (by decide)]
    by_cases hd : d = quote
    · rw [hd, number, if_neg (by decide), Paired, Paired, if_pos rfl, if_pos rfl]
      exact and_congr_right fun _ => ih n
    · refine iff_of_false ?_ (by simp [Paired, hd])
      by_cases hmark : d = '?'
      · rw [number, if_pos hmark, Placeholders.text, List.cons_append, Paired, if_pos rfl]
        exact fun h => hph n (h.1 ▸ List.mem_cons_self)
      · rw [number, if_neg hmark, Paired, if_pos rfl]
        exact fun h => hd h.1
  | case4 c d cs hc ih => exact hskip n c (d :: cs) hc ih

/-- The literals stay closed exactly if in each of them all quotes come in pairs. -/
theorem sealed_frags_iff {ph : Placeholders} (hph : ∀ n, quote ∉ ph.text n) (n : ℕ)
    (ps : List (Piece P)) : (∀ bs, .body bs ∈ frags ph n ps → Sealed quote bs) ↔
      ∀ bs ∈ names ps, Paired quote bs := by
  induction ps generalizing n with
  | nil => simp [frags, names]
  | cons p ps ih =>
    cases p with
    | code s => simpa [frags, names] using ih n
    | name bs =>
      have hrest := ih (n + bs.count '?')
      simp only [sealed_iff_paired] at hrest ⊢
      simp [frags, names, hrest, paired_number hph]
    | value p => simpa [frags, names] using ih (n + 1)

theorem bodies_frags (ph : Placeholders) (n : ℕ) (ps : List (Piece P)) :
    Frag.bodies (frags ph n ps) = (names ps).length := by
  induction ps generalizing n with
  | nil => rfl
  | cons p ps ih => cases p <;> simp [frags, Frag.bodies, names, ih]

theorem guarded_frags {ph : Placeholders} (hph : ∀ n, quote ∉ ph.text n) {x : Char} (hx : x ≠ '?')
    (n : ℕ) {ps : List (Piece P)} (h : WellFormed x ps) : Frag.Guarded quote x (frags ph n ps) := by
  induction ps generalizing n with
  | nil => trivial
  | cons p ps ih =>
    cases p with
    | code s => exact ⟨fun hmem => (h.1 _ hmem).1 rfl, ih n h.2⟩
    | name bs =>
      obtain ⟨⟨rest, rfl⟩, ⟨y, ys, ps', rfl, hy⟩, -, hrest⟩ := h
      refine ⟨⟨number ph n rest, by rw [number, if_neg hx]⟩, ⟨y, ys, _, rfl, hy⟩, ih _ hrest⟩
    | value p => exact ⟨hph n, ih _ h.2⟩

/-! ### The placeholders -/

theorem noDigit_shape {ph : Placeholders} (hph : ph.marker.isDigit = false) (n : ℕ)
    {ps : List (Piece P)} (h : StartsNoDigit ps) : NoDigit (Frag.shape (frags ph n ps)) := by
  induction ps with
  | nil => exact fun c hc => by simp [frags, Frag.shape] at hc
  | cons p ps ih =>
    intro c hc
    cases p with
    | code s =>
      cases s with
      | nil => exact ih h c hc
      | cons d s =>
        simp only [frags, Frag.shape, List.map_cons, List.cons_append, List.head?_cons,
          Option.some.injEq, Token.code.injEq] at hc
        exact hc ▸ h
    | name bs => simp [frags, Frag.shape] at hc
    | value p =>
      simp only [frags, Frag.shape, Placeholders.text, List.map_cons, List.cons_append,
        List.head?_cons, Option.some.injEq, Token.code.injEq] at hc
      exact hc ▸ hph

/-- If all placeholders are written alike, it does not matter from which number on. -/
theorem shape_frags_congr {ph : Placeholders} (hph : ∀ m n, ph.text m = ph.text n) (m n : ℕ)
    (ps : List (Piece P)) : Frag.shape (frags ph m ps) = Frag.shape (frags ph n ps) := by
  induction ps generalizing m n with
  | nil => rfl
  | cons p ps ih =>
    cases p with
    | code s => simp only [frags, Frag.shape, ih m n]
    | name bs => simp only [frags, Frag.shape, ih (m + bs.count '?') (n + bs.count '?')]
    | value p => simp only [frags, Frag.shape, ih (m + 1) (n + 1), hph m n]

theorem Fills.code {ph : Placeholders} {n : ℕ} {ts : List (Token Char)} {out : List (Token Char ⊕ P)}
    {params : List P} {s : List Char} (hs : ph.marker ∉ s) (h : Fills ph n ts out params) :
    Fills ph n (s.map .code ++ ts) (s.map (fun c => .inl (.code c)) ++ out) params := by
  induction s with
  | nil => exact h
  | cons c s ih =>
    rw [List.mem_cons, not_or] at hs
    exact .token _ (fun heq => hs.1 (Token.code.inj heq).symm) (ih hs.2)

/-- The placeholders stand for the values, if they are written alike or none is in a literal. -/
theorem fills_shape {ph : Placeholders} (hmarker : ph.marker = '?' ∨ ph.marker = '$') {x : Char}
    {ps : List (Piece P)} (h : WellFormed x ps)
    (hph : (∀ m n, ph.text m = ph.text n) ∨ ∀ bs ∈ names ps, '?' ∉ bs) (n : ℕ) :
    Fills ph n (Frag.shape (frags ph n ps)) (filled ps) (values ps) := by
  induction ps generalizing n with
  | nil => exact .nil n
  | cons p ps ih =>
    cases p with
    | code s =>
      refine Fills.code (fun hmem => ?_) (ih h.2 hph n)
      obtain ⟨-, hmark, hdollar⟩ := h.1 _ hmem
      exact hmarker.elim hmark hdollar
    | name bs =>
      refine .token _ (by simp) ?_
      obtain hph | hph := hph
      · rw [shape_frags_congr hph _ n]
        exact ih h.2.2.2 (.inl hph) n
      · rw [List.count_eq_zero.2 (hph bs List.mem_cons_self), Nat.add_zero]
        exact ih h.2.2.2 (.inr fun bs' hbs' => hph bs' (.tail _ hbs')) n
    | value p =>
      refine .param p (noDigit_shape ?_ _ h.1) (ih h.2 hph (n + 1))
      obtain hmark | hmark := hmarker <;> rw [hmark] <;> decide

/-- Two runs of digits with something else behind are equal if they are followed alike. -/
theorem digits_append_inj {as bs : List Char} {ts us : List (Token Char)}
    (has : ∀ c ∈ as, c.isDigit = true) (hbs : ∀ c ∈ bs, c.isDigit = true) (hts : NoDigit ts)
    (hus : NoDigit us) (h : as.map Token.code ++ ts = bs.map Token.code ++ us) : as = bs ∧ ts = us := by
  induction as generalizing bs with
  | nil =>
    cases bs with
    | nil => exact ⟨rfl, h⟩
    | cons b bs =>
      have hdigit := hts b (by rw [List.map_nil, List.nil_append] at h; rw [h]; rfl)
      rw [hbs b List.mem_cons_self] at hdigit
      cases hdigit
  | cons a as ih =>
    cases bs with
    | nil =>
      have hdigit := hus a (by rw [List.map_nil, List.nil_append] at h; rw [← h]; rfl)
      rw [has a List.mem_cons_self] at hdigit
      cases hdigit
    | cons b bs =>
      simp only [List.map_cons, List.cons_append, List.cons.injEq, Token.code.injEq] at h
      obtain ⟨rfl, hrest⟩ := h
      obtain ⟨rfl, rfl⟩ := ih (fun c hc => has c (.tail _ hc)) (fun c hc => hbs c (.tail _ hc)) hrest
      exact ⟨rfl, rfl⟩

theorem Fills.inl_inv {ph : Placeholders} {n : ℕ} {ts : List (Token Char)} {t : Token Char}
    {out : List (Token Char ⊕ P)} {params : List P} (h : Fills ph n ts (.inl t :: out) params) :
    ∃ rest, ts = t :: rest ∧ Fills ph n rest out params := by
  generalize hout : Sum.inl t :: out = out' at h
  cases h with
  | nil => cases hout
  | param p hnext hrest => cases hout
  | token t ht hrest =>
    cases hout
    exact ⟨_, rfl, hrest⟩

theorem Fills.inr_inv {ph : Placeholders} {n : ℕ} {ts : List (Token Char)} {p : P}
    {out : List (Token Char ⊕ P)} {params : List P}
    (h : Fills ph n ts (.inr p :: out) (p :: params)) :
    ∃ rest, ts = (ph.text n).map .code ++ rest ∧ NoDigit rest ∧ Fills ph (n + 1) rest out params := by
  generalize hout : Sum.inr p :: out = out' at h
  generalize hparams : p :: params = params' at h
  cases h with
  | nil => cases hout
  | param p hnext hrest =>
    cases hout
    cases hparams
    exact ⟨_, rfl, hnext, hrest⟩
  | token t ht hrest => cases hout

theorem Fills.of_code {ph : Placeholders} {n : ℕ} {ts : List (Token Char)}
    {out : List (Token Char ⊕ P)} {params : List P} {s : List Char}
    (h : Fills ph n (s.map .code ++ ts) (s.map (fun c => .inl (.code c)) ++ out) params) :
    Fills ph n ts out params := by
  induction s with
  | nil => exact h
  | cons c s ih =>
    obtain ⟨rest, heq, hrest⟩ := Fills.inl_inv h
    rw [List.map_cons, List.cons_append] at heq
    exact ih ((List.cons.inj heq).2 ▸ hrest)

theorem isDigit_digits (n : ℕ) : ∀ c ∈ postgresPlaceholders.digits n, c.isDigit = true := by
  intro c hc
  simp only [postgresPlaceholders, Nat.toString_eq_repr, Nat.toList_repr] at hc
  exact Nat.isDigit_of_mem_toDigits (by decide) (by decide) hc

theorem digits_injective {m n : ℕ}
    (h : postgresPlaceholders.digits m = postgresPlaceholders.digits n) : m = n := by
  simp only [postgresPlaceholders, Nat.toString_eq_repr, Nat.toList_repr] at h
  rw [← Nat.ofDigitChars_ten_toDigits (n := m), h, Nat.ofDigitChars_ten_toDigits]

/-- Numbered placeholders stand for the values only if no placeholder is counted in a literal. -/
theorem not_mem_names_of_fills {x : Char} {ps : List (Piece P)} (h : WellFormed x ps) {n d : ℕ}
    (hfills : Fills postgresPlaceholders n (Frag.shape (frags postgresPlaceholders (n + d) ps))
      (filled ps) (values ps)) :
    ((∃ p, .value p ∈ ps) → d = 0) ∧ ∀ bs ∈ names ps, '?' ∉ bs := by
  induction ps generalizing n d with
  | nil => exact ⟨fun ⟨p, hp⟩ => absurd hp List.not_mem_nil, fun bs hbs => absurd hbs List.not_mem_nil⟩
  | cons p ps ih =>
    cases p with
    | code s =>
      obtain ⟨hd, hnames⟩ := ih h.2 (Fills.of_code hfills)
      exact ⟨fun ⟨p, hp⟩ => hd ⟨p, by simpa using hp⟩, hnames⟩
    | name bs =>
      obtain ⟨-, -, hvalue, hrest⟩ := h
      obtain ⟨ts, heq, hfills⟩ := Fills.inl_inv hfills
      obtain ⟨-, rfl⟩ := List.cons.inj heq
      rw [Nat.add_assoc] at hfills
      obtain ⟨hd, hnames⟩ := ih hrest hfills
      have hzero := hd hvalue
      refine ⟨fun _ => by omega, fun bs' hbs' => ?_⟩
      obtain rfl | hmem := List.mem_cons.1 hbs'
      · exact List.count_eq_zero.1 (by omega)
      · exact hnames bs' hmem
    | value p =>
      obtain ⟨ts, heq, hnext, hfills⟩ := Fills.inr_inv hfills
      simp only [frags, Frag.shape, Placeholders.text, List.map_cons, List.cons_append,
        List.cons.injEq, true_and] at heq
      -- the number that is written is the number that is due
      obtain ⟨hdigits, rfl⟩ := digits_append_inj (isDigit_digits _) (isDigit_digits _)
        (noDigit_shape (by decide) _ h.1) hnext heq
      have hd : d = 0 := by
        have hinj := digits_injective hdigits
        omega
      subst hd
      exact ⟨fun _ => rfl, (ih h.2 (d := 0) hfills).2⟩

end Piece

end Juncture
