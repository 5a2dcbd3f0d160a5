import Mathlib.Data.List.Chain
import Mathlib.Tactic.Linarith

/-!
# Text with quoted literals

A text is read by a scanner with three modes: outside a literal, inside one, and inside one after a
quote, which ends the literal unless a second quote follows.  What is outside comes out token by token,
a literal as one token, whatever is in it.

A text is put together from code, which is fixed, and the bodies of literals, which are not.  Its tokens
are those of the code with one literal for each body if each body stays in its literal
(`Frag.tokens_flatten`), and in no other case does it look like such a text (`Frag.sealed_of_tokens`):
a body that ends its literal, or takes in the quote that should end it, opens a literal too many, or
makes the start of a later body follow a literal.

The quote `q` and the first symbol `x` of each body are parameters.
-/

namespace Quoting

variable {α : Type} [DecidableEq α] (q : α)

/-- A token: a symbol outside literals, or a literal. -/
inductive Token (α : Type) where
  | code (c : α)
  | literal
deriving DecidableEq

/-- Where the scanner is. -/
inductive Mode where
  | code
  | literal
  /-- In a literal, after a quote. -/
  | quote
deriving DecidableEq

namespace Mode

/-- The next mode. -/
def next (m : Mode) (c : α) : Mode :=
  match m with
  | code => if c = q then literal else code
  | literal => if c = q then quote else literal
  | quote => if c = q then literal else code

/-- The tokens that come out. -/
def emit (m : Mode) (c : α) : List (Token α) :=
  match m with
  | code => if c = q then [.literal] else [.code c]
  | literal => []
  | quote => if c = q then [] else [.code c]

/-- The literal that is open. -/
def opened : Mode → List (Token α)
  | code => []
  | literal | quote => [.literal]

end Mode

/-- The tokens of a text. -/
def tokens (m : Mode) : List α → List (Token α)
  | [] => []
  | c :: cs => m.emit q c ++ tokens (m.next q c) cs

/-- The mode after a text. -/
def final (m : Mode) (cs : List α) : Mode := cs.foldl (Mode.next q) m

@[simp] theorem tokens_nil (m : Mode) : tokens q m [] = [] := rfl

theorem tokens_cons (m : Mode) (c : α) (cs : List α) :
    tokens q m (c :: cs) = m.emit q c ++ tokens q (m.next q c) cs := rfl

@[simp] theorem final_nil (m : Mode) : final q m [] = m := rfl

theorem final_cons (m : Mode) (c : α) (cs : List α) :
    final q m (c :: cs) = final q (m.next q c) cs := rfl

theorem final_append (m : Mode) (as bs : List α) :
    final q m (as ++ bs) = final q (final q m as) bs := List.foldl_append

theorem tokens_append (m : Mode) (as bs : List α) :
    tokens q m (as ++ bs) = tokens q m as ++ tokens q (final q m as) bs := by
  induction as generalizing m with
  | nil => rfl
  | cons c cs ih => rw [List.cons_append, tokens_cons, tokens_cons, ih, final_cons, List.append_assoc]

/-- A quote opens a literal. -/
@[simp] theorem tokens_code_quote (cs : List α) :
    tokens q .code (q :: cs) = .literal :: tokens q .literal cs := by
  simp [tokens_cons, Mode.emit, Mode.next]

@[simp] theorem tokens_literal_quote (cs : List α) :
    tokens q .literal (q :: cs) = tokens q .quote cs := by
  simp [tokens_cons, Mode.emit, Mode.next]

/-- A second quote does not end it. -/
@[simp] theorem tokens_quote_quote (cs : List α) :
    tokens q .quote (q :: cs) = tokens q .literal cs := by
  simp [tokens_cons, Mode.emit, Mode.next]

/-! ### Text without quotes -/

variable {q}

theorem tokens_code {cs : List α} (h : q ∉ cs) : tokens q .code cs = cs.map .code := by
  induction cs with
  | nil => rfl
  | cons c cs ih =>
    rw [List.mem_cons, not_or] at h
    simp only [tokens_cons, Mode.emit, Mode.next, if_neg (Ne.symm h.1), ih h.2]
    rfl

theorem final_code {cs : List α} (h : q ∉ cs) : final q .code cs = .code := by
  induction cs with
  | nil => rfl
  | cons c cs ih =>
    rw [List.mem_cons, not_or] at h
    simp only [final_cons, Mode.next, if_neg (Ne.symm h.1), ih h.2]

theorem tokens_literal {cs : List α} (h : q ∉ cs) : tokens q .literal cs = [] := by
  induction cs with
  | nil => rfl
  | cons c cs ih =>
    rw [List.mem_cons, not_or] at h
    simp only [tokens_cons, Mode.emit, Mode.next, if_neg (Ne.symm h.1), ih h.2, List.append_nil]

theorem final_literal {cs : List α} (h : q ∉ cs) : final q .literal cs = .literal := by
  induction cs with
  | nil => rfl
  | cons c cs ih =>
    rw [List.mem_cons, not_or] at h
    simp only [final_cons, Mode.next, if_neg (Ne.symm h.1), ih h.2]

/-- After the end of a literal, code is read as code. -/
theorem tokens_quote {y : α} (h : y ≠ q) (cs : List α) :
    tokens q .quote (y :: cs) = tokens q .code (y :: cs) := by
  simp only [tokens_cons, Mode.emit, Mode.next, if_neg h]

theorem final_quote {y : α} (h : y ≠ q) (cs : List α) :
    final q .quote (y :: cs) = final q .code (y :: cs) := by
  simp only [final_cons, Mode.next, if_neg h]

/-! ### What stays in its literal -/

/-- The text does not leave the literal it is in. -/
def Sealed (q : α) (bs : List α) : Prop :=
  tokens q .literal bs = [] ∧ final q .literal bs = .literal

/-- All quotes come in pairs. -/
def Paired (q : α) : List α → Prop
  | [] => True
  | [c] => c ≠ q
  | c :: d :: cs => if c = q then d = q ∧ Paired q cs else Paired q (d :: cs)

instance decidablePaired : (cs : List α) → Decidable (Paired q cs)
  | [] => isTrue trivial
  | [c] => inferInstanceAs (Decidable (c ≠ q))
  | c :: d :: cs =>
    have := decidablePaired cs
    have := decidablePaired (d :: cs)
    inferInstanceAs (Decidable (if c = q then d = q ∧ Paired q cs else Paired q (d :: cs)))

theorem paired_cons_of_ne {c : α} (hc : c ≠ q) (cs : List α) : Paired q (c :: cs) ↔ Paired q cs := by
  cases cs with
  | nil => exact iff_of_true hc trivial
  | cons d cs => rw [Paired, if_neg hc]

theorem paired_append_of_not_mem {as : List α} (h : q ∉ as) (bs : List α) :
    Paired q (as ++ bs) ↔ Paired q bs := by
  induction as with
  | nil => rfl
  | cons c cs ih =>
    rw [List.mem_cons, not_or] at h
    rw [List.cons_append, paired_cons_of_ne (Ne.symm h.1), ih h.2]

theorem sealed_iff_paired {bs : List α} : Sealed q bs ↔ Paired q bs := by
  unfold Sealed
  induction bs using Paired.induct q with
  | case1 => exact ⟨fun _ => trivial, fun _ => ⟨rfl, rfl⟩⟩
  | case2 c =>
    by_cases hc : c = q
    · simp [tokens_cons, final_cons, Mode.next, hc, Paired]
    · simp [tokens_cons, final_cons, Mode.emit, Mode.next, hc, Paired]
  | case3 d cs ih =>
    by_cases hd : d = q
    · -- the pair leaves the scanner in the literal
      simpa [tokens_cons, final_cons, Mode.emit, Mode.next, hd, Paired] using ih
    · simp [tokens_cons, final_cons, Mode.emit, Mode.next, hd, Paired]
  | case4 c d cs hc ih =>
    rw [Paired, if_neg hc, ← ih]
    simp only [tokens_cons, final_cons, Mode.emit, Mode.next, if_neg hc, List.nil_append]

theorem sealed_of_not_mem {bs : List α} (h : q ∉ bs) : Sealed q bs :=
  ⟨tokens_literal h, final_literal h⟩

/-- If a literal is open in the end, and the text started outside or something came out, a literal was
opened. -/
theorem literal_mem_tokens {m : Mode} {bs : List α} (hfinal : final q m bs ≠ .code)
    (hm : m = .code ∨ tokens q m bs ≠ []) : Token.literal ∈ tokens q m bs := by
  induction bs generalizing m with
  | nil => exact absurd (hm.resolve_right fun h => h rfl) hfinal
  | cons c cs ih =>
    rw [final_cons] at hfinal
    rw [tokens_cons] at hm ⊢
    have hrest := ih hfinal
    refine List.mem_append.2 ?_
    cases m with
    | code =>
      by_cases hc : c = q
      · exact .inl (by simp [Mode.emit, hc])
      · exact .inr (hrest (.inl (by simp [Mode.next, hc])))
    | literal =>
      have hout : tokens q (Mode.literal.next q c) cs ≠ [] := by simpa [Mode.emit] using hm
      exact .inr (hrest (.inr hout))
    | quote =>
      by_cases hc : c = q
      · have hout : tokens q (Mode.quote.next q c) cs ≠ [] := by simpa [Mode.emit, hc] using hm
        exact .inr (hrest (.inr hout))
      · exact .inr (hrest (.inl (by simp [Mode.next, hc])))

/-! ### What comes after a literal -/

/-- No literal is followed by `x`. -/
def Apart (x : α) (ts : List (Token α)) : Prop :=
  ts.IsChain fun a b => ¬ (a = .literal ∧ b = .code x)

omit [DecidableEq α] in
theorem Apart.suffix {x : α} {as bs : List (Token α)} (h : Apart x bs) (hs : as <:+ bs) :
    Apart x as := List.IsChain.suffix h hs

/-- What comes out later, with the literal that is open, is a suffix of what comes out. -/
theorem opened_suffix (m : Mode) (as bs : List α) :
    (final q m as).opened ++ tokens q (final q m as) bs <:+ m.opened ++ tokens q m (as ++ bs) := by
  induction as generalizing m with
  | nil => exact List.suffix_rfl
  | cons c cs ih =>
    refine (ih (m.next q c)).trans ?_
    rw [List.cons_append, tokens_cons]
    cases m with
    | code => by_cases hc : c = q <;> simp [Mode.next, Mode.emit, Mode.opened, hc]
    | literal => by_cases hc : c = q <;> simp [Mode.next, Mode.emit, Mode.opened, hc]
    | quote =>
      by_cases hc : c = q
      · simp [Mode.next, Mode.emit, Mode.opened, hc]
      · simp only [Mode.next, Mode.emit, Mode.opened, if_neg hc]
        exact List.suffix_append [Token.literal, Token.code c] _

/-! ### Texts put together from code and bodies -/

/-- A part of a text: code, or the body of a literal. -/
inductive Frag (α : Type) where
  | code (cs : List α)
  | body (bs : List α)

namespace Frag

/-- The text. -/
def flatten (q : α) : List (Frag α) → List α
  | [] => []
  | .code cs :: fs => cs ++ flatten q fs
  | .body bs :: fs => q :: (bs ++ q :: flatten q fs)

/-- Its tokens, if all bodies stay in their literals. -/
def shape : List (Frag α) → List (Token α)
  | [] => []
  | .code cs :: fs => cs.map .code ++ shape fs
  | .body _ :: fs => .literal :: shape fs

/-- The number of bodies. -/
def bodies : List (Frag α) → ℕ
  | [] => 0
  | .code _ :: fs => bodies fs
  | .body _ :: fs => bodies fs + 1

/-- The text starts with code, if it is not empty. -/
def StartsWithCode (x : α) (fs : List (Frag α)) : Prop :=
  ∃ y ys fs', fs = .code (y :: ys) :: fs' ∧ y ≠ x

/-- Code has no quotes, a body starts with `x`, and after a body comes code that does not. -/
def Guarded (q x : α) : List (Frag α) → Prop
  | [] => True
  | .code cs :: fs => q ∉ cs ∧ Guarded q x fs
  | .body bs :: fs => (∃ rest, bs = x :: rest) ∧ StartsWithCode x fs ∧ Guarded q x fs

/-- The scanner can be in mode `m` before the text: not at the end of a literal, unless code follows. -/
def Fits (x : α) (m : Mode) (fs : List (Frag α)) : Prop := m = .quote → StartsWithCode x fs

omit [DecidableEq α] in
theorem StartsWithCode.append {x : α} {fs : List (Frag α)} (h : StartsWithCode x fs)
    (gs : List (Frag α)) : StartsWithCode x (fs ++ gs) := by
  obtain ⟨y, ys, fs', rfl, hy⟩ := h
  exact ⟨y, ys, fs' ++ gs, rfl, hy⟩

omit [DecidableEq α] in
/-- Before a body the scanner is at the end of no literal. -/
theorem Fits.ne_quote {x : α} {m : Mode} {bs : List α} {fs : List (Frag α)}
    (h : Fits x m (.body bs :: fs)) : m ≠ .quote := by
  intro hquote
  obtain ⟨y, ys, fs', heq, -⟩ := h hquote
  cases heq

omit [DecidableEq α] in
theorem Fits.eq_code {x : α} {m : Mode} {bs : List α} {fs : List (Frag α)}
    (h : Fits x m (.body bs :: fs)) (hm : m ≠ .literal) : m = .code := by
  cases m with
  | code => rfl
  | literal => exact absurd rfl hm
  | quote => exact absurd rfl h.ne_quote

theorem count_shape (fs : List (Frag α)) : (shape fs).count .literal = bodies fs := by
  induction fs with
  | nil => rfl
  | cons f fs ih =>
    cases f with
    | code cs =>
      have hcode : (cs.map Token.code).count .literal = 0 :=
        List.count_eq_zero.2 (by simp)
      simp [shape, bodies, ih, hcode]
    | body bs => simp [shape, bodies, ih]

/-- Code starts as code, whether or not a literal has just ended. -/
theorem tokens_flatten_code {q x : α} {m : Mode} (hm : m ≠ .literal) {cs : List α}
    {fs : List (Frag α)} (hcs : q ∉ cs) (hfits : Fits x m (.code cs :: fs)) :
    tokens q m (flatten q (.code cs :: fs)) = cs.map .code ++ tokens q .code (flatten q fs) := by
  have hcode : tokens q .code (flatten q (.code cs :: fs)) =
      cs.map .code ++ tokens q .code (flatten q fs) := by
    rw [flatten, tokens_append, tokens_code hcs, final_code hcs]
  cases m with
  | code => exact hcode
  | literal => exact absurd rfl hm
  | quote =>
    obtain ⟨y, ys, fs', heq, -⟩ := hfits rfl
    obtain ⟨hhead, -⟩ := List.cons.inj heq
    obtain rfl := Frag.code.inj hhead
    rw [← hcode]
    have hy : y ≠ q := by
      rintro rfl
      exact hcs List.mem_cons_self
    exact tokens_quote hy _

/-- Bodies that stay in their literals leave the rest of the text as it is. -/
theorem tokens_flatten {q x : α} {m : Mode} (hm : m ≠ .literal) {fs : List (Frag α)}
    (hguarded : Guarded q x fs) (hfits : Fits x m fs)
    (hsealed : ∀ bs, .body bs ∈ fs → Sealed q bs) : tokens q m (flatten q fs) = shape fs := by
  induction fs generalizing m with
  | nil => rfl
  | cons f fs ih =>
    have hrest : ∀ bs, .body bs ∈ fs → Sealed q bs := fun bs hbs => hsealed bs (.tail _ hbs)
    cases f with
    | code cs =>
      rw [tokens_flatten_code hm hguarded.1 hfits, shape,
        ih (m := .code) (by simp) hguarded.2 (by simp [Fits]) hrest]
    | body bs =>
      obtain ⟨hout, hfinal⟩ := hsealed bs List.mem_cons_self
      obtain rfl := hfits.eq_code hm
      rw [flatten, tokens_code_quote, tokens_append, hout, hfinal, List.nil_append,
        tokens_literal_quote, shape,
        ih (m := .quote) (by simp) hguarded.2.2 (fun _ => hguarded.2.1) hrest]

/-! ### Bodies that do not stay in their literals -/

/-- A body that is read from inside a literal shows its first symbol. -/
theorem tokens_literal_flatten {q x : α} (hx : x ≠ q) {fs : List (Frag α)}
    (hguarded : Guarded q x fs) : tokens q .literal (flatten q fs) = [] ∨
      ∃ ts, tokens q .literal (flatten q fs) = .code x :: ts := by
  induction fs with
  | nil => exact .inl rfl
  | cons f fs ih =>
    cases f with
    | code cs =>
      rw [flatten, tokens_append, tokens_literal hguarded.1, final_literal hguarded.1]
      exact ih hguarded.2
    | body bs =>
      obtain ⟨⟨rest, rfl⟩, -, -⟩ := hguarded
      right
      rw [flatten, tokens_literal_quote, List.cons_append, tokens_quote hx, tokens_cons]
      simp only [Mode.emit, if_neg hx]
      exact ⟨_, rfl⟩

/-- Unless the start of a body follows a literal, each body of the text opens a literal. -/
theorem bodies_le_count {q x : α} (hx : x ≠ q) {fs : List (Frag α)} (hguarded : Guarded q x fs)
    {m : Mode} (hfits : Fits x m fs) (hapart : Apart x (m.opened ++ tokens q m (flatten q fs))) :
    bodies fs ≤ (tokens q m (flatten q fs)).count .literal := by
  induction fs generalizing m with
  | nil => exact Nat.zero_le _
  | cons f fs ih =>
    cases f with
    | code cs =>
      rw [bodies, flatten, tokens_append, List.count_append]
      have hfinal : final q m cs ≠ .quote := by
        cases m with
        | code => simp [final_code hguarded.1]
        | literal => simp [final_literal hguarded.1]
        | quote =>
          obtain ⟨y, ys, fs', heq, -⟩ := hfits rfl
          obtain rfl := Frag.code.inj (List.cons.inj heq).1
          have hy : y ≠ q := by
            rintro rfl
            exact hguarded.1 List.mem_cons_self
          rw [final_quote hy, final_code hguarded.1]
          simp
      have hrest := ih hguarded.2 (fun h => absurd h hfinal)
        (hapart.suffix (opened_suffix m cs (flatten q fs)))
      omega
    | body bs =>
      cases m with
      | quote => exact absurd rfl hfits.ne_quote
      | literal =>
        -- the quote that should open the literal ends one
        obtain ⟨⟨rest, rfl⟩, -, -⟩ := hguarded
        rw [flatten, tokens_literal_quote, List.cons_append, tokens_quote hx, tokens_cons] at hapart
        simp only [Mode.emit, if_neg hx, Mode.opened, List.cons_append, List.nil_append, Apart,
          List.isChain_cons_cons] at hapart
        exact absurd ⟨trivial, trivial⟩ hapart.1
      | code =>
        have hsplit : flatten q (.body bs :: fs) = (q :: (bs ++ [q])) ++ flatten q fs := by
          simp [flatten]
        rw [hsplit] at hapart ⊢
        have hrest := ih hguarded.2.2 (fun _ => hguarded.2.1)
          (hapart.suffix (opened_suffix .code _ (flatten q fs)))
        rw [tokens_append, List.count_append, bodies, tokens_code_quote, List.count_cons_self]
        omega

/-- If the text after a body has literals for its own bodies only, none is opened in the body. -/
theorem closed_of_count {q x : α} (hx : x ≠ q) {bs : List α} {fs : List (Frag α)}
    (hguarded : Guarded q x (.body bs :: fs))
    (hapart : Apart x (.literal :: tokens q .literal (bs ++ q :: flatten q fs)))
    (hcount : (tokens q .literal (bs ++ q :: flatten q fs)).count .literal ≤ bodies fs) :
    final q .literal bs ≠ .code ∧ tokens q .literal bs = [] := by
  have hrest := bodies_le_count hx hguarded.2.2 (m := (final q .literal bs).next q q)
    (fun _ => hguarded.2.1) (hapart.suffix (by
      have hsuffix := opened_suffix (q := q) .literal (bs ++ [q]) (flatten q fs)
      rw [final_append, List.append_assoc] at hsuffix
      exact hsuffix))
  rw [tokens_append, List.count_append] at hcount
  have hfinal : final q .literal bs ≠ .code := by
    intro hcode
    rw [hcode] at hcount hrest
    simp only [Mode.next, if_pos, tokens_code_quote, List.count_cons_self] at hcount hrest
    omega
  refine ⟨hfinal, ?_⟩
  by_contra hout
  have hpos := List.count_pos_iff.2 (literal_mem_tokens hfinal (.inr hout))
  have hquote : tokens q (final q .literal bs) (q :: flatten q fs) =
      tokens q ((final q .literal bs).next q q) (flatten q fs) := by
    cases hmode : final q .literal bs with
    | code => exact absurd hmode hfinal
    | literal => simp [Mode.next]
    | quote => simp [Mode.next]
  rw [hquote] at hcount
  omega

/-- A text of code and bodies with as many literals as bodies, in which neither the start of a body nor the
end follows a literal: all bodies stay in their literals. -/
theorem sealed_of_tokens {q x : α} (hx : x ≠ q) {fs : List (Frag α)} (hguarded : Guarded q x fs)
    {m : Mode} (hm : m ≠ .literal) (hfits : Fits x m fs)
    (hapart : Apart x (m.opened ++ tokens q m (flatten q fs)))
    (hcount : (tokens q m (flatten q fs)).count .literal ≤ bodies fs)
    (hlast : (tokens q m (flatten q fs)).getLast? ≠ some .literal) :
    ∀ bs, .body bs ∈ fs → Sealed q bs := by
  induction fs generalizing m with
  | nil => exact fun bs hbs => absurd hbs List.not_mem_nil
  | cons f fs ih =>
    cases f with
    | code cs =>
      have htokens := tokens_flatten_code hm hguarded.1 hfits
      have hcode : (cs.map Token.code).count .literal = 0 := List.count_eq_zero.2 (by simp)
      rw [htokens] at hapart hcount hlast
      rw [List.count_append, hcode, Nat.zero_add] at hcount
      have hrest := ih (m := .code) hguarded.2 (by simp) (by simp [Fits])
        (hapart.suffix ((List.suffix_append _ _).trans (List.suffix_append _ _))) hcount
        (fun h => hlast (by rw [List.getLast?_append, h]; rfl))
      intro bs hbs
      exact hrest bs (by simpa using hbs)
    | body bs =>
      obtain rfl := hfits.eq_code hm
      rw [flatten, tokens_code_quote] at hapart hcount hlast
      rw [List.count_cons_self, bodies] at hcount
      -- the rest of the text still has a literal for each of its bodies
      obtain ⟨hfinal, hout⟩ := closed_of_count hx hguarded hapart (Nat.le_of_succ_le_succ hcount)
      rw [tokens_append, hout, List.nil_append] at hcount hlast hapart
      cases hmode : final q .literal bs with
      | code => exact absurd hmode hfinal
      | literal =>
        rw [hmode, tokens_literal_quote] at hcount hlast hapart
        have hfs := ih (m := .quote) hguarded.2.2 (by simp) (fun _ => hguarded.2.1) hapart
          (Nat.le_of_succ_le_succ hcount) (fun h => hlast (by rw [List.getLast?_cons, h]; rfl))
        intro bs' hbs'
        obtain heq | hmem := List.mem_cons.1 hbs'
        · rw [Frag.body.inj heq]
          exact ⟨hout, hmode⟩
        · exact hfs bs' hmem
      | quote =>
        -- the quote that should end the literal is the second of a pair
        rw [hmode, tokens_quote_quote] at hlast hapart
        obtain hnil | ⟨ts, hts⟩ := tokens_literal_flatten hx hguarded.2.2
        · rw [hnil] at hlast
          exact absurd rfl hlast
        · rw [hts] at hapart
          simp only [Mode.opened, List.nil_append, Apart, List.isChain_cons_cons] at hapart
          exact absurd ⟨trivial, trivial⟩ hapart.1

/-! ### The tokens of two texts -/

omit [DecidableEq α] in
theorem apart_code_append {x : α} {ts : List (Token α)} (h : Apart x ts) (cs : List α) :
    Apart x (cs.map .code ++ ts) := by
  induction cs with
  | nil => exact h
  | cons c cs ih =>
    rw [List.map_cons, List.cons_append]
    exact List.isChain_cons.2 ⟨fun b _ hb => by simp at hb, ih⟩

omit [DecidableEq α] in
theorem apart_shape {q x : α} {fs : List (Frag α)} (hguarded : Guarded q x fs) :
    Apart x (shape fs) := by
  induction fs with
  | nil => exact List.IsChain.nil
  | cons f fs ih =>
    cases f with
    | code cs => exact apart_code_append (ih hguarded.2) cs
    | body bs =>
      refine List.isChain_cons.2 ⟨fun b hb hx => ?_, ih hguarded.2.2⟩
      obtain ⟨y, ys, fs', rfl, hy⟩ := hguarded.2.1
      rw [shape, List.map_cons, List.cons_append, List.head?_cons, Option.mem_some] at hb
      obtain ⟨-, rfl⟩ := hx
      exact hy (Token.code.inj hb)

omit [DecidableEq α] in
theorem getLast?_shape {q x : α} {fs : List (Frag α)} (hguarded : Guarded q x fs) :
    (shape fs).getLast? ≠ some .literal := by
  induction fs with
  | nil => simp [shape]
  | cons f fs ih =>
    cases f with
    | code cs =>
      rw [shape, List.getLast?_append]
      cases hlast : (shape fs).getLast? with
      | none => simp
      | some t => exact fun h => ih hguarded.2 (hlast.trans h)
    | body bs =>
      obtain ⟨y, ys, fs', rfl, -⟩ := hguarded.2.1
      have hrest := ih hguarded.2.2
      rw [shape, List.getLast?_cons]
      simp only [shape, List.map_cons, List.cons_append] at hrest ⊢
      cases hlast : (Token.code y :: (ys.map Token.code ++ shape fs')).getLast? with
      | none => simp at hlast
      | some t => exact fun h => hrest (hlast.trans h)

/-- A text with the tokens of one whose bodies stay in their literals is such a text, if it has as many
bodies. -/
theorem sealed_of_tokens_eq {q x : α} (hx : x ≠ q) {fs gs : List (Frag α)} (hfs : Guarded q x fs)
    (hgs : Guarded q x gs) (hbodies : bodies fs = bodies gs)
    (hsealed : ∀ bs, .body bs ∈ gs → Sealed q bs)
    (htokens : tokens q .code (flatten q fs) = tokens q .code (flatten q gs)) :
    ∀ bs, .body bs ∈ fs → Sealed q bs := by
  rw [tokens_flatten (by simp) hgs (by simp [Fits]) hsealed] at htokens
  refine sealed_of_tokens hx hfs (m := .code) (by simp) (by simp [Fits]) ?_ ?_ ?_
  · rw [htokens]
    exact apart_shape hgs
  · rw [htokens, count_shape, hbodies]
  · rw [htokens]
    exact getLast?_shape hgs

end Frag

end Quoting
