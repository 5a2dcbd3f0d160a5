import Juncture.Store.Clauses

/-!
# The clause of a filter, in two dialects

SQLite and PostgreSQL differ in how they write a comparison; `and`, `or`, `not` and parentheses are the
same.  In both the clause of a filter is the text of its pieces (`FilterExpr.text_pieces`).
-/

namespace Juncture

open Quoting

namespace FilterExpr

/-! ### The dialects -/

/-- How a dialect writes a comparison: code, a literal that names the field, code, a placeholder, code. -/
structure Dialect where
  /-- The comparison. -/
  comparison : CmpOp → String → String
  /-- What is in the literal. -/
  literal : List Char → List Char
  /-- Code in front of the literal. -/
  lead : CmpOp → List Char
  /-- Code between literal and placeholder. -/
  relate : CmpOp → List Char
  /-- Code behind the placeholder. -/
  close : CmpOp → List Char
  /-- How each literal starts. -/
  first : Char
  comparison_eq : ∀ op field, (comparison op field).toList =
    lead op ++ quote :: (literal field.toList ++ quote :: (relate op ++ '?' :: close op))
  literal_first : ∀ field, ∃ rest, literal field = first :: rest
  paired_literal : ∀ field, Paired quote (literal field) ↔ Paired quote field
  count_literal : ∀ field, (literal field).count '?' = field.count '?'
  code : ∀ op, ∀ c ∈ lead op ++ relate op ++ close op, c ≠ quote ∧ c ≠ '?' ∧ c ≠ '$'
  lead_start : ∀ op, ∃ c cs, lead op = c :: cs ∧ c.isDigit = false
  relate_start : ∀ op, ∃ c cs, relate op = c :: cs ∧ c ≠ first
  close_start : ∀ op, ∀ c ∈ (close op).head?, c.isDigit = false

/-- A comparison in SQLite, up to the name of the field. -/
def sqliteBefore : CmpOp → String
  | .eq | .ne => "json_extract(value, '$."
  | _ => "CAST(json_extract(value, '$."

/-- The rest of it. -/
def sqliteAfter : CmpOp → String
  | .eq => "') = ?"
  | .ne => "') != ?"
  | .gt => "') AS REAL) > CAST(? AS REAL)"
  | .gte => "') AS REAL) >= CAST(? AS REAL)"
  | .lt => "') AS REAL) < CAST(? AS REAL)"
  | .lte => "') AS REAL) <= CAST(? AS REAL)"

theorem sqliteComparison_eq (op : CmpOp) (field : String) :
    sqliteComparison op field = sqliteBefore op ++ field ++ sqliteAfter op := by
  cases op <;> rfl

/-- A text that is another one with characters behind it; literals need not be decoded for it. -/
theorem toList_ofList_append {s t u : List Char} (h : s = t ++ u) :
    (String.ofList s).toList = (String.ofList t).toList ++ u := by
  rw [String.toList_ofList, String.toList_ofList, h]

/-- A text that is made of two others, with characters in front and one between them. -/
theorem toList_ofList_parts (w : List Char) {y : Char} {s t u : List Char} (h : s = w ++ (t ++ y :: u)) :
    (String.ofList s).toList = w ++ ((String.ofList t).toList ++ y :: (String.ofList u).toList) := by
  rw [String.toList_ofList, String.toList_ofList, String.toList_ofList, h]

/-- Code in front of the literal, in SQLite. -/
def sqliteLead : CmpOp → List Char
  | .eq | .ne => "json_extract(value, ".toList
  | _ => "CAST(json_extract(value, ".toList

/-- Code between literal and placeholder, in SQLite. -/
def sqliteRelate : CmpOp → List Char
  | .eq => ") = ".toList
  | .ne => ") != ".toList
  | .gt => ") AS REAL) > CAST(".toList
  | .gte => ") AS REAL) >= CAST(".toList
  | .lt => ") AS REAL) < CAST(".toList
  | .lte => ") AS REAL) <= CAST(".toList

/-- Code behind the placeholder, in SQLite. -/
def sqliteClose : CmpOp → List Char
  | .eq | .ne => []
  | _ => " AS REAL)".toList

theorem sqliteLead_isCode (op : CmpOp) : ∀ c ∈ sqliteLead op, c ≠ quote ∧ c ≠ '?' ∧ c ≠ '$' := by
  have hplain : ∀ c ∈ "json_extract(value, ".toList, c ≠ quote ∧ c ≠ '?' ∧ c ≠ '$' :=
    Piece.isCode_ofList (by decide +kernel)
  have hcast : ∀ c ∈ "CAST(json_extract(value, ".toList, c ≠ quote ∧ c ≠ '?' ∧ c ≠ '$' :=
    Piece.isCode_ofList (by decide +kernel)
  cases op with
  | eq | ne => exact hplain
  | _ => exact hcast

theorem sqliteRelate_isCode (op : CmpOp) : ∀ c ∈ sqliteRelate op, c ≠ quote ∧ c ≠ '?' ∧ c ≠ '$' := by
  cases op <;> exact Piece.isCode_ofList (by decide +kernel)

theorem sqliteClose_isCode (op : CmpOp) : ∀ c ∈ sqliteClose op, c ≠ quote ∧ c ≠ '?' ∧ c ≠ '$' := by
  have hcast : ∀ c ∈ " AS REAL)".toList, c ≠ quote ∧ c ≠ '?' ∧ c ≠ '$' :=
    Piece.isCode_ofList (by decide +kernel)
  cases op with
  | eq | ne => exact fun c hc => absurd hc List.not_mem_nil
  | _ => exact hcast

/-- The dialect of SQLite. -/
def sqlite : Dialect where
  comparison := sqliteComparison
  literal field := '$' :: '.' :: field
  lead := sqliteLead
  relate := sqliteRelate
  close := sqliteClose
  first := '$'
  comparison_eq op field := by
    have hbefore : (sqliteBefore op).toList = sqliteLead op ++ [quote, '$', '.'] := by
      unfold sqliteBefore sqliteLead
      cases op <;> exact toList_ofList_append rfl
    have hafter : (sqliteAfter op).toList = [quote] ++ (sqliteRelate op ++ '?' :: sqliteClose op) := by
      unfold sqliteAfter sqliteRelate sqliteClose
      cases op with
      | eq | ne => rfl
      | _ => exact toList_ofList_parts [quote] rfl
    simp [sqliteComparison_eq, hbefore, hafter]
  literal_first field := ⟨_, rfl⟩
  paired_literal field := by
    rw [paired_cons_of_ne (by decide), paired_cons_of_ne (by decide)]
  count_literal field := by
    rw [List.count_cons_of_ne (by decide), List.count_cons_of_ne (by decide)]
  code op := List.forall_mem_append.mpr
    ⟨List.forall_mem_append.mpr ⟨sqliteLead_isCode op, sqliteRelate_isCode op⟩, sqliteClose_isCode op⟩
  lead_start op := by cases op <;> exact ⟨_, _, rfl, by decide⟩
  relate_start op := by cases op <;> exact ⟨_, _, rfl, by decide⟩
  close_start op := by cases op <;> exact Piece.noDigit_of_all (by decide)

/-- A dot of a field path becomes a comma. -/
def pathChar (c : Char) : Char := if c = '.' then ',' else c

theorem toList_path (field : String) :
    (",".intercalate (split field)).toList = field.toList.map pathChar := by
  have hsplit : ∀ cs : List Char,
      [','].intercalate (cs.splitOn '.') = cs.map pathChar := by
    intro cs
    induction cs with
    | nil => rfl
    | cons c cs ih =>
      rw [List.splitOn_cons_eq_if_modifyHead, List.map_cons, ← ih]
      have hne := List.splitOn_ne_nil '.' cs
      by_cases hc : c = '.'
      · rw [if_pos (by simpa using hc), List.intercalate_cons_of_ne_nil hne, pathChar, if_pos hc]
        rfl
      · rw [if_neg (by simpa using hc), pathChar, if_neg hc]
        obtain ⟨l, ls, hls⟩ := List.exists_cons_of_ne_nil hne
        cases ls with
        | nil => simp [hls]
        | cons l' ls => simp [hls]
  rw [String.toList_intercalate, split, List.map_map]
  have hof : (String.toList ∘ String.ofList) = id := by
    funext cs
    exact String.toList_ofList
  rw [hof, List.map_id]
  exact hsplit _

theorem pathChar_eq_iff {d : Char} (hdot : '.' ≠ d) (hcomma : ',' ≠ d) (c : Char) :
    pathChar c = d ↔ c = d := by
  by_cases hc : c = '.'
  · rw [pathChar, if_pos hc, hc]
    exact iff_of_false hcomma hdot
  · rw [pathChar, if_neg hc]

/-- The path has the quotes of the field, and what is behind it does not matter. -/
theorem paired_path (cs : List Char) :
    Paired quote (cs.map pathChar ++ ['\x7d']) ↔ Paired quote cs := by
  have hquote := pathChar_eq_iff (d := quote) (by decide) (by decide)
  induction cs using Paired.induct quote with
  | case1 => exact iff_of_true (by decide) trivial
  | case2 c =>
    by_cases hc : c = quote
    · rw [hc]
      decide
    · rw [List.map_cons, List.cons_append, paired_cons_of_ne (mt (hquote c).1 hc)]
      exact iff_of_true (by decide) hc
  | case3 d cs ih =>
    have hq : pathChar quote = quote := rfl
    simp only [List.map_cons, List.cons_append, hq, Paired, if_pos, hquote]
    exact and_congr_right fun _ => ih
  | case4 c d cs hc ih =>
    rw [List.map_cons, List.cons_append, paired_cons_of_ne (mt (hquote c).1 hc),
      paired_cons_of_ne hc]
    exact ih

/-- A comparison in PostgreSQL, up to the path. -/
def postgresBefore : CmpOp → String
  | .eq | .ne => "value #>> '\x7b"
  | _ => "(value #> '\x7b"

/-- The rest of it. -/
def postgresAfter : CmpOp → String
  | .eq => "\x7d' = ?"
  | .ne => "\x7d' != ?"
  | .gt => "\x7d')::numeric > CAST(? AS numeric)"
  | .gte => "\x7d')::numeric >= CAST(? AS numeric)"
  | .lt => "\x7d')::numeric < CAST(? AS numeric)"
  | .lte => "\x7d')::numeric <= CAST(? AS numeric)"

theorem postgresComparison_eq (op : CmpOp) (field : String) : postgresComparison op field =
    postgresBefore op ++ ",".intercalate (split field) ++ postgresAfter op := by
  cases op <;> rfl

/-- Code in front of the literal, in PostgreSQL. -/
def postgresLead : CmpOp → List Char
  | .eq | .ne => "value #>> ".toList
  | _ => "(value #> ".toList

/-- Code between literal and placeholder, in PostgreSQL. -/
def postgresRelate : CmpOp → List Char
  | .eq => " = ".toList
  | .ne => " != ".toList
  | .gt => ")::numeric > CAST(".toList
  | .gte => ")::numeric >= CAST(".toList
  | .lt => ")::numeric < CAST(".toList
  | .lte => ")::numeric <= CAST(".toList

/-- Code behind the placeholder, in PostgreSQL. -/
def postgresClose : CmpOp → List Char
  | .eq | .ne => []
  | _ => " AS numeric)".toList

theorem postgresLead_isCode (op : CmpOp) : ∀ c ∈ postgresLead op, c ≠ quote ∧ c ≠ '?' ∧ c ≠ '$' := by
  have htext : ∀ c ∈ "value #>> ".toList, c ≠ quote ∧ c ≠ '?' ∧ c ≠ '$' :=
    Piece.isCode_ofList (by decide +kernel)
  have hjson : ∀ c ∈ "(value #> ".toList, c ≠ quote ∧ c ≠ '?' ∧ c ≠ '$' :=
    Piece.isCode_ofList (by decide +kernel)
  cases op with
  | eq | ne => exact htext
  | _ => exact hjson

theorem postgresRelate_isCode (op : CmpOp) :
    ∀ c ∈ postgresRelate op, c ≠ quote ∧ c ≠ '?' ∧ c ≠ '$' := by
  cases op <;> exact Piece.isCode_ofList (by decide +kernel)

theorem postgresClose_isCode (op : CmpOp) : ∀ c ∈ postgresClose op, c ≠ quote ∧ c ≠ '?' ∧ c ≠ '$' := by
  have hcast : ∀ c ∈ " AS numeric)".toList, c ≠ quote ∧ c ≠ '?' ∧ c ≠ '$' :=
    Piece.isCode_ofList (by decide +kernel)
  cases op with
  | eq | ne => exact fun c hc => absurd hc List.not_mem_nil
  | _ => exact hcast

/-- The dialect of PostgreSQL. -/
def postgres : Dialect where
  comparison := postgresComparison
  literal field := '\x7b' :: (field.map pathChar ++ ['\x7d'])
  lead := postgresLead
  relate := postgresRelate
  close := postgresClose
  first := '\x7b'
  comparison_eq op field := by
    have hbefore : (postgresBefore op).toList = postgresLead op ++ [quote, '\x7b'] := by
      unfold postgresBefore postgresLead
      cases op <;> exact toList_ofList_append rfl
    have hafter : (postgresAfter op).toList =
        ['\x7d', quote] ++ (postgresRelate op ++ '?' :: postgresClose op) := by
      unfold postgresAfter postgresRelate postgresClose
      cases op with
      | eq | ne => rfl
      | _ => exact toList_ofList_parts ['\x7d', quote] rfl
    rw [postgresComparison_eq, String.toList_append, String.toList_append, toList_path, hbefore,
      hafter]
    simp
  literal_first field := ⟨_, rfl⟩
  paired_literal field := by
    rw [paired_cons_of_ne (by decide), paired_path]
  count_literal field := by
    rw [List.count_cons_of_ne (by decide), List.count_append]
    have hmark : ∀ c, pathChar c = '?' ↔ c = '?' := pathChar_eq_iff (by decide) (by decide)
    induction field with
    | nil => rfl
    | cons c cs ih => by_cases hc : c = '?' <;> simp_all [List.count_cons]
  code op := List.forall_mem_append.mpr
    ⟨List.forall_mem_append.mpr ⟨postgresLead_isCode op, postgresRelate_isCode op⟩, postgresClose_isCode op⟩
  lead_start op := by cases op <;> exact ⟨_, _, rfl, by decide⟩
  relate_start op := by cases op <;> exact ⟨_, _, rfl, by decide⟩
  close_start op := by cases op <;> exact Piece.noDigit_of_all (by decide)

/-! ### The pieces of a clause -/

variable {V P : Type}

/-- Parentheses around a clause. -/
def paren (ps : List (Piece P)) : List (Piece P) := .code ['('] :: (ps ++ [.code [')']])

/-- Clauses with a separator between them. -/
def join (sep : List Char) : List (List (Piece P)) → List (Piece P)
  | [] => []
  | [ps] => ps
  | ps :: qs :: pss => ps ++ .code sep :: join sep (qs :: pss)

section Pieces

variable (d : Dialect) (param : V → P)

mutual

/-- The pieces of the clause of a filter. -/
def pieces : FilterExpr V → List (Piece P)
  | .cmp op field value => [.code (d.lead op), .name (d.literal field.toList), .code (d.relate op),
      .value (param value), .code (d.close op)]
  | .and es => join " AND ".toList (piecesList es)
  | .or es => join " OR ".toList (piecesList es)
  | .not e => .code "NOT (".toList :: (e.pieces ++ [.code [')']])

/-- Those of several filters, each in parentheses. -/
def piecesList : List (FilterExpr V) → List (List (Piece P))
  | [] => []
  | e :: es => paren e.pieces :: piecesList es

end

end Pieces

open Piece

/-- The pieces can be told apart, and no digit comes first. -/
def Apt (x : Char) (ps : List (Piece P)) : Prop := WellFormed x ps ∧ StartsNoDigit ps

theorem Apt.append {x : Char} {ps qs : List (Piece P)} (hps : Apt x ps) (hqs : Apt x qs) :
    Apt x (ps ++ qs) :=
  ⟨wellFormed_append hps.1 hqs.1 hqs.2, startsNoDigit_append hps.2 hqs.2⟩

/-- Code in front. -/
theorem Apt.code {x : Char} {s : List Char} {ps : List (Piece P)}
    (hs : ∀ c ∈ s, c ≠ quote ∧ c ≠ '?' ∧ c ≠ '$') (hstart : ∀ c ∈ s.head?, c.isDigit = false)
    (hps : Apt x ps) : Apt x (.code s :: ps) := by
  refine ⟨⟨hs, hps.1⟩, ?_⟩
  cases s with
  | nil => exact hps.2
  | cons c s => exact hstart c rfl

theorem apt_paren {x : Char} {ps : List (Piece P)} (hps : Apt x ps) : Apt x (paren ps) :=
  .code (isCode_of_all (by decide)) (noDigit_of_all (by decide))
    (hps.append (.code (isCode_of_all (by decide)) (noDigit_of_all (by decide)) ⟨trivial, trivial⟩))

theorem apt_join {x : Char} {sep : List Char} (hsep : ∀ c ∈ sep, c ≠ quote ∧ c ≠ '?' ∧ c ≠ '$')
    (hstart : ∀ c ∈ sep.head?, c.isDigit = false) {pss : List (List (Piece P))}
    (hpss : ∀ ps ∈ pss, Apt x ps) : Apt x (join sep pss) := by
  induction pss with
  | nil => exact ⟨trivial, trivial⟩
  | cons ps pss ih =>
    have hrest := ih fun qs hqs => hpss qs (.tail _ hqs)
    cases pss with
    | nil => exact hpss ps List.mem_cons_self
    | cons qs pss => exact (hpss ps List.mem_cons_self).append (.code hsep hstart hrest)

mutual

theorem apt_pieces (d : Dialect) (param : V → P) : (F : FilterExpr V) → Apt d.first (pieces d param F)
  | .cmp op field v => by
    have hcode := d.code op
    obtain ⟨c, cs, hrelate, hc⟩ := d.relate_start op
    obtain ⟨c', cs', hlead, hc'⟩ := d.lead_start op
    have hclose : Apt d.first [Piece.code (P := P) (d.close op)] :=
      .code (fun c hc => hcode c (List.mem_append_right _ hc)) (d.close_start op) ⟨trivial, trivial⟩
    have hvalue : WellFormed d.first [Piece.code (d.relate op), .value (param v),
        .code (d.close op)] :=
      ⟨fun c hc => hcode c (List.mem_append_left _ (List.mem_append_right _ hc)), hclose.2, hclose.1⟩
    refine .code (fun c hc => hcode c (List.mem_append_left _ (List.mem_append_left _ hc)))
      (fun c hc => ?_) ⟨⟨d.literal_first _, ⟨c, cs, _, by rw [hrelate], hc⟩,
        ⟨param v, by simp⟩, hvalue⟩, trivial⟩
    rw [hlead, List.head?_cons, Option.mem_some] at hc
    exact hc ▸ hc'
  | .and es => apt_join (isCode_of_all (by decide)) (noDigit_of_all (by decide))
      (apt_piecesList d param es)
  | .or es => apt_join (isCode_of_all (by decide)) (noDigit_of_all (by decide))
      (apt_piecesList d param es)
  | .not e => .code (isCode_of_all (by decide)) (noDigit_of_all (by decide))
      ((apt_pieces d param e).append
        (.code (isCode_of_all (by decide)) (noDigit_of_all (by decide)) ⟨trivial, trivial⟩))

theorem apt_piecesList (d : Dialect) (param : V → P) :
    (es : List (FilterExpr V)) → ∀ ps ∈ piecesList d param es, Apt d.first ps
  | [], _, h => absurd h List.not_mem_nil
  | e :: es, ps, h => by
    obtain rfl | h := List.mem_cons.1 h
    · exact apt_paren (apt_pieces d param e)
    · exact apt_piecesList d param es ps h

end

/-! ### The text and the values -/

theorem text_join (sep : String) (pss : List (List (Piece P))) :
    text (join sep.toList pss) = sep.toList.intercalate (pss.map text) := by
  induction pss with
  | nil => rfl
  | cons ps pss ih =>
    cases pss with
    | nil => simp [join]
    | cons qs pss => simp [join, text, ih]

theorem values_join (sep : List Char) (pss : List (List (Piece P))) :
    values (join sep pss) = (pss.map values).flatten := by
  induction pss with
  | nil => rfl
  | cons ps pss ih =>
    cases pss with
    | nil => simp [join]
    | cons qs pss => simp [join, values, ih]

theorem names_join (sep : List Char) (pss : List (List (Piece P))) :
    names (join sep pss) = (pss.map names).flatten := by
  induction pss with
  | nil => rfl
  | cons ps pss ih =>
    cases pss with
    | nil => simp [join]
    | cons qs pss => simp [join, names, ih]

mutual

/-- The clause is the text of its pieces. -/
theorem text_pieces (d : Dialect) (param : V → P) : (F : FilterExpr V) →
    (F.toSql d.comparison).1.toList = text (pieces d param F)
  | .cmp op field v => by simp [toSql, d.comparison_eq, pieces, text]
  | .and es => by
    rw [toSql, String.toList_intercalate, text_piecesList d param es, pieces, text_join]
  | .or es => by
    rw [toSql, String.toList_intercalate, text_piecesList d param es, pieces, text_join]
  | .not e => by
    have hnot : ((FilterExpr.not e).toSql d.comparison).1 =
        "NOT (" ++ (e.toSql d.comparison).1 ++ ")" := rfl
    rw [hnot, String.toList_append, String.toList_append, text_pieces d param e, pieces]
    simp [text]

theorem text_piecesList (d : Dialect) (param : V → P) : (es : List (FilterExpr V)) →
    (toSqlList d.comparison es).1.map String.toList = (piecesList d param es).map text
  | [] => rfl
  | e :: es => by
    have hparen : s!"({(e.toSql d.comparison).1})" = "(" ++ (e.toSql d.comparison).1 ++ ")" := rfl
    rw [toSqlList, List.map_cons, hparen, String.toList_append, String.toList_append,
      text_pieces d param e, text_piecesList d param es, piecesList, List.map_cons]
    simp [paren, text]

end

mutual

theorem values_pieces (d : Dialect) (param : V → P) : (F : FilterExpr V) →
    (F.toSql d.comparison).2.map param = values (pieces d param F)
  | .cmp _ _ _ => rfl
  | .and es => by rw [toSql, pieces, values_join, values_piecesList d param es]
  | .or es => by rw [toSql, pieces, values_join, values_piecesList d param es]
  | .not e => by simp [toSql, pieces, values, values_pieces d param e]

theorem values_piecesList (d : Dialect) (param : V → P) : (es : List (FilterExpr V)) →
    (toSqlList d.comparison es).2.map param = ((piecesList d param es).map values).flatten
  | [] => rfl
  | e :: es => by
    simp [toSqlList, piecesList, paren, values, values_pieces d param e,
      values_piecesList d param es]

end

mutual

theorem names_pieces (d : Dialect) (param : V → P) : (F : FilterExpr V) →
    names (pieces d param F) = F.fields.map fun field => d.literal field.toList
  | .cmp _ _ _ => rfl
  | .and es => by rw [pieces, names_join, names_piecesList d param es, fields]
  | .or es => by rw [pieces, names_join, names_piecesList d param es, fields]
  | .not e => by simp [fields, pieces, names, names_pieces d param e]

theorem names_piecesList (d : Dialect) (param : V → P) : (es : List (FilterExpr V)) →
    ((piecesList d param es).map names).flatten =
      (fieldsList es).map fun field => d.literal field.toList
  | [] => rfl
  | e :: es => by
    simp [fieldsList, piecesList, paren, names, names_pieces d param e, names_piecesList d param es]

end

/-! ### Other names and values -/

/-- A piece without the name or the value in it. -/
def blank : Piece P → Piece Unit
  | .code s => .code s
  | .name _ => .name []
  | .value _ => .value ()

theorem map_blank_join (sep : List Char) (pss : List (List (Piece P))) :
    (join sep pss).map blank = join sep (pss.map (List.map blank)) := by
  induction pss with
  | nil => rfl
  | cons ps pss ih =>
    cases pss with
    | nil => rfl
    | cons qs pss => simp only [join, List.map_append, List.map_cons, blank, ih]

mutual

/-- Other names and values make no difference to the other pieces. -/
theorem blank_pieces (d : Dialect) (param : V → P) (g : String → String) (h : V → V) :
    (F : FilterExpr V) → (pieces d param (F.map g h)).map blank = (pieces d param F).map blank
  | .cmp _ _ _ => rfl
  | .and es => by rw [map, pieces, pieces, map_blank_join, map_blank_join, blank_piecesList]
  | .or es => by rw [map, pieces, pieces, map_blank_join, map_blank_join, blank_piecesList]
  | .not e => by simp [map, pieces, blank, blank_pieces d param g h e]

theorem blank_piecesList (d : Dialect) (param : V → P) (g : String → String) (h : V → V) :
    (es : List (FilterExpr V)) → (piecesList d param (mapList g h es)).map (List.map blank) =
      (piecesList d param es).map (List.map blank)
  | [] => rfl
  | e :: es => by
    rw [mapList, piecesList, piecesList, List.map_cons, List.map_cons,
      blank_piecesList d param g h es]
    simp [paren, blank, blank_pieces d param g h e]

end

theorem shape_frags_blank {ph : Placeholders} {ps : List (Piece P)}
    (hph : (∀ m n, ph.text m = ph.text n) ∨ ∀ bs ∈ names ps, '?' ∉ bs) (n : ℕ) :
    Frag.shape (frags ph n ps) = Frag.shape (frags ph n (ps.map blank)) := by
  induction ps generalizing n with
  | nil => rfl
  | cons p ps ih =>
    cases p with
    | code s => simp only [List.map_cons, blank, frags, Frag.shape, ih hph]
    | value v => simp only [List.map_cons, blank, frags, Frag.shape, ih hph]
    | name bs =>
      simp only [List.map_cons, blank, frags, Frag.shape, List.count_nil, Nat.add_zero]
      obtain hph | hph := hph
      · rw [shape_frags_congr hph _ n, ih (.inl hph)]
      · rw [List.count_eq_zero.2 (hph bs List.mem_cons_self), Nat.add_zero,
          ih (.inr fun bs' hbs' => hph bs' (.tail _ hbs'))]

mutual

theorem fields_map (g : String → String) (h : V → V) : (F : FilterExpr V) →
    (F.map g h).fields = F.fields.map g
  | .cmp _ _ _ => rfl
  | .and es => fields_mapList g h es
  | .or es => fields_mapList g h es
  | .not e => fields_map g h e

theorem fields_mapList (g : String → String) (h : V → V) : (es : List (FilterExpr V)) →
    fieldsList (mapList g h es) = (fieldsList es).map g
  | [] => rfl
  | e :: es => by
    rw [mapList, fieldsList, fieldsList, List.map_append, fields_map g h e, fields_mapList g h es]

end

end FilterExpr

end Juncture
