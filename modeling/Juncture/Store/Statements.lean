import Juncture.Store.Dialects

/-!
# What the names of fields can do to a statement

The statement of a search should have the same structure whatever the names of the fields and the values
are, and its placeholders should stand for the parameters, one for one and in order.

* `FilterExpr.Safe` : a statement is like that.
* `FilterExpr.safe_iff` : for which filters the statements of both dialects are.
-/

namespace Juncture

open Quoting

namespace FilterExpr

open Piece

variable {V : Type}

/-! ### The statements -/

/-- A name without quotes and placeholders. -/
def Plain (field : String) : Prop := ∀ c ∈ field.toList, c.isAlphanum = true ∨ c = '_'

theorem isPlain_of_all {field : String}
    (h : field.toList.all (fun c => c.isAlphanum || c == '_') = true) : Plain field := by
  intro c hc
  have hall := List.all_eq_true.mp h c hc
  simpa using hall

/-- Whatever the names of fields and the values are, the statement has the structure it has for plain names
and any values; and its placeholders stand for its parameters, as `filled` says. -/
def Safe (statement : FilterExpr V → String × List String) (ph : Placeholders)
    (filled : List (Token Char ⊕ String)) (F : FilterExpr V) : Prop :=
  (∀ (g : String → String) (h : V → V), (∀ field, Plain (g field)) →
    structureOf (statement F).1 = structureOf (statement (F.map g h)).1) ∧
  Fills ph 1 (structureOf (statement F).1) filled (statement F).2

/-- The pieces of the statement of a search. -/
def statementPieces (d : Dialect) (param : V → String) (namespacePrefix : String) (F : FilterExpr V) :
    List (Piece String) :=
  .code "SELECT namespace, key, value, created_at, updated_at FROM store_items WHERE namespace LIKE ".toList ::
    .value (namespacePrefix ++ "%") :: .code " AND (".toList ::
      (pieces d param F ++ [.code ") ORDER BY namespace, key".toList])

/-- Code of the statement, up to the first placeholder. -/
theorem select_eq :
    "SELECT namespace, key, value, created_at, updated_at FROM store_items WHERE ".toList ++
        "namespace LIKE ".toList =
      "SELECT namespace, key, value, created_at, updated_at FROM store_items WHERE namespace LIKE ".toList := by
  refine (toList_ofList_append ?_).symm
  rfl

theorem select_isCode :
    ∀ c ∈ "SELECT namespace, key, value, created_at, updated_at FROM store_items WHERE namespace LIKE ".toList,
      c ≠ quote ∧ c ≠ '?' ∧ c ≠ '$' :=
  isCode_ofList (by decide +kernel)

theorem and_isCode : ∀ c ∈ " AND (".toList, c ≠ quote ∧ c ≠ '?' ∧ c ≠ '$' := isCode_ofList (by decide +kernel)

theorem orderBy_isCode : ∀ c ∈ ") ORDER BY namespace, key".toList, c ≠ quote ∧ c ≠ '?' ∧ c ≠ '$' :=
  isCode_ofList (by decide +kernel)

theorem searchSqlite_eq (param : V → String) (namespacePrefix : String) (F : FilterExpr V) :
    (searchSqlite param namespacePrefix (some F)).1.toList =
      text (statementPieces sqlite param namespacePrefix F) := by
  have hsql : (searchSqlite param namespacePrefix (some F)).1 =
      "SELECT namespace, key, value, created_at, updated_at FROM store_items WHERE " ++
        ("namespace LIKE ?" ++ " AND " ++ ("(" ++ F.filterToSqlSqlite.1 ++ ")")) ++
        " ORDER BY namespace, key" := rfl
  have hlike : "namespace LIKE ?".toList = "namespace LIKE ".toList ++ ['?'] := toList_ofList_append rfl
  have hand : " AND ".toList ++ "(".toList = " AND (".toList := rfl
  have horder : ")".toList ++ " ORDER BY namespace, key".toList =
      ") ORDER BY namespace, key".toList := rfl
  have hclause : F.filterToSqlSqlite.1.toList = text (pieces sqlite param F) :=
    text_pieces sqlite param F
  simp only [hsql, String.toList_append, hlike, hclause, statementPieces, text, text_append,
    ← select_eq, ← hand, ← horder, List.append_assoc, List.cons_append, List.nil_append,
    List.append_nil]

theorem renumber_eq (n : ℕ) (cs : List Char) : renumber n cs = number postgresPlaceholders n cs := by
  induction cs generalizing n with
  | nil => rfl
  | cons c cs ih =>
    by_cases hc : c = '?'
    · rw [renumber, number, if_pos hc, if_pos hc, ih]
      rfl
    · rw [renumber, number, if_neg hc, if_neg hc, ih]

theorem searchPostgres_eq (param : V → String) (namespacePrefix : String) (F : FilterExpr V) :
    (searchPostgres param namespacePrefix (some F)).1.toList =
      number postgresPlaceholders 1 (text (statementPieces postgres param namespacePrefix F)) := by
  have hsql : (searchPostgres param namespacePrefix (some F)).1 =
      "SELECT namespace, key, value, created_at, updated_at FROM store_items WHERE " ++
        ("namespace LIKE $1" ++ " AND " ++
          ("(" ++ String.ofList (renumber 2 F.filterToSqlPostgres.1.toList) ++ ")")) ++
        " ORDER BY namespace, key" := rfl
  have hlike : "namespace LIKE $1".toList = "namespace LIKE ".toList ++ ['$', '1'] :=
    toList_ofList_append rfl
  have hand : " AND ".toList ++ "(".toList = " AND (".toList := rfl
  have horder : ")".toList ++ " ORDER BY namespace, key".toList =
      ") ORDER BY namespace, key".toList := rfl
  have hclause : F.filterToSqlPostgres.1.toList = text (pieces postgres param F) :=
    text_pieces postgres param F
  have hfirst : number postgresPlaceholders 1 ('?' :: []) = ['$', '1'] := rfl
  -- only the clause has placeholders to number
  have hnumber : number postgresPlaceholders 1 (text (statementPieces postgres param
      namespacePrefix F)) =
      "SELECT namespace, key, value, created_at, updated_at FROM store_items WHERE namespace LIKE ".toList ++
        (['$', '1'] ++ (" AND (".toList ++ (number postgresPlaceholders 2 (text (pieces postgres param F)) ++
          ") ORDER BY namespace, key".toList))) := by
    have hcode : '?' ∉ "SELECT namespace, key, value, created_at, updated_at FROM store_items WHERE namespace LIKE ".toList :=
      fun hmem => (select_isCode _ hmem).2.1 rfl
    have hand' : '?' ∉ " AND (".toList := fun hmem => (and_isCode _ hmem).2.1 rfl
    have horder' : '?' ∉ ") ORDER BY namespace, key".toList := fun hmem => (orderBy_isCode _ hmem).2.1 rfl
    simp only [statementPieces, text, text_append, List.append_nil]
    rw [number_append, number_of_not_mem hcode, List.count_eq_zero.2 hcode,
      show ∀ cs : List Char, '?' :: cs = ['?'] ++ cs from fun _ => rfl, number_append, hfirst,
      number_append, number_of_not_mem hand', number_append, number_of_not_mem horder']
    rfl
  simp only [hsql, hnumber, String.toList_append, String.toList_ofList, renumber_eq, hlike, hclause,
    ← select_eq, ← hand, ← horder, List.append_assoc]

/-! ### Which statements are safe -/

section Safe

variable {d : Dialect} {ph : Placeholders} {param : V → String} {namespacePrefix : String}
  {statement : FilterExpr V → String × List String}

theorem wellFormed_statementPieces (d : Dialect) (param : V → String) (namespacePrefix : String)
    (F : FilterExpr V) : WellFormed d.first (statementPieces d param namespacePrefix F) := by
  have hend : Apt d.first [Piece.code (P := String) ") ORDER BY namespace, key".toList] :=
    .code orderBy_isCode (noDigit_of_all (by decide +kernel)) ⟨trivial, trivial⟩
  have hrest : Apt d.first (.code " AND (".toList ::
      (pieces d param F ++ [.code ") ORDER BY namespace, key".toList])) :=
    .code and_isCode (noDigit_of_all (by decide +kernel)) ((apt_pieces d param F).append hend)
  exact ⟨select_isCode, hrest.2, hrest.1⟩

theorem names_statementPieces (d : Dialect) (param : V → String) (namespacePrefix : String)
    (F : FilterExpr V) : names (statementPieces d param namespacePrefix F) =
      F.fields.map fun field => d.literal field.toList := by
  simp only [statementPieces, names, names_append, names_pieces, List.append_nil]

theorem values_statementPieces (d : Dialect) (param : V → String) (namespacePrefix : String)
    (F : FilterExpr V) : values (statementPieces d param namespacePrefix F) =
      (namespacePrefix ++ "%") :: (F.toSql d.comparison).2.map param := by
  simp only [statementPieces, values, values_append, values_pieces, List.append_nil]

theorem blank_statementPieces (d : Dialect) (param : V → String) (namespacePrefix : String)
    (F : FilterExpr V) (g : String → String) (h : V → V) :
    (statementPieces d param namespacePrefix (F.map g h)).map blank =
      (statementPieces d param namespacePrefix F).map blank := by
  simp only [statementPieces, List.map_cons, List.map_append, blank, blank_pieces]

/-- Every quote in the names of fields comes in a pair. -/
theorem paired_names_iff (F : FilterExpr V) :
    (∀ bs ∈ names (statementPieces d param namespacePrefix F), Paired quote bs) ↔
      ∀ field ∈ F.fields, Paired quote field.toList := by
  simp [names_statementPieces, d.paired_literal]

theorem marks_names_iff (F : FilterExpr V) :
    (∀ bs ∈ names (statementPieces d param namespacePrefix F), '?' ∉ bs) ↔
      ∀ field ∈ F.fields, '?' ∉ field.toList := by
  have hmark : ∀ field, '?' ∉ d.literal field ↔ '?' ∉ field := fun field => by
    rw [← List.count_eq_zero, d.count_literal, List.count_eq_zero]
  simp only [names_statementPieces, List.forall_mem_map, hmark]

/-- The tokens of a statement are those of its pieces, if all quotes in names come in pairs. -/
theorem structureOf_statement (hmark : d.first ≠ '?')
    (hph : ∀ n, quote ∉ ph.text n)
    (hsql : ∀ F, (statement F).1.toList =
      number ph 1 (text (statementPieces d param namespacePrefix F)))
    {F : FilterExpr V} (hpaired : ∀ field ∈ F.fields, Paired quote field.toList) :
    structureOf (statement F).1 =
      Frag.shape (frags ph 1 (statementPieces d param namespacePrefix F)) := by
  have hwell := wellFormed_statementPieces d param namespacePrefix F
  rw [structureOf, hsql, number_text ph 1 hwell]
  exact Frag.tokens_flatten (by simp) (guarded_frags hph hmark 1 hwell) (by simp [Frag.Fits])
    ((sealed_frags_iff hph 1 _).2 ((paired_names_iff F).2 hpaired))

theorem paired_of_plain {field : String} (h : Plain field) : Paired quote field.toList := by
  refine sealed_iff_paired.1 (sealed_of_not_mem fun hmem => ?_)
  obtain hc | hc := h _ hmem <;> revert hc <;> decide

theorem not_mem_of_plain {field : String} (h : Plain field) : '?' ∉ field.toList := by
  intro hmem
  obtain hc | hc := h _ hmem <;> revert hc <;> decide

/-- Only if all quotes in names come in pairs can the structure be that for plain names. -/
theorem paired_of_safe (hfirst : d.first ≠ quote) (hmark : d.first ≠ '?')
    (hph : ∀ n, quote ∉ ph.text n)
    (hsql : ∀ F, (statement F).1.toList =
      number ph 1 (text (statementPieces d param namespacePrefix F)))
    {F : FilterExpr V} {filled : List (Token Char ⊕ String)} (hsafe : Safe statement ph filled F) :
    ∀ field ∈ F.fields, Paired quote field.toList := by
  have hplain : ∀ field : String, Plain ((fun _ => "field") field) := by
    have hfield : Plain "field" := by
      exact isPlain_of_all (by decide)
    exact fun _ => hfield
  have htokens := hsafe.1 (fun _ => "field") id hplain
  have hwell := wellFormed_statementPieces d param namespacePrefix F
  have hwell' := wellFormed_statementPieces d param namespacePrefix (F.map (fun _ => "field") id)
  rw [structureOf, structureOf, hsql, hsql, number_text ph 1 hwell, number_text ph 1 hwell'] at htokens
  suffices hnames : ∀ bs ∈ names (statementPieces d param namespacePrefix F), Paired quote bs from
    (paired_names_iff F).1 hnames
  rw [← sealed_frags_iff hph 1]
  refine Frag.sealed_of_tokens_eq hfirst (guarded_frags hph hmark 1 hwell)
    (guarded_frags hph hmark 1 hwell') ?_ ?_ htokens
  · simp [bodies_frags, names_statementPieces, fields_map]
  · refine (sealed_frags_iff hph 1 _).2 ((paired_names_iff _).2 fun field hfield => ?_)
    rw [fields_map] at hfield
    obtain ⟨field', -, rfl⟩ := List.mem_map.1 hfield
    exact paired_of_plain (hplain field')

/-- It is, if in addition no name can be taken for a placeholder. -/
theorem safe_of_paired (hmark : d.first ≠ '?')
    (hph : ∀ n, quote ∉ ph.text n) (hmarker : ph.marker = '?' ∨ ph.marker = '$')
    (hsql : ∀ F, (statement F).1.toList =
      number ph 1 (text (statementPieces d param namespacePrefix F)))
    (hparams : ∀ F, (statement F).2 = values (statementPieces d param namespacePrefix F))
    {F : FilterExpr V} (hpaired : ∀ field ∈ F.fields, Paired quote field.toList)
    (hmarks : (∀ m n, ph.text m = ph.text n) ∨ ∀ field ∈ F.fields, '?' ∉ field.toList) :
    Safe statement ph (filled (statementPieces d param namespacePrefix F)) F := by
  have hmarks' : (∀ m n, ph.text m = ph.text n) ∨
      ∀ bs ∈ names (statementPieces d param namespacePrefix F), '?' ∉ bs :=
    hmarks.imp_right (marks_names_iff F).2
  have hstructure := structureOf_statement hmark hph hsql hpaired
  refine ⟨fun g h hplain => ?_, ?_⟩
  · have hpaired' : ∀ field ∈ (F.map g h).fields, Paired quote field.toList := by
      intro field hfield
      rw [fields_map] at hfield
      obtain ⟨field', -, rfl⟩ := List.mem_map.1 hfield
      exact paired_of_plain (hplain field')
    have hmarks'' : ∀ field ∈ (F.map g h).fields, '?' ∉ field.toList := by
      intro field hfield
      rw [fields_map] at hfield
      obtain ⟨field', -, rfl⟩ := List.mem_map.1 hfield
      exact not_mem_of_plain (hplain field')
    rw [hstructure, structureOf_statement hmark hph hsql hpaired',
      shape_frags_blank hmarks', shape_frags_blank (.inr ((marks_names_iff _).2 hmarks'')),
      blank_statementPieces]
  · rw [hstructure, hparams]
    exact fills_shape hmarker (wellFormed_statementPieces d param namespacePrefix F) hmarks' 1

end Safe

/-- The search of SQLite is safe for a filter. -/
def SqliteSafe (param : V → String) (namespacePrefix : String) (F : FilterExpr V) : Prop :=
  Safe (fun F => searchSqlite param namespacePrefix (some F)) sqlitePlaceholders
    (filled (statementPieces sqlite param namespacePrefix F)) F

/-- The search of PostgreSQL is safe for a filter. -/
def PostgresSafe (param : V → String) (namespacePrefix : String) (F : FilterExpr V) : Prop :=
  Safe (fun F => searchPostgres param namespacePrefix (some F)) postgresPlaceholders
    (filled (statementPieces postgres param namespacePrefix F)) F

theorem sqliteSafe_iff (param : V → String) (namespacePrefix : String) (F : FilterExpr V) :
    SqliteSafe param namespacePrefix F ↔ ∀ field ∈ F.fields, Paired quote field.toList := by
  have hph : ∀ n, quote ∉ sqlitePlaceholders.text n := fun _ => by
    simp only [Placeholders.text, sqlitePlaceholders, List.mem_singleton]
    decide
  have hsql : ∀ F : FilterExpr V, (searchSqlite param namespacePrefix (some F)).1.toList =
      number sqlitePlaceholders 1 (text (statementPieces sqlite param namespacePrefix F)) := fun F => by
    rw [number_sqlite, searchSqlite_eq]
  have hparams : ∀ F : FilterExpr V, (searchSqlite param namespacePrefix (some F)).2 =
      values (statementPieces sqlite param namespacePrefix F) :=
    fun F => (values_statementPieces sqlite param namespacePrefix F).symm
  exact ⟨paired_of_safe (by decide) (by decide) hph hsql, fun hpaired =>
    safe_of_paired (by decide) hph (.inl rfl) hsql hparams hpaired (.inl fun _ _ => rfl)⟩

theorem postgresSafe_iff (param : V → String) (namespacePrefix : String) (F : FilterExpr V) :
    PostgresSafe param namespacePrefix F ↔
      ∀ field ∈ F.fields, Paired quote field.toList ∧ '?' ∉ field.toList := by
  have hph : ∀ n, quote ∉ postgresPlaceholders.text n := by
    intro n hmem
    obtain hmark | hdigit := List.mem_cons.1 hmem
    · exact absurd hmark (by decide)
    · exact absurd (isDigit_digits n _ hdigit) (by decide)
  have hsql := searchPostgres_eq (V := V) param namespacePrefix
  have hparams : ∀ F : FilterExpr V, (searchPostgres param namespacePrefix (some F)).2 =
      values (statementPieces postgres param namespacePrefix F) :=
    fun F => (values_statementPieces postgres param namespacePrefix F).symm
  constructor
  · intro hsafe field hfield
    have hpaired := paired_of_safe (d := postgres) (by decide) (by decide) hph hsql hsafe
    have hfills := hsafe.2
    rw [structureOf_statement (d := postgres) (by decide) hph hsql hpaired, hparams] at hfills
    have hmarks := (not_mem_names_of_fills (d := 0)
      (wellFormed_statementPieces postgres param namespacePrefix F) hfills).2
    exact ⟨hpaired field hfield, (marks_names_iff F).1 hmarks field hfield⟩
  · intro h
    exact safe_of_paired (by decide) hph (.inr rfl) hsql hparams (fun field hfield => (h field hfield).1)
      (.inr fun field hfield => (h field hfield).2)

/-- The statements of both dialects are safe exactly if in every name of a field all quotes come in pairs
and, in PostgreSQL, none has a question mark. -/
theorem safe_iff (param : V → String) (namespacePrefix : String) (F : FilterExpr V) :
    (SqliteSafe param namespacePrefix F ↔ ∀ field ∈ F.fields, Paired quote field.toList) ∧
    (PostgresSafe param namespacePrefix F ↔
      ∀ field ∈ F.fields, Paired quote field.toList ∧ '?' ∉ field.toList) :=
  ⟨sqliteSafe_iff param namespacePrefix F, postgresSafe_iff param namespacePrefix F⟩

end FilterExpr

/-- A filter whose field name adds a clause of its own. -/
def injected : FilterExpr Unit := .cmp .eq "a') = 1 OR ('b" ()

/-- It changes the clauses of the statement. -/
theorem injected_not_safe :
    ¬ ∀ (param : Unit → String) (namespacePrefix : String) (F : FilterExpr Unit),
      FilterExpr.SqliteSafe param namespacePrefix F ∧ FilterExpr.PostgresSafe param namespacePrefix F := by
  intro hsafe
  have hpaired := (FilterExpr.sqliteSafe_iff (fun _ => "1") "" injected).1
    (hsafe (fun _ => "1") "" injected).1
  rw [injected, FilterExpr.fields, List.forall_mem_singleton] at hpaired
  revert hpaired
  decide

end Juncture
