import Mathlib.Data.Nat.Notation

/-!
# Filters, and the statements made of them

A search in a store may have a filter: comparisons of fields of an item's value, under `and`, `or` and
`not`.  The stores in databases write the filter into the condition of a statement; the names of the
fields are written into its text, the values are bound to placeholders.

The type of values is a parameter here; what is bound for a value is text.
-/

namespace Juncture

/-- Which of the comparisons `Eq`, `Ne`, `Gt`, `Gte`, `Lt`, `Lte` of a `FilterExpr`. -/
inductive CmpOp where
  | eq | ne | gt | gte | lt | lte
deriving DecidableEq

/-- `FilterExpr`. -/
inductive FilterExpr (V : Type) where
  | cmp (op : CmpOp) (field : String) (value : V)
  | and (expressions : List (FilterExpr V))
  | or (expressions : List (FilterExpr V))
  | not (expr : FilterExpr V)

namespace FilterExpr

variable {V W : Type}

mutual

/-- The field paths of a filter. -/
def fields : FilterExpr V → List String
  | .cmp _ field _ => [field]
  | .and es => fieldsList es
  | .or es => fieldsList es
  | .not e => e.fields

/-- Those of several filters. -/
def fieldsList : List (FilterExpr V) → List String
  | [] => []
  | e :: es => e.fields ++ fieldsList es

end

mutual

/-- The same filter with other field paths and values. -/
def map (g : String → String) (h : V → W) : FilterExpr V → FilterExpr W
  | .cmp op field value => .cmp op (g field) (h value)
  | .and es => .and (mapList g h es)
  | .or es => .or (mapList g h es)
  | .not e => .not (e.map g h)

/-- The same filters with other field paths and values. -/
def mapList (g : String → String) (h : V → W) : List (FilterExpr V) → List (FilterExpr W)
  | [] => []
  | e :: es => e.map g h :: mapList g h es

end

/-! ### Clauses -/

section Clauses

variable (comparison : CmpOp → String → String)

mutual

/-- The clause of a filter, with one `?` for each value, and the values; `comparison` writes down a
comparison with a field. -/
def toSql : FilterExpr V → String × List V
  | .cmp op field value => (comparison op field, [value])
  | .and es =>
    let (clauses, params) := toSqlList es
    (" AND ".intercalate clauses, params)
  | .or es =>
    let (clauses, params) := toSqlList es
    (" OR ".intercalate clauses, params)
  | .not e =>
    let (clause, params) := e.toSql
    (s!"NOT ({clause})", params)

/-- The clauses of several filters, in parentheses, and all their values. -/
def toSqlList : List (FilterExpr V) → List String × List V
  | [] => ([], [])
  | e :: es =>
    let (clause, params) := e.toSql
    let (clauses, allParams) := toSqlList es
    (s!"({clause})" :: clauses, params ++ allParams)

end

end Clauses

/-- A comparison in SQLite. -/
def sqliteComparison (op : CmpOp) (field : String) : String :=
  match op with
  | .eq => s!"json_extract(value, '$.{field}') = ?"
  | .ne => s!"json_extract(value, '$.{field}') != ?"
  | .gt => s!"CAST(json_extract(value, '$.{field}') AS REAL) > CAST(? AS REAL)"
  | .gte => s!"CAST(json_extract(value, '$.{field}') AS REAL) >= CAST(? AS REAL)"
  | .lt => s!"CAST(json_extract(value, '$.{field}') AS REAL) < CAST(? AS REAL)"
  | .lte => s!"CAST(json_extract(value, '$.{field}') AS REAL) <= CAST(? AS REAL)"

/-- `filter_to_sql_sqlite`. -/
def filterToSqlSqlite (filter : FilterExpr V) : String × List V := filter.toSql sqliteComparison

/-- `field.split('.')`. -/
def split (field : String) : List String := (field.toList.splitOn '.').map String.ofList

/-- A comparison in PostgreSQL. -/
def postgresComparison (op : CmpOp) (field : String) : String :=
  let path := ",".intercalate (split field)
  match op with
  | .eq => s!"value #>> '\x7b{path}\x7d' = ?"
  | .ne => s!"value #>> '\x7b{path}\x7d' != ?"
  | .gt => s!"(value #> '\x7b{path}\x7d')::numeric > CAST(? AS numeric)"
  | .gte => s!"(value #> '\x7b{path}\x7d')::numeric >= CAST(? AS numeric)"
  | .lt => s!"(value #> '\x7b{path}\x7d')::numeric < CAST(? AS numeric)"
  | .lte => s!"(value #> '\x7b{path}\x7d')::numeric <= CAST(? AS numeric)"

/-- `filter_to_sql_postgres`. -/
def filterToSqlPostgres (filter : FilterExpr V) : String × List V := filter.toSql postgresComparison

/-! ### Statements -/

/-- The statement of a search. -/
def searchSql (whereClause : String) : String :=
  s!"SELECT namespace, key, value, created_at, updated_at FROM store_items WHERE {whereClause} ORDER BY namespace, key"

/-- Text and parameters of the statement of `SqliteStore::search`; `param` is
`sqlite_param_from_value`. -/
def searchSqlite (param : V → String) (namespacePrefix : String) (filter : Option (FilterExpr V)) :
    String × List String :=
  match filter with
  | none => (searchSql (" AND ".intercalate ["namespace LIKE ?"]), [namespacePrefix ++ "%"])
  | some filter =>
    let (clause, params) := filter.filterToSqlSqlite
    (searchSql (" AND ".intercalate ["namespace LIKE ?", s!"({clause})"]),
      (namespacePrefix ++ "%") :: params.map param)

/-- Each `?` becomes `$n`, `$(n + 1)` and so on. -/
def renumber : ℕ → List Char → List Char
  | _, [] => []
  | n, c :: cs =>
    if c = '?' then '$' :: ((toString n).toList ++ renumber (n + 1) cs) else c :: renumber n cs

/-- Text and parameters of the statement of `PostgresStore::search`; `param` is `to_string`. -/
def searchPostgres (param : V → String) (namespacePrefix : String) (filter : Option (FilterExpr V)) :
    String × List String :=
  match filter with
  | none => (searchSql (" AND ".intercalate ["namespace LIKE $1"]), [namespacePrefix ++ "%"])
  | some filter =>
    let (clause, params) := filter.filterToSqlPostgres
    let numberedClause := String.ofList (renumber 2 clause.toList)
    (searchSql (" AND ".intercalate ["namespace LIKE $1", s!"({numberedClause})"]),
      (namespacePrefix ++ "%") :: params.map param)

end FilterExpr

end Juncture
