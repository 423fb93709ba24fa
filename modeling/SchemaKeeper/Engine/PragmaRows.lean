import SchemaKeeper.Engine.SqlToken
import SchemaKeeper.Session.Backend

/-!
# Columns from PRAGMA rows

An SQLite database describes a table in several results: one row for each column, one for each
index, and for each index one row for each of its columns. Only an index on exactly one named column
counts; the primary key's does not.
-/

namespace SchemaKeeper

/-- A question about the structure of a database. -/
inductive Pragma where
  | tableInfo (table : String)
  | indexList (table : String)
  | indexInfo (index : String)
  deriving DecidableEq, Repr

/-- The statement that asks a question. -/
def Pragma.sql : Pragma → String
  | .tableInfo t => "PRAGMA table_info(" ++ t ++ ")"
  | .indexList t => "PRAGMA index_list(" ++ t ++ ")"
  | .indexInfo i => "PRAGMA index_info(" ++ i ++ ")"

namespace PragmaRows

/-- An index on a single column. -/
structure ColumnIndex where
  name : String
  column : String
  kind : IndexKind
  deriving DecidableEq, Repr

/-- The inside of a text between single quotes. -/
def unquoted? : List Char → Option (List Char)
  | '\'' :: rest =>
    if rest.getLast? = some '\'' then some (SqlToken.halve '\'' rest.dropLast) else none
  | _ => none

/-- The default that a reported text stands for: `NULL` is none, a quoted text its inside, and
anything else itself. -/
def defaultOf (raw : Option String) : Option Scalar :=
  match raw with
  | none => none
  | some raw =>
    let chars := Text.trimChars raw.toList
    if Text.sameIgnoringCase (String.ofList chars) "NULL" then none
    else some (.text (String.ofList ((unquoted? chars).getD chars)))

/-- The name under which an index is to be asked about; the primary key's is not. -/
def nameToAsk? (index : Row) : Option String :=
  if index.text? "origin" = some "pk" then none else index.text? "name"

/-- The index of an index row whose columns are known. -/
def columnIndex? (index : Row) (name : String) (info : List Row) : Option ColumnIndex :=
  match info with
  | [part] => (part.text? "name").map fun column =>
      ⟨name, column, if index.int? "unique" = some 1 then .unique else .nonUnique⟩
  | _ => none

/-- The column of a row; a row without a name has none. -/
def column? (indexes : List ColumnIndex) (row : Row) : Option LiveColumn :=
  (row.text? "name").map fun name =>
    let index := indexes.find? fun i => i.column = name
    { spec := Column.ofType name ((row.text? "type").getD "") (row.int? "notnull" ≠ some 1)
        (defaultOf (row.text? "dflt_value"))
        (match index with
          | some i => i.kind
          | none => .none)
      indexName := index.map ColumnIndex.name }

/-- The columns of a table. -/
def liveColumns (columns : List Row) (indexes : List ColumnIndex) : List LiveColumn :=
  columns.filterMap (column? indexes)

variable {σ : Type}

/-- How an engine answers questions. -/
abbrev Asking (σ : Type) := Pragma → σ → Except EngineFault (List Row) × σ

/-- The rows of a question, with a fault made the statement's failure. -/
def ask (asking : Asking σ) (p : Pragma) (state : σ) : Except Failure (List Row) × σ :=
  match asking p state with
  | (.ok rows, state) => (.ok rows, state)
  | (.error f, state) => (.error (.ofStatement p.sql f), state)

/-- The single-column indexes of some index rows. -/
def indexes (asking : Asking σ) : List Row → σ → Except Failure (List ColumnIndex) × σ
  | [], state => (.ok [], state)
  | row :: rest, state =>
    match nameToAsk? row with
    | none => indexes asking rest state
    | some name =>
      match ask asking (.indexInfo name) state with
      | (.error e, state) => (.error e, state)
      | (.ok info, state) =>
        let (found, state) := indexes asking rest state
        (found.map fun l => (columnIndex? row name info).toList ++ l, state)

/-- The columns of a table. -/
def describe (asking : Asking σ) (table : String) (state : σ) :
    Except Failure (List LiveColumn) × σ :=
  match ask asking (.tableInfo table) state with
  | (.error e, state) => (.error e, state)
  | (.ok columns, state) =>
    match ask asking (.indexList table) state with
    | (.error e, state) => (.error e, state)
    | (.ok list, state) =>
      let (found, state) := indexes asking list state
      (found.map (liveColumns columns), state)

end PragmaRows

end SchemaKeeper
