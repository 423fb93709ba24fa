import SchemaKeeper.Engine.ColumnDefinition
import SchemaKeeper.Engine.PragmaArgument
import SchemaKeeper.Text.Utf8

/-!
# SQLite catalogues

The structure of an SQLite database: its tables with their columns and indexes, without rows. A
catalogue answers structure questions and carries definition statements out, and a disk of
catalogues under file names is a backend. Names are looked up without regard to ASCII case.
-/

namespace SchemaKeeper

/-- A column as the catalogue keeps it, with the text of its default. -/
structure CatalogueColumn where
  name : String
  type : String
  notNull : Bool
  default : Option String
  deriving DecidableEq, Repr

/-- A column declared with a type and with clauses behind it. The text of the type may bring clauses
too, and of two defaults the last one holds. -/
def CatalogueColumn.declared (name type : String) (notNull : Bool) (default : Option String) :
    CatalogueColumn :=
  let d := ColumnDefinition.ofText type
  ⟨name, d.type, notNull || d.notNull, default <|> d.default⟩

/-- An index; a part that is an expression has no column name. -/
structure CatalogueIndex where
  name : String
  unique : Bool
  parts : List (Option String)
  deriving DecidableEq, Repr

/-- A table with its indexes in the order of their creation. -/
structure CatalogueTable where
  name : String
  columns : List CatalogueColumn
  primaryKey : Option String
  indexes : List CatalogueIndex
  deriving DecidableEq, Repr

/-- The tables of a database. -/
abbrev Catalogue := List CatalogueTable

namespace Catalogue

/-- A table name as the catalogue compares it. -/
def isNamed (name : String) (t : CatalogueTable) : Bool := Text.sameIgnoringCase t.name name

/-- Change the table of a name. -/
def update (c : Catalogue) (name : String) (f : CatalogueTable → CatalogueTable) : Catalogue :=
  c.map fun t => if isNamed name t then f t else t

/-- A column as the engine reads it from its definition. -/
def columnOf (c : Column) : CatalogueColumn :=
  let d := ColumnDefinition.ofText (Dialect.sqlite.columnAttributes c)
  ⟨c.name, d.type, d.notNull, d.default⟩

/-- The reserved columns as their definitions make them. -/
def reserved : List CatalogueColumn :=
  [ ⟨"id", "VARCHAR(36)", true, none⟩,
    ⟨"created_at", "TIMESTAMP", false, some "CURRENT_TIMESTAMP"⟩,
    ⟨"updated_at", "TIMESTAMP", false, some "CURRENT_TIMESTAMP"⟩ ]

/-- Carry a definition statement out. -/
def apply (c : Catalogue) : Ddl → Catalogue
  | .createTable t columns => c ++ [⟨t, reserved ++ columns.map columnOf, some "id", []⟩]
  | .addColumn t column _ _ =>
    c.update t fun table => { table with columns := table.columns ++ [columnOf column] }
  | .modifyColumn .. => c
  | .dropColumn t column => c.update t fun table =>
    { table with columns := table.columns.filter fun k => !Text.sameIgnoringCase k.name column }
  | .createIndex name t column unique => c.update t fun table =>
    { table with indexes := table.indexes ++ [⟨name, unique, [some column]⟩] }
  | .dropIndex name _ => c.map fun table =>
    { table with indexes := table.indexes.filter fun i => !Text.sameIgnoringCase i.name name }
  | .copyRows .. => c
  | .dropTable t => c.filter fun table => !isNamed t table
  | .renameTable t newName => c.update t fun table => { table with name := newName }

/-- The text as a value. -/
def textField (name value : String) : String × Option Scalar := (name, some (.text value))

/-- The number as a value. -/
def intField (name : String) (value : Int) : String × Option Scalar :=
  (name, some (.int (Int64.ofInt value)))

/-- The flag as a value. -/
def flagField (name : String) (value : Bool) : String × Option Scalar :=
  intField name (if value then 1 else 0)

/-- The row for a column. -/
def columnRow (t : CatalogueTable) (column : CatalogueColumn) : Row :=
  ⟨[ textField "name" column.name, textField "type" column.type,
    flagField "notnull" column.notNull, ("dflt_value", column.default.map Scalar.text),
    flagField "pk" (t.primaryKey = some column.name) ]⟩

/-- The row for an index. -/
def indexRow (i : CatalogueIndex) : Row :=
  ⟨[textField "name" i.name, flagField "unique" i.unique, textField "origin" "c"]⟩

/-- The rows for the index behind a primary key. -/
def primaryKeyRows (t : CatalogueTable) : List Row :=
  if t.primaryKey.isSome then
    [⟨[textField "name" ("sqlite_autoindex_" ++ t.name ++ "_1"), flagField "unique" true,
      textField "origin" "pk"]⟩]
  else []

/-- The row for a part of an index. -/
def partRow (part : Option String) : Row := ⟨[("name", part.map Scalar.text)]⟩

/-- The column of one of the engine's own tables. -/
def ownColumn (name type : String) : CatalogueColumn := ⟨name, type, false, none⟩

/-- The tables in which the engine keeps the structure of databases. They are not listed with the
others. -/
def ownTables : Catalogue :=
  ["sqlite_master", "sqlite_schema", "sqlite_temp_master", "sqlite_temp_schema"].map fun name =>
    ⟨name, [ownColumn "type" "TEXT", ownColumn "name" "TEXT", ownColumn "tbl_name" "TEXT",
      ownColumn "rootpage" "INT", ownColumn "sql" "TEXT"], none, []⟩

/-- The rows that answer a question. Indexes are listed newest first and the primary key's last; a
table or index that does not exist has no rows. -/
def rows (c : Catalogue) : Pragma → List Row
  | .tableInfo t => (((c ++ ownTables).find? (isNamed t)).map fun table =>
      table.columns.map (columnRow table)).getD []
  | .indexList t => ((c.find? (isNamed t)).map fun table =>
      table.indexes.reverse.map indexRow ++ primaryKeyRows table).getD []
  | .indexInfo i => (((c.flatMap CatalogueTable.indexes).find? fun index =>
      Text.sameIgnoringCase index.name i).map fun index => index.parts.map partRow).getD []

/-- The answer to a question; the engine reads the question from its text. -/
def answer (c : Catalogue) (p : Pragma) : Except EngineFault (List Row) :=
  match p.read with
  | .error fault => .error (.database (some (.result 1)) fault.message)
  | .ok read => .ok (c.rows read)

/-- The engine keeps the name for its own tables. -/
def isInternal (name : String) : Bool :=
  "sqlite".toList.isPrefixOf (Text.asciiLower name).toList && name.length > "sqlite".length

/-- Put a name into a sorted list. -/
def insertName (name : String) : List String → List String
  | [] => [name]
  | n :: rest => if name ≤ n then name :: n :: rest else n :: insertName name rest

/-- The names of all tables in the order of their code points. -/
def tableNames (c : Catalogue) : List String :=
  ((c.map CatalogueTable.name).filter fun n => !isInternal n).foldr insertName []

end Catalogue

/-- Databases under their file names, and the one that is open. -/
structure Disk where
  files : List (String × Catalogue) := []
  /-- The open file; none is a database in memory. -/
  current : Option String := none
  memory : Catalogue := []
  deriving DecidableEq, Repr

namespace Disk

/-- The file name that stands for a new database in memory. -/
def memoryName : String := ":memory:"

/-- The open database. -/
def opened (d : Disk) : Catalogue :=
  match d.current with
  | some path => (d.files.lookup path).getD []
  | none => d.memory

/-- Put a file in its place, or at the end. -/
def putFile (path : String) (c : Catalogue) : List (String × Catalogue) → List (String × Catalogue)
  | [] => [(path, c)]
  | (p, old) :: rest => if p = path then (p, c) :: rest else (p, old) :: putFile path c rest

/-- Change the open database. -/
def change (d : Disk) (f : Catalogue → Catalogue) : Disk :=
  match d.current with
  | some path => { d with files := putFile path (f d.opened) d.files }
  | none => { d with memory := f d.memory }

/-- The fault of a file that cannot be opened. -/
def cannotOpen : EngineFault :=
  .database (some (.result 14)) "unable to open database file"

/-- Open a database. A file that is missing is created, unless its name leads through a
directory. -/
def openFile (d : Disk) (path : String) : Except Failure Unit × Disk :=
  if path = memoryName then (.ok (), { d with current := none, memory := [] })
  else if (d.files.lookup path).isNone && path.toList.contains '/' then
    (.error (.connect cannotOpen), d)
  else (.ok (), { d with current := some path }.change id)

/-- The statement that lists all tables. -/
def tablesSql : String :=
  "SELECT name FROM sqlite_master WHERE type = 'table' AND name NOT LIKE 'sqlite_%' ORDER BY name"

/-- Answer a question about the open database. -/
def asking : PragmaRows.Asking Disk := fun p d => (d.opened.answer p, d)

/-- The backend of a disk. Definition statements change the open database; statements on rows change
nothing and bring no rows. -/
def backend : Backend Disk where
  dialect := .sqlite
  tablesSql := tablesSql
  columnsSql t := (Pragma.tableInfo t).sql
  connect config d := d.openFile config.database
  execute command d :=
    match command with
    | .ddl statement => (.ok 0, d.change fun c => c.apply statement)
    | .text _ => (.ok 0, d)
  fetch sql d :=
    if sql = tablesSql then
      (.ok (d.opened.tableNames.map fun n => ⟨[Catalogue.textField "name" n]⟩), d)
    else (.ok [], d)
  describe := PragmaRows.describe asking

/-- A backend that nothing can be reached through. -/
def unreachable : Backend Disk where
  dialect := .mysql
  tablesSql := "SHOW TABLES"
  columnsSql t := "SHOW COLUMNS FROM " ++ t
  connect _ d := (.error (.connect (.io "Connection refused (os error 111)")), d)
  execute _ d := (.ok 0, d)
  fetch _ d := (.ok [], d)
  describe _ d := (.ok [], d)

end Disk

/-- A value as an SQLite database stores it. -/
inductive StoredValue where
  | null
  | integer (i : Int64)
  | real (x : Binary64)
  | text (s : String)
  | blob (bytes : List Nat)
  deriving DecidableEq, Repr

/-- A stored value in a row; bytes are read as text. -/
def StoredValue.toScalar : StoredValue → Option Scalar
  | .null => none
  | .integer i => some (.int i)
  | .real x => some (.float x)
  | .text s => some (.text s)
  | .blob bytes => some (.text (Text.decodeLossy bytes))

end SchemaKeeper
