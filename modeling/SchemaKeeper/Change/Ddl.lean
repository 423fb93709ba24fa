import SchemaKeeper.Change.Basic
import SchemaKeeper.Dialect

/-!
# Definition statements

Each change is carried out by definition statements. A statement is a value that says what it does
to which table; its text in a dialect is written from that value. MySQL does every change in one
statement. SQLite keeps indexes apart from columns and cannot redefine a column in place: a
modification builds a scratch table, copies the rows, and puts the scratch table in the old one's
place.
-/

namespace SchemaKeeper

/-- A definition statement. -/
inductive Ddl where
  /-- A table with the reserved columns and the given ones. -/
  | createTable (table : String) (columns : List Column)
  /-- A column behind another one, with an index of the given name; a missing place is the end. -/
  | addColumn (table : String) (column : Column) (after index : Option String)
  | modifyColumn (table : String) (column : Column)
  | dropColumn (table column : String)
  | createIndex (name table column : String) (unique : Bool)
  | dropIndex (name table : String)
  | copyRows (source target : String) (columns : List String)
  | dropTable (table : String)
  | renameTable (table newName : String)
  deriving DecidableEq, Repr

namespace Dialect

/-- What the definition of a column says about it: the type, whether it takes nulls, and its
default. -/
def columnAttributes (d : Dialect) (c : Column) : String :=
  c.engineType ++ " " ++ Column.nullText c.nullable
    ++ (match c.default with
      | none => ""
      | some v => " DEFAULT " ++ d.defaultLiteral v)

/-- The definition of a column. -/
def columnDefinition (d : Dialect) (c : Column) : String := c.name ++ " " ++ d.columnAttributes c

/-- The definitions of the reserved columns. -/
def reservedDefinitions (d : Dialect) : String :=
  "id VARCHAR(36) NOT NULL, created_at TIMESTAMP DEFAULT CURRENT_TIMESTAMP, "
    ++ "updated_at TIMESTAMP DEFAULT CURRENT_TIMESTAMP"
    ++ (match d with
      | .mysql => " ON UPDATE CURRENT_TIMESTAMP"
      | .sqlite => "")

/-- The statement that creates a table with the reserved columns and the given ones. -/
def createTableText (d : Dialect) (table : String) (columns : List Column) : String :=
  "CREATE TABLE " ++ table ++ " (" ++ d.reservedDefinitions
    ++ String.join (columns.map fun c => ", " ++ d.columnDefinition c) ++ ", PRIMARY KEY (id))"

/-- The word for an index in a table's definition. -/
def indexWord (unique : Bool) : String := if unique then "UNIQUE" else "INDEX"

/-- The statement that adds a column. -/
def addColumnText (d : Dialect) (table : String) (column : Column) (after index : Option String) :
    String :=
  match d with
  | .mysql =>
    "ALTER TABLE " ++ table ++ " ADD " ++ d.columnDefinition column
      ++ (match after with
        | none => ""
        | some a => " AFTER " ++ a)
      ++ (match index with
        | none => ""
        | some n =>
          ", ADD " ++ indexWord (column.index == .unique) ++ " " ++ n ++ " (" ++ column.name ++ ")")
  | .sqlite => "ALTER TABLE " ++ table ++ " ADD COLUMN " ++ d.columnDefinition column

/-- The statement that creates an index. -/
def createIndexText (d : Dialect) (name table column : String) (unique : Bool) : String :=
  match d with
  | .mysql =>
    "ALTER TABLE " ++ table ++ " ADD " ++ indexWord unique ++ " " ++ name ++ " (" ++ column ++ ")"
  | .sqlite =>
    "CREATE " ++ (if unique then "UNIQUE " else "") ++ "INDEX " ++ name ++ " ON " ++ table ++ " ("
      ++ column ++ ")"

end Dialect

/-- The text of a definition statement. -/
def Ddl.text (d : Dialect) : Ddl → String
  | .createTable t cs => d.createTableText t cs
  | .addColumn t c after index => d.addColumnText t c after index
  | .modifyColumn t c => "ALTER TABLE " ++ t ++ " MODIFY " ++ d.columnDefinition c
  | .dropColumn t c => "ALTER TABLE " ++ t ++ " DROP COLUMN " ++ c
  | .createIndex n t c unique => d.createIndexText n t c unique
  | .dropIndex n t =>
    match d with
    | .mysql => "ALTER TABLE " ++ t ++ " DROP INDEX " ++ n
    | .sqlite => "DROP INDEX IF EXISTS " ++ n
  | .copyRows source target cs =>
    "INSERT INTO " ++ target ++ " (" ++ ", ".intercalate cs ++ ") SELECT " ++ ", ".intercalate cs
      ++ " FROM " ++ source
  | .dropTable t => "DROP TABLE " ++ t
  | .renameTable t n => "ALTER TABLE " ++ t ++ " RENAME TO " ++ n

namespace Dialect

/-- The statement that gives a column its index, if it is to have one. -/
def indexStatement? (d : Dialect) (table column : String) (kind : IndexKind) : Option Ddl :=
  if kind.isIndexed then
    some (.createIndex (d.indexName table column) table column (kind == .unique))
  else none

/-- The table in which a rebuild gathers the rows. -/
def scratchName (table : String) : String := table ++ "__rebuild"

/-- Rebuild a table with the reserved columns and the given ones. -/
def rebuild (table : String) (columns : List Column) : List Ddl :=
  [ .createTable (scratchName table) columns,
    .copyRows table (scratchName table)
      (Identifier.reservedColumns ++ columns.map Column.name),
    .dropTable table,
    .renameTable (scratchName table) table ]
  ++ columns.filterMap fun c => indexStatement? .sqlite table c.name c.index

/-- The statements that carry a change out. -/
def statements (d : Dialect) : Change → List Ddl
  | .createTable t => [.createTable t []]
  | .addColumn t c after =>
    match d with
    | .mysql =>
      [.addColumn t c (some after)
        (if c.index.isIndexed then some (d.indexName t c.name) else none)]
    | .sqlite => .addColumn t c none none :: (d.indexStatement? t c.name c.index).toList
  | .modifyColumn t c cs =>
    match d with
    | .mysql => [.modifyColumn t c]
    | .sqlite => rebuild t cs
  | .dropColumn t c index =>
    match d with
    | .mysql => [.dropColumn t c]
    | .sqlite => (index.map fun n => Ddl.dropIndex n t).toList ++ [.dropColumn t c]
  | .addIndex t c kind => (d.indexStatement? t c kind).toList
  | .dropIndex t _ n => [.dropIndex n t]

end Dialect

/-- A change with its outcome and the statements that carry it out. -/
structure ChangeRecord where
  change : Change
  outcome : Outcome
  statements : List Ddl
  deriving DecidableEq, Repr

namespace ChangeRecord

/-- The record of a change in a dialect. -/
def of (d : Dialect) (change : Change) (outcome : Outcome) : ChangeRecord :=
  ⟨change, outcome, d.statements change⟩

/-- The change was carried out. -/
def isApplied (r : ChangeRecord) : Bool := r.outcome = .applied

/-- The statements that were executed for the record. -/
def executed (r : ChangeRecord) : List Ddl := if r.isApplied then r.statements else []

/-- The change was skipped. -/
def isSkipped (r : ChangeRecord) : Bool :=
  match r.outcome with
  | .skipped _ => true
  | _ => false

/-- A record in words. -/
def describe (r : ChangeRecord) : String := r.outcome.mark ++ r.change.describe

/-- The texts of a record's statements. -/
def sql (d : Dialect) (r : ChangeRecord) : List String := r.statements.map (Ddl.text d)

/-- A record as JSON. -/
def toJson (d : Dialect) (r : ChangeRecord) : Json :=
  .object (r.change.members ++ r.outcome.members ++ [("sql", .array ((r.sql d).map Json.text))])

end ChangeRecord

end SchemaKeeper
