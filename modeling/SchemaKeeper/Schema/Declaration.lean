import SchemaKeeper.Json.Reader
import SchemaKeeper.Schema.Column

/-!
# Schema declarations

A schema is an ordered list of tables with their declared columns. It is read from a JSON object of
tables, each an object of columns, each an object with the optional members `type`, `null`,
`default` and `index`, or null for a column without any.
-/

namespace SchemaKeeper

/-- A declared table. -/
structure Table where
  name : String
  columns : List Column
  deriving DecidableEq, Repr

/-- The first column of this name. -/
def Table.column? (t : Table) (name : String) : Option Column := t.columns.find? (·.name = name)

/-- Declared tables in order. -/
structure Schema where
  tables : List Table := []
  deriving DecidableEq, Repr

/-- The first table of this name. -/
def Schema.table? (s : Schema) (name : String) : Option Table := s.tables.find? (·.name = name)

/-- No table is declared. -/
def Schema.isEmpty (s : Schema) : Bool := s.tables.isEmpty

namespace Declaration

/-- A document value that counts as yes: all but null, false, zero, the empty text, the text `0` and
empty arrays and objects. -/
def isTruthy : Json → Bool
  | .null => false
  | .bool b => b
  | .integer i => i != 0
  | .real x => !x.isZero
  | .text s => s != "" && s != "0"
  | .array items => !items.isEmpty
  | .object members => !members.isEmpty

/-- The index that a declaration asks for. -/
def indexOf (value : Option Json) : IndexKind :=
  match value with
  | some (.text s) =>
    if Text.sameIgnoringCase (Text.trim s) "unique" then .unique
    else if isTruthy (.text s) then .nonUnique
    else .none
  | some v => if isTruthy v then .nonUnique else .none
  | none => .none

/-- The type that a declaration names. -/
def typeOf (column : String) (value : Option Json) : Except BuildError String :=
  match value with
  | none | some .null => .ok Column.defaultEngineType
  | some (.text s) => .ok s
  | some v => .error (.invalidSchema (.typeNotText column v.kind))

/-- The default that a declaration gives: a number, or a trimmed text other than `NULL`. -/
def defaultOf (value : Option Json) : Option Scalar :=
  match value with
  | some (.text s) =>
    if Text.sameIgnoringCase (Text.trim s) "NULL" then none else some (.text (Text.trim s))
  | some (.integer i) => (Scalar.ofJson (.integer i)).toOption
  | some (.real x) => some (.float x)
  | _ => none

/-- The column takes nulls unless its declaration says no. -/
def nullableOf (value : Option Json) : Bool := (value.map isTruthy).getD true

/-- The members of a declaration; null stands for none. -/
def membersOf (column : String) : Json → Except BuildError (List (String × Json))
  | .object members => .ok members
  | .null => .ok []
  | v => .error (.invalidSchema (.columnNotObject column v.kind))

/-- The column that a declaration describes. -/
def column (name : String) (declaration : Json) : Except BuildError Column := do
  let members ← membersOf name declaration
  let engineType ← typeOf name (Json.member? "type" members)
  match Column.build name engineType (nullableOf (Json.member? "null" members))
      (defaultOf (Json.member? "default" members)) (indexOf (Json.member? "index" members)) with
  | .ok c => .ok c
  | .error _ => .error (.invalidSchema (.columnName name))

/-- The table that an entry of a schema document declares. -/
def table (name : String) (columns : Json) : Except BuildError Table := do
  let clean ← match Identifier.sanitize name with
    | .ok clean => .ok clean
    | .error _ => .error (.invalidSchema (.tableName name))
  match columns with
  | .object (m :: ms) => return ⟨clean, ← (m :: ms).mapM fun (n, d) => column n d⟩
  | _ => .error (.invalidSchema (.noColumns name))

end Declaration

/-- The schema that a document describes; it declares at least one table. -/
def Schema.ofJson : Json → Except BuildError Schema
  | .object [] => .error (.invalidSchema .noTables)
  | .object members => do return ⟨← members.mapM fun (n, d) => Declaration.table n d⟩
  | v => .error (.invalidSchema (.notTables v.kind))

/-- The schema that a JSON text describes. -/
def Schema.ofText (s : String) : Except BuildError Schema :=
  match Json.parse? s with
  | some v => Schema.ofJson v
  | none => .error (.invalidSchema .notJson)

end SchemaKeeper
