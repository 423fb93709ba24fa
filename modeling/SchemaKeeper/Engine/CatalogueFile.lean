import SchemaKeeper.Engine.Catalogue
import SchemaKeeper.Json.Reader
import SchemaKeeper.Json.Writer

/-!
# Catalogue files

A catalogue is kept in a file as a JSON array of its tables. Reading takes back what writing
produces and refuses everything that is not of this form.
-/

namespace SchemaKeeper.CatalogueFile

/-- A text that may be missing, as JSON. -/
def ofText? (s : Option String) : Json :=
  match s with
  | none => .null
  | some s => .text s

/-- A column as JSON. -/
def ofColumn (c : CatalogueColumn) : Json :=
  .object [("name", .text c.name), ("type", .text c.type), ("not_null", .bool c.notNull),
    ("default", ofText? c.default)]

/-- An index as JSON. -/
def ofIndex (i : CatalogueIndex) : Json :=
  .object [("name", .text i.name), ("unique", .bool i.unique),
    ("parts", .array (i.parts.map ofText?))]

/-- A table as JSON. -/
def ofTable (t : CatalogueTable) : Json :=
  .object [("name", .text t.name), ("columns", .array (t.columns.map ofColumn)),
    ("primary_key", ofText? t.primaryKey), ("indexes", .array (t.indexes.map ofIndex))]

/-- The text of a catalogue file. -/
def write (c : Catalogue) : String := (Json.array (c.map ofTable)).compact

/-- A text that may be missing. -/
def toText? : Json → Option (Option String)
  | .null => some none
  | .text s => some (some s)
  | _ => none

/-- A column of a catalogue file. -/
def toColumn? : Json → Option CatalogueColumn
  | .object [("name", .text name), ("type", .text type), ("not_null", .bool notNull),
      ("default", default)] => do
    return ⟨name, type, notNull, ← toText? default⟩
  | _ => none

/-- An index of a catalogue file. -/
def toIndex? : Json → Option CatalogueIndex
  | .object [("name", .text name), ("unique", .bool unique), ("parts", .array parts)] => do
    return ⟨name, unique, ← parts.mapM toText?⟩
  | _ => none

/-- A table of a catalogue file. -/
def toTable? : Json → Option CatalogueTable
  | .object [("name", .text name), ("columns", .array columns), ("primary_key", key),
      ("indexes", .array indexes)] => do
    return ⟨name, ← columns.mapM toColumn?, ← toText? key, ← indexes.mapM toIndex?⟩
  | _ => none

/-- The catalogue that a text holds. -/
def read? (s : String) : Option Catalogue :=
  match Json.parse? s with
  | some (.array tables) => tables.mapM toTable?
  | _ => none

end SchemaKeeper.CatalogueFile
