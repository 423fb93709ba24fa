import SchemaKeeper.Identifier
import SchemaKeeper.Scalar
import SchemaKeeper.Text.Letters

/-!
# Columns

A column has a name, the type the engine knows it by, and what the type means: an integer, a double
or a text with a length. Two columns are compared by their definitions only, up to differences that
the engines introduce when they report a type or a default back.
-/

namespace SchemaKeeper

/-- What the values of an engine type mean. -/
inductive SemanticType where
  | int
  | float
  | text
  deriving DecidableEq, Repr

namespace SemanticType

/-- The name of a meaning in reports. -/
def name : SemanticType → String
  | .int => "int"
  | .float => "float"
  | .text => "string"

/-- The length of a `TEXT` column. -/
def textLength : Nat := 60000

/-- The length of a `VARCHAR` whose own is missing or does not fit 32 bits. -/
def varcharLength : Nat := 255

/-- The digits of the first `varchar(…)` of a type in lower case. -/
def varcharDigits? : List Char → Option (List Char)
  | [] => none
  | c :: rest =>
    let after := (c :: rest).drop "varchar(".length
    if "varchar(".toList.isPrefixOf (c :: rest) && (after.dropWhile Char.isDigit).head? == some ')'
    then some (after.takeWhile Char.isDigit)
    else varcharDigits? rest

/-- The length that a type in lower case gives its texts. -/
def lengthOf (lower : String) : Option Nat :=
  match varcharDigits? lower.toList with
  | some digits => some ((Number.readNatBelow? UInt32.size digits).getD varcharLength)
  | none => if lower = "text" then some textLength else none

/-- The meaning of an engine type and the length of its texts. -/
def classify (engineType : String) : SemanticType × Option Nat :=
  let lower := Text.asciiLower (Text.trim engineType)
  let has (word : String) : Bool := Text.contains word.toList lower.toList
  if has "int" || has "bool" then (.int, none)
  else if has "float" then (.float, none)
  else (.text, lengthOf lower)

end SemanticType

/-- How a column is indexed. -/
inductive IndexKind where
  | none
  | nonUnique
  | unique
  deriving DecidableEq, Repr

namespace IndexKind

/-- There is an index. -/
def isIndexed (k : IndexKind) : Bool := k ≠ .none

/-- The name of a kind in reports. -/
def name : IndexKind → String
  | .none => "none"
  | .nonUnique => "non_unique"
  | .unique => "unique"

end IndexKind

/-- A column as it is declared or reported. -/
structure Column where
  name : String
  engineType : String
  semanticType : SemanticType
  length : Option Nat
  nullable : Bool
  default : Option Scalar
  index : IndexKind
  deriving DecidableEq, Repr

namespace Column

/-- A column with the meaning of its type worked out. -/
def ofType (name engineType : String) (nullable : Bool) (default : Option Scalar)
    (index : IndexKind) : Column :=
  let (semanticType, length) := SemanticType.classify engineType
  { name, engineType, semanticType, length, nullable, default, index }

/-- The type of columns that declare none. -/
def defaultEngineType : String := "VARCHAR(128)"

/-- The engine type for a declared one: trimmed, and the default type for a blank one or the word
`string`. -/
def engineTypeOf (declared : String) : String :=
  let trimmed := Text.trim declared
  if trimmed.isEmpty || Text.sameIgnoringCase trimmed "string" then defaultEngineType else trimmed

/-- A column under a cleaned name. -/
def build (name engineType : String) (nullable : Bool) (default : Option Scalar)
    (index : IndexKind) : Except BuildError Column := do
  return ofType (← Identifier.sanitize name) (engineTypeOf engineType) nullable default index

/-- A type without the display width of integers: for a type that mentions `int`, the text from the
first opening to the first closing parenthesis is cut out if they stand in this order. -/
def normalizedType (engineType : String) : String :=
  let lower := Text.asciiLower (Text.trim engineType)
  let chars := lower.toList
  if Text.contains "int".toList chars then
    let before := chars.takeWhile (· ≠ '(')
    let closed := chars.dropWhile (· ≠ ')')
    if before.length < (chars.takeWhile (· ≠ ')')).length ∧ !closed.isEmpty then
      String.ofList (Text.trimChars (before ++ closed.drop 1))
    else lower
  else lower

/-- The text of a default after case and spelling of numbers are evened out. -/
def evenedDefault : Scalar → String
  | .int i => toString i.toInt
  | .float x => x.display
  | .text s =>
    let lower := Text.asciiLower (Text.trim s)
    match Number.readBinary64? lower.toList with
    | some x => if x.isFinite then x.display else lower
    | none => lower

/-- A default in the form in which defaults are compared: `null` is no default, and all spellings of
the current time are one. -/
def normalizedDefault (default : Option Scalar) : Option String :=
  match default.map evenedDefault with
  | none => none
  | some text =>
    if text = "null" then none
    else if text = "now()" ∨ text = "current_timestamp()" then some "current_timestamp"
    else some text

/-- The definitions of two columns, names and indexes apart, do not mean the same. -/
def definitionDiffers (a b : Column) : Bool :=
  normalizedType a.engineType != normalizedType b.engineType
    || a.nullable != b.nullable
    || normalizedDefault a.default != normalizedDefault b.default

/-- The keywords for a column that takes or refuses nulls. -/
def nullText (nullable : Bool) : String := if nullable then "NULL" else "NOT NULL"

/-- A definition in words, for reports. -/
def summary (c : Column) : String :=
  c.engineType ++ " " ++ nullText c.nullable
    ++ (match c.default with
      | none => ""
      | some v => " DEFAULT " ++ v.display)

/-- The members of a column's JSON object. -/
def members (c : Column) : List (String × Json) :=
  [ ("name", .text c.name),
    ("engine_type", .text c.engineType),
    ("semantic_type", .text c.semanticType.name),
    ("length", match c.length with | none => .null | some n => .integer n),
    ("nullable", .bool c.nullable),
    ("default", match c.default with | none => .null | some v => v.toJson),
    ("index", .text c.index.name) ]

/-- A column as JSON. -/
def toJson (c : Column) : Json := .object c.members

end Column

/-- A column that a live table has, with the name of its single-column index if it is known. -/
structure LiveColumn where
  spec : Column
  indexName : Option String
  deriving DecidableEq, Repr

namespace LiveColumn

/-- The name the engine reports. -/
def name (c : LiveColumn) : String := c.spec.name

/-- A live column as JSON. -/
def toJson (c : LiveColumn) : Json :=
  .object (c.spec.members
    ++ [("index_name", match c.indexName with | none => .null | some n => .text n)])

end LiveColumn

end SchemaKeeper
