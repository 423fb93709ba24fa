import SchemaKeeper.Scalar

/-!
# Filters

A filter is an ordered list of entries. The key of an entry is `AND` or `OR` with a nested group, or
a column with an optional comparison in brackets, such as `age[>=]`. A list of values under one
column means that any of them may match. This module holds the entries, their reading from JSON
documents and the reading of keys.
-/

namespace SchemaKeeper

/-- How the members of a group combine. -/
inductive Conjunction where
  | and
  | or
  deriving DecidableEq, Repr

/-- The conjunction that a key names. -/
def Conjunction.ofKey? (key : String) : Option Conjunction :=
  if key = "AND" then some .and else if key = "OR" then some .or else none

/-- The keyword of a conjunction. -/
def Conjunction.keyword : Conjunction → String
  | .and => "AND"
  | .or => "OR"

/-- How a column compares with a value. -/
inductive Comparison where
  | eq
  | ne
  | gt
  | ge
  | lt
  | le
  | like
  deriving DecidableEq, Repr

namespace Comparison

/-- The comparison that a bracketed suffix names. -/
def ofSuffix? (suffix : List Char) : Option Comparison :=
  match suffix with
  | ['!'] => some .ne
  | ['>'] => some .gt
  | ['>', '='] => some .ge
  | ['<'] => some .lt
  | ['<', '='] => some .le
  | ['~'] => some .like
  | _ => none

/-- The operator of a comparison. -/
def operator : Comparison → String
  | .eq => "="
  | .ne => "!="
  | .gt => ">"
  | .ge => ">="
  | .lt => "<"
  | .le => "<="
  | .like => "LIKE"

/-- Cut a text at its last opening bracket. -/
def cutAtBracket? : List Char → Option (List Char × List Char)
  | [] => none
  | c :: rest =>
    match cutAtBracket? rest with
    | some (before, suffix) => some (c :: before, suffix)
    | none => if c = '[' then some ([], rest) else none

/-- The column part of a key and the comparison it asks for. A suffix in brackets is cut off even
when it names no comparison, which then is equality. -/
def splitChars (key : List Char) : List Char × Comparison :=
  let key := Text.trimChars key
  if key.getLast? = some ']' then
    match cutAtBracket? key.dropLast with
    | some (column, suffix) => (column, (ofSuffix? suffix).getD .eq)
    | none => (key, .eq)
  else (key, .eq)

/-- The column part of a key and the comparison it asks for. -/
def splitKey (key : String) : String × Comparison :=
  let (column, op) := splitChars key.toList
  (String.ofList column, op)

end Comparison

/-- What an entry of a filter holds. -/
inductive FilterValue where
  | one (value : Scalar)
  | anyOf (values : List Scalar)
  | group (entries : List (String × FilterValue))
  deriving Inhabited

/-- The entries of a filter in order; keys may repeat. -/
structure Filter where
  entries : List (String × FilterValue) := []

namespace Filter

/-- The items of a document array as scalars. -/
def scalarsOfJson : List Json → Except BuildError (List Scalar)
  | [] => .ok []
  | v :: rest => do
    let scalar ← Scalar.ofJson v
    return scalar :: (← scalarsOfJson rest)

mutual

/-- A member's value: an object is a group, an array a list of values, anything else one value. -/
def valueOfJson : Json → Except BuildError FilterValue
  | .object members => do return .group (← entriesOfJson members)
  | .array items => do return .anyOf (← scalarsOfJson items)
  | v => do return .one (← Scalar.ofJson v)

/-- The members of a document object as entries. -/
def entriesOfJson : List (String × Json) → Except BuildError (List (String × FilterValue))
  | [] => .ok []
  | (key, v) :: rest => do
    let value ← valueOfJson v
    return (key, value) :: (← entriesOfJson rest)

end

/-- A document object as a filter. -/
def ofJson : Json → Except BuildError Filter
  | .object members => do return ⟨← entriesOfJson members⟩
  | v => .error (.valueShape (.notFilter v.kind))

/-- The filter has no entry. -/
def isEmpty (f : Filter) : Bool := f.entries.isEmpty

/-- The raw keys in order. -/
def keys (f : Filter) : List String := f.entries.map Prod.fst

end Filter

end SchemaKeeper
