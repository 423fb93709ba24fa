import SchemaKeeper.Identifier
import SchemaKeeper.Number.Reading
import SchemaKeeper.Text.Blank

/-!
# Join, group, order and limit clauses

Each clause begins with a space, or is empty when there is nothing to say.
-/

namespace SchemaKeeper

/-- An inner join with its pairs of equal columns. The left column of a pair is cleaned; the right
one is written as it is. -/
structure Join where
  table : String
  pairs : List (String × String)
  deriving DecidableEq, Repr

/-- The text of one join. -/
def Join.text (j : Join) : Except BuildError String := do
  let table ← Identifier.sanitize j.table
  let conditions ← j.pairs.mapM fun (left, right) => do
    return (← Identifier.sanitize left) ++ "=" ++ right
  return "INNER JOIN " ++ table ++ " ON " ++ " AND ".intercalate conditions

/-- A clause from its parts: nothing for no parts. -/
def clauseOf (keyword separator : String) (parts : List String) : String :=
  if parts.isEmpty then "" else keyword ++ separator.intercalate parts

/-- The joins of a query; a join without conditions is left out. -/
def joinClause (joins : List Join) : Except BuildError String := do
  return clauseOf " " " " (← (joins.filter fun j => !j.pairs.isEmpty).mapM Join.text)

/-- The `GROUP BY` clause. -/
def groupClause (columns : List String) : Except BuildError String := do
  return clauseOf " GROUP BY " ", " (← columns.mapM Identifier.sanitize)

/-- The direction of an order. -/
inductive Direction where
  | asc
  | desc
  deriving DecidableEq, Repr

/-- The direction that a text names: every text but `ASC` means descending. -/
def Direction.ofText (s : String) : Direction := if s = "ASC" then .asc else .desc

/-- The keyword of a direction. -/
def Direction.keyword : Direction → String
  | .asc => "ASC"
  | .desc => "DESC"

/-- One column of an order. -/
def orderText (column : String) (direction : Direction) : Except BuildError String := do
  return (← Identifier.sanitize column) ++ " " ++ direction.keyword

/-- The `ORDER BY` clause. -/
def orderClause (order : List (String × Direction)) : Except BuildError String := do
  return clauseOf " ORDER BY " ", " (← order.mapM fun (c, d) => orderText c d)

/-- How many rows a query returns at most. -/
inductive Limit where
  | count (n : Nat)
  | range (offset count : Nat)
  deriving DecidableEq, Repr

namespace Limit

/-- A row count of a document: an integer, or a text of digits, below `2 ^ 64`. -/
def countOfJson (v : Json) : Except BuildError Nat :=
  let fault : Except BuildError Nat := .error (.valueShape (.notLimit v.kind))
  match v with
  | .integer i => if 0 ≤ i ∧ i < UInt64.size then .ok i.toNat else fault
  | .text s =>
    match Number.readNatBelow? UInt64.size (Text.trimChars s.toList) with
    | some n => .ok n
    | none => fault
  | _ => fault

/-- The limit of a document: null, zero and the empty array mean none, an array holds a count or an
offset and a count. -/
def ofJson : Json → Except BuildError (Option Limit)
  | .null => .ok none
  | .array [] => .ok none
  | .array [v] => do return some (.count (← countOfJson v))
  | .array [v, w] => do
    let offset ← countOfJson v
    return some (.range offset (← countOfJson w))
  | .array _ => .error (.valueShape .limitTooLong)
  | v => do
    let n ← countOfJson v
    return if n = 0 then none else some (.count n)

/-- The `LIMIT` clause. -/
def clause : Option Limit → String
  | none => ""
  | some (.count n) => " LIMIT " ++ toString n
  | some (.range offset n) => " LIMIT " ++ toString offset ++ ", " ++ toString n

end Limit

end SchemaKeeper
