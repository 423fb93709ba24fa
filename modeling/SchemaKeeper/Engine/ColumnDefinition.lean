import SchemaKeeper.Engine.SqlToken

/-!
# Column definitions

How an SQLite engine reads what follows the name of a column in a statement. The type is the run of
words at the front, with the numbers in parentheses behind it; it is kept as it is written, but a
standard type by its name in capitals. Of what follows, the refusal of nulls and the default are
kept, a default by its text.
-/

namespace SchemaKeeper

/-- What the engine keeps of the definition of a column. -/
structure ColumnDefinition where
  type : String
  notNull : Bool
  default : Option String
  deriving DecidableEq, Repr

namespace ColumnDefinition

/-- The type names that the engine keeps by number and not by their text. -/
def standardTypes : List String := ["ANY", "BLOB", "INT", "INTEGER", "REAL", "TEXT"]

/-- A type as the engine keeps it: a standard name in any case is written in capitals, and every
other text stays as it is. -/
def keptType (written : String) : String :=
  let capitals := Text.asciiUpper written
  if standardTypes.contains capitals then capitals else written

/-- The text from the first of some tokens to the last, with the blanks between them. -/
def written : List SqlToken → List Char
  | [] => []
  | t :: rest => t.text ++ rest.flatMap fun u => u.gap ++ u.text

/-- How many tokens stand before the parenthesis that closes the open ones. -/
def groupLength (depth : Nat) : List SqlToken → Nat
  | [] => 0
  | t :: rest =>
    if t.spells "(" then groupLength (depth + 1) rest + 1
    else if t.spells ")" then if depth = 0 then 0 else groupLength (depth - 1) rest + 1
    else groupLength depth rest + 1

/-- How many tokens at the front of a definition are its type. -/
def typeLength (tokens : List SqlToken) : Nat :=
  let names := (tokens.takeWhile SqlToken.isName).length
  match tokens.drop names with
  | t :: rest => if names > 0 ∧ t.spells "(" then names + groupLength 0 rest + 2 else names
  | [] => names

/-- Take the clauses behind the type into a definition; of several defaults the last one holds. A
default is a signed number, a group in parentheses, or one token. -/
def readClauses (d : ColumnDefinition) : List SqlToken → ColumnDefinition
  | [] => d
  | t :: rest =>
    if t.spells "(" then readClauses d (rest.drop (groupLength 0 rest + 1))
    else
      match rest with
      | [] => d
      | u :: more =>
        if t.spells "not" ∧ u.spells "null" then readClauses { d with notNull := true } more
        else if t.spells "set" then readClauses d more
        else if t.spells "default" then
          let count :=
            if u.spells "(" then groupLength 0 more + 2
            else if u.spells "-" ∨ u.spells "+" then 2
            else 1
          let value := if u.spells "(" then more.take (count - 2) else (u :: more).take count
          readClauses { d with default := some (String.ofList (written value)) }
            (more.drop (count - 1))
        else readClauses d (u :: more)
termination_by tokens => tokens.length
decreasing_by all_goals simp only [List.length_drop, List.length_cons]; omega

/-- Read the text behind the name of a column. -/
def ofText (s : String) : ColumnDefinition :=
  let tokens := SqlToken.ofText s
  let count := typeLength tokens
  readClauses ⟨keptType (String.ofList (written (tokens.take count))), false, none⟩
    (tokens.drop count)

end ColumnDefinition

end SchemaKeeper
