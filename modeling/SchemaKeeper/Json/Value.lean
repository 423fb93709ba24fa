import SchemaKeeper.Number.Binary64

/-!
# JSON values

Filters, column values, declarations and limits arrive as JSON documents, and change logs and rows
leave as JSON. The members of an object keep the order in which they were written.
-/

namespace SchemaKeeper

/-- A JSON value. A number written without point and exponent that fits 64 bits, signed or
unsigned, is an `integer`; every other number is a `real`. -/
inductive Json where
  | null
  | bool (b : Bool)
  | integer (i : Int)
  | real (x : Binary64)
  | text (s : String)
  | array (items : List Json)
  | object (members : List (String × Json))
  deriving Inhabited

namespace Json

/-- What a value is, for messages that name what was found instead of what was expected. -/
inductive Kind where
  | null
  | boolean
  | number
  | text
  | array
  | object
  deriving DecidableEq, Repr

/-- The kind of a value. -/
def kind : Json → Kind
  | .null => .null
  | .bool _ => .boolean
  | .integer _ | .real _ => .number
  | .text _ => .text
  | .array _ => .array
  | .object _ => .object

/-- The kind with its article. -/
def Kind.phrase : Kind → String
  | .null => "null"
  | .boolean => "a boolean"
  | .number => "a number"
  | .text => "a string"
  | .array => "an array"
  | .object => "an object"

/-- Put a member into an object's list: a key that is present keeps its place and takes the new
value, a new key goes to the end. -/
def putMember (key : String) (value : Json) : List (String × Json) → List (String × Json)
  | [] => [(key, value)]
  | (k, v) :: rest => if k = key then (k, value) :: rest else (k, v) :: putMember key value rest

/-- The value of the first member with this key. -/
def member? (key : String) (members : List (String × Json)) : Option Json := members.lookup key

end Json

end SchemaKeeper
