import SchemaKeeper.Json.Value
import SchemaKeeper.Number.Shortest

/-!
# Writing JSON

A value is written either without any space or with one item a line and an indentation of two
spaces. Quotes, backslashes and the control characters below U+0020 are escaped, nothing else is.
-/

namespace SchemaKeeper.Json

/-- A hexadecimal digit in lower case. -/
def hexChar (n : Nat) : Char := (Nat.toDigits 16 (n % 16)).headD '0'

/-- A character inside a JSON string. -/
def escapeChar (c : Char) : List Char :=
  if c = '"' then ['\\', '"']
  else if c = '\\' then ['\\', '\\']
  else if c = '\x08' then ['\\', 'b']
  else if c = '\t' then ['\\', 't']
  else if c = '\n' then ['\\', 'n']
  else if c = '\x0c' then ['\\', 'f']
  else if c = '\x0d' then ['\\', 'r']
  else if c.toNat < 0x20 then ['\\', 'u', '0', '0', hexChar (c.toNat / 16), hexChar c.toNat]
  else [c]

/-- A string between quotes. -/
def quote (s : String) : String :=
  String.ofList ('"' :: s.toList.flatMap escapeChar ++ ['"'])

/-- A value that is neither array nor object. -/
def writeLeaf : Json → String
  | .null => "null"
  | .bool b => if b then "true" else "false"
  | .integer i => toString i
  | .real x => x.json?.getD "null"
  | .text s => quote s
  | .array _ => "[]"
  | .object _ => "\x7b\x7d"

mutual

/-- A value without any space. -/
def compact : Json → String
  | .array items => "[" ++ ",".intercalate (compactItems items) ++ "]"
  | .object members => "\x7b" ++ ",".intercalate (compactMembers members) ++ "\x7d"
  | v => writeLeaf v

/-- The items of an array. -/
def compactItems : List Json → List String
  | [] => []
  | v :: rest => compact v :: compactItems rest

/-- The members of an object. -/
def compactMembers : List (String × Json) → List String
  | [] => []
  | (k, v) :: rest => (quote k ++ ":" ++ compact v) :: compactMembers rest

end

/-- The start of a line at this depth. -/
def lineStart (depth : Nat) : String := "\n" ++ String.ofList (List.replicate (2 * depth) ' ')

mutual

/-- A value with one item a line; the empty array and the empty object stay on theirs. -/
def pretty (depth : Nat) : Json → String
  | .array (v :: rest) =>
    "[" ++ ",".intercalate (prettyItems (depth + 1) (v :: rest)) ++ lineStart depth ++ "]"
  | .object (m :: rest) =>
    "\x7b" ++ ",".intercalate (prettyMembers (depth + 1) (m :: rest)) ++ lineStart depth ++ "\x7d"
  | v => writeLeaf v

/-- The items of an array, each at the start of a line. -/
def prettyItems (depth : Nat) : List Json → List String
  | [] => []
  | v :: rest => (lineStart depth ++ pretty depth v) :: prettyItems depth rest

/-- The members of an object, each at the start of a line. -/
def prettyMembers (depth : Nat) : List (String × Json) → List String
  | [] => []
  | (k, v) :: rest =>
    (lineStart depth ++ quote k ++ ": " ++ pretty depth v) :: prettyMembers depth rest

end

end SchemaKeeper.Json
