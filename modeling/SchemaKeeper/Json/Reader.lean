import SchemaKeeper.Json.Number

/-!
# Reading JSON documents

A document is one value between blanks. At most 127 arrays and objects may be open at once, and a
repeated key of an object keeps its first place and takes its last value. Every text that is not
such a document is refused without distinction of causes.
-/

namespace SchemaKeeper.Json

/-- The four blank characters of JSON. -/
def isSpace (c : Char) : Bool := c == ' ' || c == '\n' || c == '\t' || c == '\x0d'

/-- Skip blanks. -/
def skipSpace (s : List Char) : List Char := s.dropWhile isSpace

/-- The value of a hexadecimal digit. -/
def hexDigit? (c : Char) : Option Nat :=
  if c.isDigit then some (c.toNat - '0'.toNat)
  else if 'a' ≤ c ∧ c ≤ 'f' then some (c.toNat - 'a'.toNat + 10)
  else if 'A' ≤ c ∧ c ≤ 'F' then some (c.toNat - 'A'.toNat + 10)
  else none

/-- Four hexadecimal digits. -/
def takeHex? : List Char → Option (Nat × List Char)
  | a :: b :: c :: d :: rest => do
    some (4096 * (← hexDigit? a) + 256 * (← hexDigit? b) + 16 * (← hexDigit? c) + (← hexDigit? d),
      rest)
  | _ => none

/-- The character of a `\u` escape after the `u`. A leading surrogate takes a trailing one from a
second escape; a surrogate that stands alone is refused. -/
def takeUnicode? (s : List Char) : Option (Char × List Char) := do
  let (high, rest) ← takeHex? s
  if 0xDC00 ≤ high ∧ high < 0xE000 then none
  else if 0xD800 ≤ high ∧ high < 0xDC00 then
    match rest with
    | '\\' :: 'u' :: rest =>
      let (low, rest) ← takeHex? rest
      if 0xDC00 ≤ low ∧ low < 0xE000 then
        some (Char.ofNat (0x10000 + (high - 0xD800) * 0x400 + (low - 0xDC00)), rest)
      else none
    | _ => none
  else some (Char.ofNat high, rest)

/-- The character that an escape of one letter stands for. -/
def shortEscape? : Char → Option Char
  | '"' => some '"'
  | '\\' => some '\\'
  | '/' => some '/'
  | 'b' => some '\x08'
  | 'f' => some '\x0c'
  | 'n' => some '\n'
  | 'r' => some '\x0d'
  | 't' => some '\t'
  | _ => none

/-- The characters of a string after its opening quote, in reverse, up to the closing one. -/
def takeText? : Nat → List Char → List Char → Option (List Char × List Char)
  | 0, _, _ => none
  | _ + 1, _, [] => none
  | _ + 1, read, '"' :: rest => some (read, rest)
  | fuel + 1, read, '\\' :: 'u' :: rest => do
    let (c, rest) ← takeUnicode? rest
    takeText? fuel (c :: read) rest
  | fuel + 1, read, '\\' :: c :: rest => do
    takeText? fuel ((← shortEscape? c) :: read) rest
  | fuel + 1, read, c :: rest => if c.toNat < 0x20 then none else takeText? fuel (c :: read) rest

/-- A string after its opening quote. -/
def takeString? (s : List Char) : Option (String × List Char) :=
  (takeText? (s.length + 1) [] s).map fun (read, rest) => (String.ofList read.reverse, rest)

/-- A key with its colon. -/
def takeKey? (s : List Char) : Option (String × List Char) :=
  match skipSpace s with
  | '"' :: rest => do
    let (key, rest) ← takeString? rest
    match skipSpace rest with
    | ':' :: rest => some (key, rest)
    | _ => none
  | _ => none

mutual

/-- One value, under at most `depth` more open arrays and objects. -/
def takeValue? : Nat → Nat → List Char → Option (Json × List Char)
  | 0, _, _ => none
  | fuel + 1, depth, s =>
    match skipSpace s with
    | 'n' :: 'u' :: 'l' :: 'l' :: rest => some (.null, rest)
    | 't' :: 'r' :: 'u' :: 'e' :: rest => some (.bool true, rest)
    | 'f' :: 'a' :: 'l' :: 's' :: 'e' :: rest => some (.bool false, rest)
    | '"' :: rest => (takeString? rest).map fun (t, rest) => (.text t, rest)
    | '[' :: rest =>
      match depth with
      | 0 => none
      | depth + 1 =>
        match skipSpace rest with
        | ']' :: rest => some (.array [], rest)
        | _ => (takeItems? fuel depth rest).map fun (items, rest) => (.array items, rest)
    | '\x7b' :: rest =>
      match depth with
      | 0 => none
      | depth + 1 =>
        match skipSpace rest with
        | '\x7d' :: rest => some (.object [], rest)
        | _ => (takeMembers? fuel depth [] rest).map fun (ms, rest) => (.object ms, rest)
    | s => do
      let (literal, rest) ← takeLiteral? s
      some (← literal.value?, rest)

/-- The items of a nonempty array up to its closing bracket. -/
def takeItems? : Nat → Nat → List Char → Option (List Json × List Char)
  | 0, _, _ => none
  | fuel + 1, depth, s => do
    let (item, rest) ← takeValue? fuel depth s
    match skipSpace rest with
    | ',' :: rest => (takeItems? fuel depth rest).map fun (items, rest) => (item :: items, rest)
    | ']' :: rest => some ([item], rest)
    | _ => none

/-- The members of a nonempty object up to its closing brace, put into those read so far. -/
def takeMembers? : Nat → Nat → List (String × Json) → List Char →
    Option (List (String × Json) × List Char)
  | 0, _, _, _ => none
  | fuel + 1, depth, read, s => do
    let (key, rest) ← takeKey? s
    let (value, rest) ← takeValue? fuel depth rest
    match skipSpace rest with
    | ',' :: rest => takeMembers? fuel depth (putMember key value read) rest
    | '\x7d' :: rest => some (putMember key value read, rest)
    | _ => none

end

/-- How many arrays and objects may be open at once. -/
def depthLimit : Nat := 127

/-- Read a document. -/
def parse? (s : String) : Option Json := do
  let chars := s.toList
  let (value, rest) ← takeValue? (2 * chars.length + 2) depthLimit chars
  if (skipSpace rest).isEmpty then some value else none

end SchemaKeeper.Json
