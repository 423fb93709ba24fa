import SchemaKeeper.Scalar
import SchemaKeeper.Text.Letters

/-!
# Dialects and literals

The two SQL dialects differ in how a text literal is escaped, in how indexes are named and in their
definition statements. This module holds the dialect, the text of literals, and the reader of one
text literal that each dialect's lexer follows.
-/

namespace SchemaKeeper

/-- The SQL dialects. -/
inductive Dialect where
  | mysql
  | sqlite
  deriving DecidableEq, Repr

namespace Dialect

/-- The name of a dialect. -/
def name : Dialect → String
  | .mysql => "mysql"
  | .sqlite => "sqlite"

/-- A character inside a text literal. -/
def escapeChar : Dialect → Char → List Char
  | .mysql, c =>
    if c = '\x00' then ['\\', '0']
    else if c = '\n' then ['\\', 'n']
    else if c = '\x0d' then ['\\', 'r']
    else if c = '\\' then ['\\', '\\']
    else if c = '\'' then ['\\', '\'']
    else if c = '"' then ['\\', '"']
    else if c = '\x1a' then ['\\', 'Z']
    else [c]
  | .sqlite, c => if c = '\'' then ['\'', '\''] else [c]

/-- The inside of the literal for a text. -/
def escape (d : Dialect) (s : String) : String := String.ofList (s.toList.flatMap d.escapeChar)

/-- The literal for a text. -/
def quote (d : Dialect) (s : String) : String := "'" ++ d.escape s ++ "'"

/-- The texts that stand in a statement as they are. -/
def sentinels : List String := ["NOW()", "NULL"]

/-- The literal for a value in a comparison or an assignment. Numbers that are not finite have no
literal and become `NULL`. -/
def literal (d : Dialect) : Scalar → String
  | .text s => if sentinels.contains s then s else d.quote s
  | .int i => (Scalar.int i).display
  | .float x => if x.isFinite then x.display else "NULL"

/-- The literal of a `LIKE` pattern that finds the value anywhere. -/
def pattern (d : Dialect) (v : Scalar) : String := "'%" ++ d.escape v.display ++ "%'"

/-- The text asks for the current time as a default. -/
def isTimestampKeyword (s : String) : Bool :=
  let word := Text.trim s
  Text.sameIgnoringCase word "CURRENT_TIMESTAMP" || Text.sameIgnoringCase word "NOW()"

/-- The literal of a column's default. -/
def defaultLiteral (d : Dialect) : Scalar → String
  | .text s =>
    if isTimestampKeyword s then
      match d with
      | .mysql => Text.asciiUpper (Text.trim s)
      | .sqlite => "CURRENT_TIMESTAMP"
    else d.quote s
  | v => v.display

/-- The name of the index on a column. MySQL names indexes per table; SQLite names are global to
the database and carry the table's name, with points made underscores. -/
def indexName (d : Dialect) (table column : String) : String :=
  match d with
  | .mysql => "index_" ++ column
  | .sqlite =>
    String.ofList (Text.replaceChar '.' ['_'] ("index_" ++ table ++ "_" ++ column).toList)

/-- What a backslash with the given character stands for in a MySQL literal. -/
def unescaped (c : Char) : List Char :=
  if c = '0' then ['\x00']
  else if c = 'b' then ['\x08']
  else if c = 'n' then ['\n']
  else if c = 'r' then ['\x0d']
  else if c = 't' then ['\t']
  else if c = 'Z' then ['\x1a']
  else if c = '%' ∨ c = '_' then ['\\', c]
  else [c]

/-- Read what stands between marks, after the opening one: the text, and what follows the closing
mark. A doubled mark is a mark; backslashes escape or are ordinary. -/
def readQuoted? (escapes : Bool) (mark : Char) : List Char → Option (List Char × List Char)
  | [] => none
  | [c] => if c = mark then some ([], []) else none
  | c :: next :: rest =>
    if c = mark then
      if next = mark then (readQuoted? escapes mark rest).map fun (s, after) => (mark :: s, after)
      else some ([], next :: rest)
    else if escapes && c == '\\' then
      (readQuoted? escapes mark rest).map fun (s, after) => (unescaped next ++ s, after)
    else (readQuoted? escapes mark (next :: rest)).map fun (s, after) => (c :: s, after)

/-- Backslashes escape inside the literals of the dialect. -/
def escapes : Dialect → Bool
  | .mysql => true
  | .sqlite => false

/-- Read a text literal after its opening quote: the text, and what follows the closing quote. A
doubled quote is a quote in both dialects; a backslash escapes in MySQL and is ordinary in
SQLite. -/
def readLiteral? (d : Dialect) : List Char → Option (List Char × List Char) :=
  readQuoted? d.escapes '\''

end Dialect

end SchemaKeeper
