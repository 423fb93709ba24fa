import SchemaKeeper.Text.Letters

/-!
# Tokens of SQL text

How an SQLite engine cuts the text of a statement into tokens: words, quoted names and texts,
numbers, operators, and pieces that are no token at all. Each token keeps the blanks and comments in
front of it, so that nothing of the text is lost. Words are told apart from keywords only where a
name is read.
-/

namespace SchemaKeeper

/-- What a piece of a statement is. -/
inductive SqlToken.Kind where
  /-- Blanks or a comment. -/
  | blank
  | word
  /-- A name or a text between quotes. -/
  | quoted
  | number
  /-- An operator, or anything else that is neither a name nor a number. -/
  | other
  /-- No token. -/
  | malformed
  deriving DecidableEq, Repr

/-- A token with the blanks and comments in front of it. -/
structure SqlToken where
  kind : SqlToken.Kind
  gap : List Char
  text : List Char
  deriving DecidableEq, Repr

/-- Why a statement cannot be read. -/
inductive SyntaxFault where
  /-- The first token that cannot stand in its place. -/
  | near (token : String)
  | unrecognized (piece : String)
  | incomplete
  deriving DecidableEq, Repr

/-- The fault in words. -/
def SyntaxFault.message : SyntaxFault → String
  | .near t => "near \"" ++ t ++ "\": syntax error"
  | .unrecognized t => "unrecognized token: \"" ++ t ++ "\""
  | .incomplete => "incomplete input"

namespace SqlToken

/-- The characters that begin a run of blanks. -/
def isBlank (c : Char) : Bool :=
  c == ' ' || c == '\t' || c == '\n' || c == '\x0c' || c == '\x0d'

/-- The characters of a word: letters, digits, `_`, `$`, and everything outside ASCII. -/
def isWordChar (c : Char) : Bool := c.isAlphanum || c == '_' || c == '$' || 0x80 ≤ c.toNat

/-- The characters that a word begins with. -/
def isWordStart (c : Char) : Bool := c.isAlpha || c == '_' || 0x80 ≤ c.toNat

/-- How many characters a quoted piece has after its opening quote, if it is closed. A doubled quote
does not close it. -/
def quotedLength? (q : Char) : List Char → Option Nat
  | [] => none
  | [c] => if c = q then some 1 else none
  | c :: d :: rest =>
    if c = q then if d = q then (quotedLength? q rest).map (· + 2) else some 1
    else (quotedLength? q (d :: rest)).map (· + 1)

/-- How many characters a comment has after its opening; one that is not closed has all. -/
def commentLength : List Char → Nat
  | '*' :: '/' :: _ => 2
  | _ :: rest => commentLength rest + 1
  | [] => 0

/-- A hexadecimal digit. -/
def isHexDigit (c : Char) : Bool := c.isDigit || ('a' ≤ c.toLower && c.toLower ≤ 'f')

/-- The kind and the length of a piece that a letter and a quote announce as bytes, by what follows
the quote. Bytes are pairs of hexadecimal digits. -/
def bytes (rest : List Char) : Kind × Nat :=
  let digits := (rest.takeWhile isHexDigit).length
  if digits % 2 = 0 ∧ (rest.drop digits).head? = some '\'' then (.other, digits + 3)
  else
    let inside := (rest.takeWhile (· ≠ '\'')).length
    (.malformed, if inside < rest.length then inside + 3 else inside + 2)

/-- The digits of a class and the separators among them, and what follows. -/
def spanDigits (isDigit : Char → Bool) (s : List Char) : List Char × List Char :=
  (s.takeWhile fun c => isDigit c || c == '_', s.dropWhile fun c => isDigit c || c == '_')

/-- The fraction and the exponent of a number, and what follows. -/
def spanFraction (s : List Char) : List Char × List Char :=
  let (fraction, s) := match s with
    | '.' :: rest => let (ds, rest) := spanDigits Char.isDigit rest; ('.' :: ds, rest)
    | _ => ([], s)
  match s with
  | e :: sign :: d :: rest =>
    if e.toLower = 'e' ∧ (sign.isDigit ∨ ((sign = '+' ∨ sign = '-') ∧ d.isDigit)) then
      let (ds, rest) := spanDigits Char.isDigit (d :: rest)
      (fraction ++ e :: sign :: ds, rest)
    else (fraction, s)
  | [e, d] => if e.toLower = 'e' ∧ d.isDigit then (fraction ++ [e, d], []) else (fraction, s)
  | _ => (fraction, s)

/-- The kind and the length of the number at the front of a text. A word character behind the digits
spoils it, and digits with separators are no plain number. -/
def number (s : List Char) : Kind × Nat :=
  let (digits, rest) := match s with
    | '0' :: x :: d :: rest =>
      if x.toLower = 'x' ∧ isHexDigit d then
        let (ds, rest) := spanDigits isHexDigit (d :: rest)
        ('0' :: x :: ds, rest)
      else
        let (whole, rest) := spanDigits Char.isDigit s
        let (fraction, rest) := spanFraction rest
        (whole ++ fraction, rest)
    | _ =>
      let (whole, rest) := spanDigits Char.isDigit s
      let (fraction, rest) := spanFraction rest
      (whole ++ fraction, rest)
  let excess := (rest.takeWhile isWordChar).length
  if excess > 0 then (.malformed, digits.length + excess)
  else (if digits.contains '_' then .other else .number, digits.length)

/-- The operators, longer ones before those that they begin with. -/
def operators : List String :=
  ["->>", "->", "||", "<<", ">>", "<=", ">=", "<>", "==", "!=", "(", ")", ";", ",", ".", "+", "-",
    "*", "/", "%", "=", "<", ">", "|", "&", "~"]

/-- The kind and the length of the piece at the front of a text. -/
def piece : List Char → Kind × Nat
  | [] => (.malformed, 0)
  | c :: rest =>
    if isBlank c then (.blank, 1 + (rest.takeWhile fun d => isBlank d || d == '\x0b').length)
    else if c = '\ufeff' then (.blank, 1)
    else if c.isDigit || (c == '.' && (rest.head?.map Char.isDigit).getD false) then
      number (c :: rest)
    else if c = '\'' ∨ c = '"' ∨ c.toNat = 0x60 then
      match quotedLength? c rest with
      | some n => (.quoted, n + 1)
      | none => (.malformed, rest.length + 1)
    else if c = '[' then
      let inside := (rest.takeWhile (· ≠ ']')).length
      if inside < rest.length then (.quoted, inside + 2) else (.malformed, rest.length + 1)
    else if c.toLower = 'x' ∧ rest.head? = some '\'' then bytes (rest.drop 1)
    else if isWordStart c then (.word, 1 + (rest.takeWhile isWordChar).length)
    else if c = '-' ∧ rest.head? = some '-' then
      (.blank, 1 + (rest.takeWhile (· ≠ '\n')).length)
    else if c = '/' ∧ rest.head? = some '*' ∧ rest.length > 1 then
      (.blank, 2 + commentLength (rest.drop 1))
    else if c = '?' then (.other, 1 + (rest.takeWhile Char.isDigit).length)
    else if c = '$' ∨ c = '@' ∨ c = '#' ∨ c = ':' then
      let name := (rest.takeWhile isWordChar).length
      (if name = 0 then .malformed else .other, 1 + name)
    else
      match operators.find? fun o => o.toList.isPrefixOf (c :: rest) with
      | some o => (.other, o.length)
      | none => (.malformed, 1)

/-- The tokens of a text behind a gap. Each piece has at least one character. -/
def cut (gap : List Char) : List Char → List SqlToken
  | [] => []
  | c :: rest =>
    let (kind, length) := piece (c :: rest)
    let text := c :: rest.take (length - 1)
    if kind = .blank then cut (gap ++ text) (rest.drop (length - 1))
    else ⟨kind, gap, text⟩ :: cut [] (rest.drop (length - 1))
termination_by s => s.length
decreasing_by all_goals simp only [List.length_drop, List.length_cons]; omega

/-- The tokens of a text. -/
def ofText (s : String) : List SqlToken := cut [] s.toList

/-- The keywords that cannot stand for a name. -/
def reservedWords : List String :=
  ["add", "all", "alter", "and", "as", "autoincrement", "between", "case", "check", "collate",
    "commit", "constraint", "create", "default", "deferrable", "delete", "distinct", "drop", "else",
    "escape", "except", "exists", "foreign", "from", "group", "having", "in", "index", "insert",
    "intersect", "into", "is", "isnull", "join", "limit", "not", "nothing", "notnull", "null", "on",
    "or", "order", "primary", "references", "returning", "select", "set", "table", "then", "to",
    "transaction", "union", "unique", "update", "using", "values", "when", "where"]

/-- The token is this word in any case, or this operator. -/
def spells (t : SqlToken) (s : String) : Bool :=
  (t.kind = .word || t.kind = .other) && Text.sameIgnoringCase (String.ofList t.text) s

/-- The token can stand for a name. -/
def isName (t : SqlToken) : Bool :=
  match t.kind with
  | .word => !reservedWords.any t.spells
  | .quoted => true
  | _ => false

/-- The fault of a token in a place where it cannot stand. -/
def fault (t : SqlToken) : SyntaxFault :=
  if t.kind = .malformed then .unrecognized (String.ofList t.text) else .near (String.ofList t.text)

/-- Write a doubled quote once. -/
def halve (q : Char) : List Char → List Char
  | c :: d :: rest => if c = q ∧ d = q then q :: halve q rest else c :: halve q (d :: rest)
  | s => s

/-- The text that a token stands for: the inside of a quoted one, and any other as it is. -/
def value (t : SqlToken) : String :=
  match t.kind, t.text with
  | .quoted, q :: rest => String.ofList (if q = '[' then rest.dropLast else halve q rest.dropLast)
  | _, text => String.ofList text

end SqlToken

end SchemaKeeper
