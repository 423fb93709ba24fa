import SchemaKeeper.Identifier
import SchemaKeeper.Text.Blank
import SchemaKeeper.Text.Letters

/-!
# Select lists

Each entry of a select list is read as one of four forms: a star, an aggregate with an alias, a
column with an alias, or a plain column. Keywords and names of the two alias forms compare by simple
case folding, so that a name may hold the Kelvin sign and the long s, which cleaning then removes.
-/

namespace SchemaKeeper

/-- One item of a select list as it was written. -/
inductive SelectItem where
  | star
  /-- The aggregate's name, its argument unless that is a star, and the alias. -/
  | aggregate (function : List Char) (argument : Option (List Char)) (label : List Char)
  | aliased (name label : List Char)
  | column (raw : String)
  deriving DecidableEq, Repr

namespace SelectItem

/-- The characters of names in the alias forms, before folding. -/
def isAliasChar (c : Char) : Bool := Identifier.isNameChar (Text.foldLetter c)

/-- The characters of an aggregate's alias: no point among them. -/
def isPlainAliasChar (c : Char) : Bool := isAliasChar c && c != '.'

/-- The aggregates that take an alias. -/
def aggregates : List String := ["sum", "count", "max", "min"]

/-- The text is the given lower-case word up to case folding. -/
def isWord (word : String) (s : List Char) : Bool := s.map Text.foldLetter == word.toList

/-- A column with an alias: name, `AS` and name, separated by blanks. -/
def aliased? (s : List Char) : Option SelectItem :=
  match Text.fields s with
  | [name, keyword, label] =>
    if name.all isAliasChar && isWord "as" keyword && label.all isAliasChar then
      some (.aliased name label)
    else none
  | _ => none

/-- Cut a text at the first occurrence of a character, which belongs to neither part. -/
def cutAt? (c : Char) (s : List Char) : Option (List Char × List Char) :=
  match s.dropWhile (· ≠ c) with
  | [] => none
  | _ :: rest => some (s.takeWhile (· ≠ c), rest)

/-- The argument of an aggregate: a star, or a name between blanks. -/
def argument? (s : List Char) : Option (Option (List Char)) :=
  let s := Text.trimChars s
  if s = ['*'] then some none
  else if !s.isEmpty && s.all isAliasChar then some (some s)
  else none

/-- The alias behind an aggregate: at least one blank, `AS` and a name without points. -/
def aggregateAlias? (s : List Char) : Option (List Char) :=
  match s.head?, Text.fields s with
  | some c, [keyword, label] =>
    if Text.isBlank c && isWord "as" keyword && label.all isPlainAliasChar then some label else none
  | _, _ => none

/-- An aggregate with an alias. -/
def aggregate? (s : List Char) : Option SelectItem := do
  let (head, rest) ← cutAt? '(' s
  let (inner, rest) ← cutAt? ')' rest
  let function := Text.trimStart head
  if !aggregates.any (isWord · function) then none
  let argument ← argument? inner
  let label ← aggregateAlias? rest
  some (.aggregate function argument label)

/-- The form of an entry; whatever matches no other form is a plain column. -/
def ofEntry (entry : String) : SelectItem :=
  if Text.trim entry = "*" then .star
  else ((aggregate? entry.toList).orElse fun _ => aliased? entry.toList).getD (.column entry)

/-- The cleaned name of some characters. -/
def cleanName (s : List Char) : Except BuildError String := Identifier.sanitize (String.ofList s)

/-- The text of an item. An aggregate's name has its ASCII letters raised and no other change. -/
def text : SelectItem → Except BuildError String
  | .star => .ok "*"
  | .aggregate function argument label => do
    let inner ← match argument with
      | none => pure "*"
      | some s => cleanName s
    let label ← cleanName label
    return Text.asciiUpper (String.ofList function) ++ "(" ++ inner ++ ") AS '" ++ label ++ "'"
  | .aliased name label => do
    let name ← cleanName name
    let label ← cleanName label
    return name ++ " AS '" ++ label ++ "'"
  | .column raw => Identifier.sanitize raw

end SelectItem

/-- The select list of some entries; no entries select everything. -/
def selectList (entries : List String) : Except BuildError String :=
  if entries.isEmpty then .ok "*"
  else do return ", ".intercalate (← entries.mapM fun e => (SelectItem.ofEntry e).text)

end SchemaKeeper
