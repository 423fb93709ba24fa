/-!
# Letter case and searching

Type names, keywords and flags are compared without regard to ASCII case. The alias patterns of a
select list compare by Unicode simple case folding instead, which brings exactly two characters
outside ASCII into the Latin alphabet: the Kelvin sign and the long s.
-/

namespace SchemaKeeper.Text

/-- Lower the ASCII letters of a text and keep every other character. -/
def asciiLower (s : String) : String := String.ofList (s.toList.map Char.toLower)

/-- Raise the ASCII letters of a text and keep every other character. -/
def asciiUpper (s : String) : String := String.ofList (s.toList.map Char.toUpper)

/-- Two texts that agree up to the case of their ASCII letters. -/
def sameIgnoringCase (a b : String) : Bool := asciiLower a == asciiLower b

/-- The Latin letter that a character folds to: ASCII letters fold to lower case, the Kelvin sign
to `k` and the long s to `s`. -/
def foldLetter (c : Char) : Char :=
  if c == '\u212a' then 'k' else if c == '\u017f' then 's' else c.toLower

/-- The word occurs somewhere in the text. -/
def contains (word : List Char) : List Char → Bool
  | [] => word.isEmpty
  | c :: rest => word.isPrefixOf (c :: rest) || contains word rest

/-- The text after the first occurrence of the word. -/
def after? (word : List Char) : List Char → Option (List Char)
  | [] => if word.isEmpty then some [] else none
  | c :: rest =>
    if word.isPrefixOf (c :: rest) then some ((c :: rest).drop word.length) else after? word rest

/-- Write every occurrence of a character as the given text. -/
def replaceChar (c : Char) (replacement s : List Char) : List Char :=
  s.flatMap fun d => if d = c then replacement else [d]

end SchemaKeeper.Text
