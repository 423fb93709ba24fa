/-!
# Blank characters

Every trim and every run of blanks in the library means the Unicode property `White_Space`, which
is wider than ASCII and excludes the zero-width space and the separators U+001C to U+001F. The
module gives the property, the three ways of cutting blanks off the ends of a text, and the split
of a text into its unblank fields.
-/

namespace SchemaKeeper.Text

/-- The characters with the Unicode property `White_Space`. -/
def isBlank (c : Char) : Bool :=
  let n := c.toNat
  (9 ≤ n && n ≤ 13) || n == 0x20 || n == 0x85 || n == 0xA0 || n == 0x1680
    || (0x2000 ≤ n && n ≤ 0x200A) || n == 0x2028 || n == 0x2029 || n == 0x202F || n == 0x205F
    || n == 0x3000

/-- Cut the leading blanks off. -/
def trimStart (s : List Char) : List Char := s.dropWhile isBlank

/-- Cut the trailing blanks off. -/
def trimEnd (s : List Char) : List Char := (s.reverse.dropWhile isBlank).reverse

/-- Cut the blanks off both ends. -/
def trimChars (s : List Char) : List Char := trimEnd (trimStart s)

/-- Cut the blanks off both ends of a string. -/
def trim (s : String) : String := String.ofList (trimChars s.toList)

/-- A text is blank when it has no character outside `White_Space`. -/
def allBlank (s : String) : Bool := s.toList.all isBlank

/-- The maximal runs of unblank characters of a text, in order. -/
def fields : List Char → List (List Char)
  | [] => []
  | c :: rest =>
    if isBlank c then fields rest
    else if (rest.head?.map isBlank).getD true then [c] :: fields rest
    else
      match fields rest with
      | [] => [[c]]
      | word :: words => (c :: word) :: words

end SchemaKeeper.Text
