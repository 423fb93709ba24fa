import SchemaKeeper.Number.Binary64
import SchemaKeeper.Text.Letters

/-!
# Reading numbers

Integers are read from an optional sign and decimal digits and must fit the range asked for.
Doubles and numbers of single precision are read from a decimal with an optional point and exponent,
or from the words `inf`, `infinity` and `nan` in any case, and are the nearest ones to the number
written: a number of single precision is never rounded to a double on the way.
-/

namespace SchemaKeeper.Number

/-- The value of a decimal digit. -/
def digit? (c : Char) : Option Nat := if c.isDigit then some (c.toNat - '0'.toNat) else none

/-- The value of a run of decimal digits. -/
def digitsValue (s : List Char) : Nat := s.foldl (fun n c => 10 * n + (c.toNat - '0'.toNat)) 0

/-- A natural number written in decimal digits alone, at least one of them. -/
def readDigits? (s : List Char) : Option Nat :=
  if s.isEmpty || !s.all Char.isDigit then none else some (digitsValue s)

/-- Split off a sign: whether it is a minus, and the rest. -/
def splitSign : List Char → Bool × List Char
  | '-' :: rest => (true, rest)
  | '+' :: rest => (false, rest)
  | s => (false, s)

/-- An integer written in decimal with an optional sign. -/
def readInt? (s : List Char) : Option Int :=
  let (negative, rest) := splitSign s
  (readDigits? rest).map fun n => if negative then -(n : Int) else n

/-- A natural number written in decimal with an optional plus sign, below `bound`. -/
def readNatBelow? (bound : Nat) (s : List Char) : Option Nat := do
  let n ← readDigits? (if s.head? = some '+' then s.drop 1 else s)
  if n < bound then some n else none

/-- An exponent mark with its signed digits; nothing at all is the exponent zero. -/
def readExponent? : List Char → Option Int
  | [] => some 0
  | c :: rest => if c = 'e' ∨ c = 'E' then readInt? rest else none

/-- A decimal without sign: digits with at most one point among or around them, at least one
digit, and an optional exponent. -/
def readDecimal? (s : List Char) : Option (Nat × Int) := do
  let whole := s.takeWhile Char.isDigit
  let rest := s.dropWhile Char.isDigit
  let (fraction, rest) := match rest with
    | '.' :: after => (after.takeWhile Char.isDigit, after.dropWhile Char.isDigit)
    | _ => ([], rest)
  if whole.isEmpty && fraction.isEmpty then none
  let e ← readExponent? rest
  some (digitsValue (whole ++ fraction), e - fraction.length)

/-- A number of the given precision in decimal or as a word. -/
def readReal? (precision : Binary64.Precision) (s : List Char) : Option Binary64 :=
  let (negative, rest) := splitSign s
  let word := String.ofList (rest.map Char.toLower)
  if word = "inf" ∨ word = "infinity" then some (.infinite negative)
  else if word = "nan" then some .nan
  else (readDecimal? rest).map fun (digits, e) => Binary64.ofDecimal precision negative digits e

/-- A double in decimal or as a word. -/
def readBinary64? (s : List Char) : Option Binary64 := readReal? .double s

/-- A number of single precision in decimal or as a word. -/
def readSingle? (s : List Char) : Option Binary64 := readReal? .single s

end SchemaKeeper.Number
