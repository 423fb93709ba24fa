import SchemaKeeper.Json.Value
import SchemaKeeper.Number.Reading

/-!
# Numbers in JSON documents

A literal is read digit by digit into a 64-bit significand. Digits of the whole part that no longer
fit count as powers of ten, digits of the fraction that no longer fit are dropped. The significand
becomes a double and is multiplied or divided by the double nearest to the power of ten, which is
one or two roundings and not always the nearest double to the literal.
-/

namespace SchemaKeeper.Json

open SchemaKeeper.Number

/-- The significands and the unsigned integers are below this bound. -/
def wordBound : Nat := UInt64.size

/-- The rank of a finite double, its sign left aside. -/
def rankOf : Binary64 → Nat
  | .finite _ rank => rank.val
  | _ => 0

/-- The nearest double to the product of a double with a power of ten, itself taken as a double. -/
def timesPower (x : Nat) (power : Nat) : Binary64 :=
  Binary64.roundRatio false
    (Binary64.numerator x * Binary64.numerator (rankOf (Binary64.ofDecimal .double false 1 power)))
    (Binary64.denominator * Binary64.denominator)

/-- The nearest double to the quotient of a double by a power of ten, itself taken as a double. -/
def overPower (x : Nat) (power : Nat) : Binary64 :=
  Binary64.roundRatio false (Binary64.numerator x)
    (Binary64.numerator (rankOf (Binary64.ofDecimal .double false 1 power)))

/-- The largest power of ten that a double can hold. -/
def largestPower : Nat := 308

/-- Divide the double of this rank by a power of ten, taking out `10 ^ 308` as long as the power is
larger than that and the double is not zero. -/
def divideDown (x power : Nat) : Nat :=
  if power ≤ largestPower then rankOf (overPower x power)
  else if x = 0 then 0
  else divideDown (rankOf (overPower x largestPower)) (power - largestPower)
termination_by power
decreasing_by simp [largestPower] at *; omega

/-- The double for a significand times a power of ten, if it is finite. -/
def scaled? (negative : Bool) (significand : Nat) (exponent : Int) : Option Binary64 :=
  let x := rankOf (Binary64.ofInt significand)
  let signed (rank : Nat) : Option Binary64 :=
    if h : rank < 2047 * Nat.pow 2 52 then some (.finite negative ⟨rank, h⟩) else none
  if exponent < 0 then signed (divideDown x exponent.natAbs)
  else if x = 0 then signed 0
  else if exponent.toNat > largestPower then none
  else
    match timesPower x exponent.toNat with
    | .finite _ rank => signed rank.val
    | _ => none

/-- Gather the digits of a whole part: the significand, and how many digits did not fit. -/
def gatherWhole (significand : Nat) : List Char → Nat × Nat
  | [] => (significand, 0)
  | c :: rest =>
    let next := significand * 10 + (c.toNat - '0'.toNat)
    if next < wordBound then gatherWhole next rest else (significand, (c :: rest).length)

/-- Gather the digits of a fraction: the significand, and how many digits fitted. -/
def gatherFraction (significand taken : Nat) : List Char → Nat × Nat
  | [] => (significand, taken)
  | c :: rest =>
    let next := significand * 10 + (c.toNat - '0'.toNat)
    if next < wordBound then gatherFraction next (taken + 1) rest else (significand, taken)

/-- A number literal cut into its parts. -/
structure Literal where
  negative : Bool
  whole : List Char
  fraction : Option (List Char)
  exponent : Option (Bool × List Char)

/-- The exponents whose digits exceed 31 bits are infinitely large. -/
def exponentBound : Nat := Nat.pow 2 31

/-- The value of a literal; `none` when it is too large for a double. -/
def Literal.value? (l : Literal) : Option Json :=
  let (significand, unfitted) := gatherWhole 0 l.whole
  if l.fraction.isNone && l.exponent.isNone && unfitted == 0 then
    if !l.negative then some (.integer significand)
    else if significand = 0 ∨ significand > Nat.pow 2 63 then
      (scaled? true significand 0).map .real
    else some (.integer (-(significand : Int)))
  else
    let (significand, fitted) := gatherFraction significand 0 (l.fraction.getD [])
    let shift : Int := (unfitted : Int) - fitted
    match l.exponent with
    | none => (scaled? l.negative significand shift).map .real
    | some (down, digits) =>
      let e := digitsValue digits
      if e ≥ exponentBound then
        if significand ≠ 0 ∧ !down then none else (scaled? l.negative 0 0).map .real
      else (scaled? l.negative significand (if down then shift - e else shift + e)).map .real

/-- Split off a nonempty run of digits. -/
def takeDigits? (s : List Char) : Option (List Char × List Char) :=
  let ds := s.takeWhile Char.isDigit
  if ds.isEmpty then none else some (ds, s.dropWhile Char.isDigit)

/-- Cut a literal off the front of a text. A whole part has no superfluous leading zero; a point and
an exponent mark are each followed by at least one digit. -/
def takeLiteral? (s : List Char) : Option (Literal × List Char) := do
  let (negative, s) := match s with
    | '-' :: rest => (true, rest)
    | s => (false, s)
  let (whole, s) ← takeDigits? s
  if whole.length > 1 ∧ whole.head? = some '0' then none
  let (fraction, s) ← match s with
    | '.' :: rest => (takeDigits? rest).map fun (ds, rest) => (some ds, rest)
    | s => some (none, s)
  let (exponent, s) ← match s with
    | c :: rest =>
      if c = 'e' ∨ c = 'E' then
        let (down, rest) := splitSign rest
        (takeDigits? rest).map fun (ds, rest) => (some (down, ds), rest)
      else some (none, s)
    | [] => some (none, [])
  some (⟨negative, whole, fraction, exponent⟩, s)

end SchemaKeeper.Json
