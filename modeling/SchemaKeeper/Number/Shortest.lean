import SchemaKeeper.Number.Binary64

/-!
# The shortest decimal of a double

A finite double is written with the fewest significant digits that read back as the same double,
and of those decimals with the one nearest to it. `shortest` finds these digits; a `Layout` says
which of two equally near decimals is meant, and how the digits are set: up to which exponents
positionally, with or without `.0`, with or without a plus sign on an exponent.
-/

namespace SchemaKeeper.Number

/-- The decimal `digits * 10 ^ exponent`. -/
structure Decimal where
  digits : Nat
  exponent : Int
  deriving DecidableEq, Repr

/-- The digits of a natural number. -/
def digitsOf (n : Nat) : List Char := Nat.toDigits 10 n

/-- The reals that round to one double: four times the double and the two ends of the interval, as
numerators over the common denominator `4 * 2 ^ 1074`. The ends belong to it iff the significand is
even. -/
structure Interval where
  low : Nat
  value : Nat
  high : Nat
  closed : Bool

/-- The reals that round to the double of this positive rank. The interval below a power of two is
half as wide as the one above it, because the doubles below stand twice as close. -/
def Interval.ofRank (rank : Nat) : Interval :=
  let m := Binary64.significand rank
  let unit := Nat.pow 2 (Binary64.unitShift rank)
  let below := if m = Nat.pow 2 52 ∧ Binary64.unitShift rank ≠ 0 then 1 else 2
  ⟨(4 * m - below) * unit, 4 * m * unit, (4 * m + 2) * unit, m % 2 == 0⟩

/-- The decimal `digits * 10 ^ exponent` lies in the interval. -/
def Interval.holds (i : Interval) (d : Decimal) : Bool :=
  let x := d.digits * Nat.pow 10 d.exponent.toNat * (4 * Binary64.denominator)
  let scale := Nat.pow 10 (-d.exponent).toNat
  if i.closed then i.low * scale ≤ x && x ≤ i.high * scale
  else i.low * scale < x && x < i.high * scale

/-- The greatest `k` with `10 ^ k ≤ num / den`, for a positive ratio that is no power of ten with
negative exponent. -/
def floorLog10 (num den : Nat) : Int :=
  if den ≤ num then ((digitsOf (num / den)).length : Int) - 1
  else -((digitsOf (den / num)).length : Int)

/-- The decimal with the given exponent nearest to the double among its two neighbours on that
grid, if one of them reads back. Of two the nearer one is taken, and of two equally near ones the
one that the tie says. -/
def Interval.onGrid (tie : Tie) (i : Interval) (exponent : Int) : Option Decimal :=
  let den := 4 * Binary64.denominator * Nat.pow 10 exponent.toNat
  let num := i.value * Nat.pow 10 (-exponent).toNat
  let q := num / den
  let lower : Decimal := ⟨q, exponent⟩
  let upper : Decimal := ⟨q + 1, exponent⟩
  let nearest : Decimal := ⟨roundDiv tie num den, exponent⟩
  match q != 0 && i.holds lower, i.holds upper with
  | true, true => some nearest
  | true, false => some lower
  | false, true => some upper
  | false, false => none

/-- The first exponent, going down one digit at a time, whose grid has a decimal that reads back;
seventeen digits always do. -/
def Interval.search (tie : Tie) (i : Interval) : Nat → Int → Decimal
  | 0, exponent => ⟨i.value / (4 * Binary64.denominator), exponent⟩
  | more + 1, exponent => (i.onGrid tie exponent).getD (Interval.search tie i more (exponent - 1))

/-- Take the trailing zeros of the digits into the exponent, at most `fuel` of them. -/
def Decimal.strip : Nat → Decimal → Decimal
  | 0, d => d
  | fuel + 1, d =>
    if d.digits ≠ 0 ∧ d.digits % 10 = 0 then Decimal.strip fuel ⟨d.digits / 10, d.exponent + 1⟩
    else d

/-- The shortest decimal of the double of this positive rank. -/
def shortest (tie : Tie) (rank : Nat) : Decimal :=
  let i := Interval.ofRank rank
  (i.search tie 17 (floorLog10 i.value (4 * Binary64.denominator))).strip 20

/-- How a double is written. The point stands after the first digit when the scientific exponent is
outside `[leastPlain, belowPlain)`; a missing bound is no bound. -/
structure Layout where
  /-- Which of two equally near shortest decimals is written. -/
  tie : Tie
  leastPlain : Option Int
  belowPlain : Option Int
  /-- An integral value ends in `.0`. -/
  pointZero : Bool
  /-- A non-negative exponent has a plus sign. -/
  plusSign : Bool

/-- The digits with a decimal point in its place and zeros up to it. -/
def plain (layout : Layout) (d : Decimal) : List Char :=
  let ds := digitsOf d.digits
  if 0 ≤ d.exponent then
    ds ++ List.replicate d.exponent.toNat '0' ++ (if layout.pointZero then ['.', '0'] else [])
  else
    let places := (-d.exponent).toNat
    let padded := List.replicate (places + 1 - ds.length) '0' ++ ds
    padded.take (padded.length - places) ++ '.' :: padded.drop (padded.length - places)

/-- The digits with the point after the first one and an exponent. -/
def scientific (layout : Layout) (d : Decimal) : List Char :=
  let ds := digitsOf d.digits
  let e : Int := d.exponent + (ds.length - 1 : Nat)
  let sign := if e < 0 then ['-'] else if layout.plusSign then ['+'] else []
  ds.take 1 ++ (if ds.length = 1 then [] else '.' :: ds.drop 1) ++ 'e' :: sign ++ digitsOf e.natAbs

/-- The text of a decimal under a layout. -/
def Decimal.set (layout : Layout) (d : Decimal) : List Char :=
  let e : Int := d.exponent + ((digitsOf d.digits).length - 1 : Nat)
  let low := match layout.leastPlain with | none => true | some k => decide (k ≤ e)
  let high := match layout.belowPlain with | none => true | some k => decide (e < k)
  if low && high then plain layout d else scientific layout d

/-- The text of the absolute value of the double of this rank. -/
def magnitudeText (layout : Layout) (rank : Nat) : List Char :=
  if rank = 0 then plain layout ⟨0, 0⟩ else (shortest layout.tie rank).set layout

/-- Numbers in SQL text and in messages: always positional, integral values without a point, and of
two equally near decimals the one farther from zero. -/
def sqlLayout : Layout := ⟨.up, none, none, false, false⟩

/-- Numbers in JSON: positional from `1e-5` up to but not including `1e16`, integral values with
`.0`, exponents with their sign, and of two equally near decimals the one whose last digit is
even. -/
def jsonLayout : Layout := ⟨.toEven, some (-5), some 16, true, true⟩

end SchemaKeeper.Number

namespace SchemaKeeper

/-- The text of a double in SQL and in messages. -/
def Binary64.display : Binary64 → String
  | .nan => "NaN"
  | .infinite s => if s then "-inf" else "inf"
  | .finite s rank =>
    String.ofList ((if s then ['-'] else []) ++ Number.magnitudeText Number.sqlLayout rank)

/-- The text of a double as a JSON number; JSON has no text for the ones that are not finite. -/
def Binary64.json? : Binary64 → Option String
  | .finite s rank =>
    some (String.ofList ((if s then ['-'] else []) ++ Number.magnitudeText Number.jsonLayout rank))
  | _ => none

end SchemaKeeper
