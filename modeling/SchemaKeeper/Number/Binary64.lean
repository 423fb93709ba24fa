import SchemaKeeper.Number.Rounding

/-!
# Doubles as data

A binary64 datum is a value of an inductive type, so that reading, printing and comparing doubles
are ordinary functions on natural numbers. A finite datum holds its sign and its *rank*: how many
non-negative doubles lie below its absolute value. The ranks below `2047 * 2 ^ 52` are exactly the
finite doubles, in increasing order, and a rank splits into the exponent field and the fraction of
the interchange format.

Everything that produces a double goes through `roundRatio`: the nearest double to a ratio of
natural numbers, ties to the even significand. Numbers of single precision are held as the doubles
that they equal; `roundRatioSingle` rounds a ratio to one of them in a single step.
-/

namespace SchemaKeeper

/-- A binary64 datum; all NaNs are one. -/
inductive Binary64 where
  | nan
  | infinite (negative : Bool)
  | finite (negative : Bool) (rank : Fin (2047 * Nat.pow 2 52))
  deriving DecidableEq, Repr

namespace Binary64

/-- The integer significand of the double of this rank: the fraction, with the hidden bit unless
the exponent field is zero. -/
def significand (rank : Nat) : Nat :=
  if rank < Nat.pow 2 52 then rank else Nat.pow 2 52 + rank % Nat.pow 2 52

/-- How many times `2 ^ -1074` doubles to give the unit of the double of this rank. -/
def unitShift (rank : Nat) : Nat := rank / Nat.pow 2 52 - 1

/-- The value of the double of this rank as a numerator over `2 ^ 1074`. -/
def numerator (rank : Nat) : Nat := significand rank * Nat.pow 2 (unitShift rank)

/-- The common denominator of all finite doubles. -/
def denominator : Nat := Nat.pow 2 1074

/-- The greatest `k` with `2 ^ k ≤ num / den`, for a positive ratio. -/
def floorLog2 (num den : Nat) : Int :=
  let k : Int := (num.log2 : Int) - den.log2
  if num * Nat.pow 2 (-k).toNat < den * Nat.pow 2 k.toNat then k - 1 else k

/-- The exponent of the unit in the last place for a positive ratio, in a binary format with
`precision` bits whose smallest positive value is `2 ^ least`. -/
def unitExponent (precision : Nat) (least : Int) (num den : Nat) : Int :=
  max least (floorLog2 num den - (precision - 1 : Nat))

/-- The multiple of `2 ^ e` nearest to a ratio, as a count of units; a tie goes to the even
count. -/
def countUnits (num den : Nat) (e : Int) : Nat :=
  Number.roundDiv .toEven (num * Nat.pow 2 (-e).toNat) (den * Nat.pow 2 e.toNat)

/-- The double nearest to a ratio with the given sign; a ratio at or above the midpoint between
the largest finite double and the next power of two gives an infinity. -/
def roundRatio (negative : Bool) (num den : Nat) : Binary64 :=
  if num = 0 then .finite negative 0
  else
    let e := unitExponent 53 (-1074) num den
    let rank := (e + 1074).toNat * Nat.pow 2 52 + countUnits num den e
    if h : rank < 2047 * Nat.pow 2 52 then .finite negative ⟨rank, h⟩ else .infinite negative

/-- The number of single precision nearest to a ratio with the given sign; a ratio that rounds to
`2 ^ 128` or more gives an infinity. -/
def roundRatioSingle (negative : Bool) (num den : Nat) : Binary64 :=
  if num = 0 then .finite negative 0
  else
    let e := unitExponent 24 (-149) num den
    let units := countUnits num den e
    if Nat.pow 2 128 * Nat.pow 2 (-e).toNat ≤ units * Nat.pow 2 e.toNat then .infinite negative
    else roundRatio negative (units * Nat.pow 2 e.toNat) (Nat.pow 2 (-e).toNat)

/-- The precision to which a number is rounded. -/
inductive Precision where
  | single
  | double
  deriving DecidableEq, Repr

/-- The number of this precision nearest to a ratio with the given sign. -/
def Precision.round : Precision → Bool → Nat → Nat → Binary64
  | .single => roundRatioSingle
  | .double => roundRatio

/-- The double nearest to an integer. -/
def ofInt (i : Int) : Binary64 := roundRatio (i < 0) i.natAbs 1

/-- Beyond these powers of ten every nonzero decimal overflows or vanishes. -/
def decimalReach : Int := 400

/-- The number of this precision nearest to `digits * 10 ^ exponent`. The guard on the size of the
number only keeps far out powers of ten from being computed. -/
def ofDecimal (precision : Precision) (negative : Bool) (digits : Nat) (exponent : Int) :
    Binary64 :=
  if digits = 0 then .finite negative 0
  else
    let size : Int := ((Nat.toDigits 10 digits).length : Int) + exponent
    if size > decimalReach then .infinite negative
    else if size < -decimalReach then .finite negative 0
    else precision.round negative (digits * Nat.pow 10 exponent.toNat)
      (Nat.pow 10 (-exponent).toNat)

/-- Neither a NaN nor an infinity. -/
def isFinite : Binary64 → Bool
  | .finite .. => true
  | _ => false

/-- A zero of either sign. -/
def isZero : Binary64 → Bool
  | .finite _ rank => rank.val == 0
  | _ => false

/-- The integer that a finite double equals, if it equals one. -/
def toInt? : Binary64 → Option Int
  | .finite s rank =>
    let num := numerator rank
    if num % denominator = 0 then
      let n : Int := (num / denominator : Nat)
      some (if s then -n else n)
    else none
  | _ => none

end Binary64

end SchemaKeeper
