import SchemaKeeper.Fault
import SchemaKeeper.Number.Shortest
import SchemaKeeper.Number.Reading
import SchemaKeeper.Text.Blank

/-!
# Scalars

The values that statements and rows carry: 64-bit integers, doubles and texts. There is no boolean;
callers choose an integer or a text for one.
-/

namespace SchemaKeeper

/-- A value of a column. -/
inductive Scalar where
  | int (i : Int64)
  | float (x : Binary64)
  | text (s : String)
  deriving DecidableEq, Repr

/-- Half the number of 64-bit integers. -/
def int64Half : Int := Nat.pow 2 63

/-- An integer of the 64-bit range, if it lies in it. -/
def int64? (i : Int) : Option Int64 :=
  if -int64Half ≤ i ∧ i < int64Half then some (Int64.ofInt i) else none

/-- The 64-bit integer nearest to an integer. -/
def clampInt64 (i : Int) : Int64 := Int64.ofInt (max (-int64Half) (min (int64Half - 1) i))

namespace Scalar

/-- A document value as a scalar. An integer beyond the signed range becomes the nearest double. -/
def ofJson : Json → Except BuildError Scalar
  | .text s => .ok (.text s)
  | .integer i =>
    match int64? i with
    | some n => .ok (.int n)
    | none => .ok (.float (Binary64.ofInt i))
  | .real x => .ok (.float x)
  | v => .error (.valueShape (.notScalar v.kind))

/-- A text as an integer: an integer literal within range, or else a number with an integral value,
which the range then clamps. -/
def textToInt? (s : List Char) : Option Int64 :=
  match (Number.readInt? s).bind int64? with
  | some n => some n
  | none => ((Number.readBinary64? s).bind Binary64.toInt?).map clampInt64

/-- The value as an integer; an integral double counts as one, clamped to the range. -/
def toInt? : Scalar → Option Int64
  | .int i => some i
  | .float x => x.toInt?.map clampInt64
  | .text s => textToInt? (Text.trimChars s.toList)

/-- The value as a double; a text must be a finite number. -/
def toFloat? : Scalar → Option Binary64
  | .int i => some (Binary64.ofInt i.toInt)
  | .float x => some x
  | .text s =>
    match Number.readBinary64? (Text.trimChars s.toList) with
    | some x => if x.isFinite then some x else none
    | none => none

/-- The value, if it is a text. -/
def toText? : Scalar → Option String
  | .text s => some s
  | _ => none

/-- The value as plain text. -/
def display : Scalar → String
  | .int i => toString i.toInt
  | .float x => x.display
  | .text s => s

/-- The value as JSON. -/
def toJson : Scalar → Json
  | .int i => .integer i.toInt
  | .float x => .real x
  | .text s => .text s

end Scalar

end SchemaKeeper
