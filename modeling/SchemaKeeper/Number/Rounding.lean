/-!
# Rounded quotients

A quotient of natural numbers is rounded to the nearest natural number. Halfway between two of them
a `Tie` decides, so that the value of a number read and the digits of a number written can each have
a rule of its own.
-/

namespace SchemaKeeper.Number

/-- Which of two equally near neighbours is taken. -/
inductive Tie where
  /-- The even one. -/
  | toEven
  /-- The upper one. -/
  | up
  deriving DecidableEq, Repr

/-- The natural number nearest to a quotient. -/
def roundDiv (tie : Tie) (num den : Nat) : Nat :=
  let q := num / den
  let r := num % den
  if 2 * r < den then q
  else if den < 2 * r then q + 1
  else
    match tie with
    | .toEven => q + q % 2
    | .up => q + 1

end SchemaKeeper.Number
