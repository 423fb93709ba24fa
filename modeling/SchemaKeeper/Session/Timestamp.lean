import SchemaKeeper.Number.Reading
import SchemaKeeper.Text.Blank

/-!
# Timestamps

A timestamp is written `YYYY-MM-DD HH:MM:SS`. Reading is lenient in the usual ways: blanks may stand
before each number, the gap between date and time may be any run of blanks or missing, numbers may
be shorter than their field, and a year with a sign may be longer. A second of 60 is a leap second.
-/

namespace SchemaKeeper

/-- A date and time of the proleptic Gregorian calendar without a time zone. -/
structure Timestamp where
  year : Int
  month : Nat
  day : Nat
  hour : Nat
  minute : Nat
  second : Nat
  deriving DecidableEq, Repr

namespace Timestamp

/-- The year has a 29th of February. -/
def isLeapYear (year : Int) : Bool :=
  year % 4 == 0 && (year % 100 != 0 || year % 400 == 0)

/-- How many days a month has. -/
def daysIn (year : Int) (month : Nat) : Nat :=
  if month = 2 then (if isLeapYear year then 29 else 28)
  else if month = 4 ∨ month = 6 ∨ month = 9 ∨ month = 11 then 30
  else 31

/-- The years that a timestamp can have. -/
def yearRange : Int × Int := (-262143, 262142)

/-- The date exists and the time of day is within bounds. -/
def IsValid (t : Timestamp) : Prop :=
  yearRange.1 ≤ t.year ∧ t.year ≤ yearRange.2 ∧ 1 ≤ t.month ∧ t.month ≤ 12 ∧ 1 ≤ t.day
    ∧ t.day ≤ daysIn t.year t.month ∧ t.hour ≤ 23 ∧ t.minute ≤ 59 ∧ t.second ≤ 60

instance (t : Timestamp) : Decidable t.IsValid := inferInstanceAs (Decidable (_ ∧ _))

/-- Up to `width` digits of a number behind blanks; no width takes all digits. -/
def takeNumber? (width : Option Nat) (s : List Char) : Option (Nat × List Char) :=
  let s := Text.trimStart s
  let run := s.takeWhile Char.isDigit
  let ds := match width with
    | some w => run.take w
    | none => run
  (Number.readDigits? ds).map fun n => (n, s.drop ds.length)

/-- A year: four digits at most, or any number of them behind a sign. -/
def takeYear? (s : List Char) : Option (Int × List Char) :=
  match Text.trimStart s with
  | '-' :: rest =>
    if (rest.head?.map Char.isDigit).getD false then
      (takeNumber? none rest).map fun (n, rest) => (-(n : Int), rest)
    else none
  | '+' :: rest =>
    if (rest.head?.map Char.isDigit).getD false then
      (takeNumber? none rest).map fun (n, rest) => ((n : Int), rest)
    else none
  | s => (takeNumber? (some 4) s).map fun (n, rest) => ((n : Int), rest)

/-- Take one given character. -/
def takeMark? (mark : Char) : List Char → Option (List Char)
  | c :: rest => if c = mark then some rest else none
  | [] => none

/-- A number of at most two digits behind blanks. -/
def takePair? (s : List Char) : Option (Nat × List Char) := takeNumber? (some 2) s

/-- Read a timestamp that takes up the whole text between blanks. -/
def parse? (s : String) : Option Timestamp := do
  let (year, s) ← takeYear? (Text.trimChars s.toList)
  let (month, s) ← takePair? (← takeMark? '-' s)
  let (day, s) ← takePair? (← takeMark? '-' s)
  let (hour, s) ← takePair? s
  let (minute, s) ← takePair? (← takeMark? ':' s)
  let (second, s) ← takePair? (← takeMark? ':' s)
  let t : Timestamp := ⟨year, month, day, hour, minute, second⟩
  if s.isEmpty ∧ t.IsValid then some t else none

/-- A number with zeros in front up to a width. -/
def padded (width n : Nat) : String :=
  let ds := Nat.toDigits 10 n
  String.ofList (List.replicate (width - ds.length) '0' ++ ds)

/-- The text of a year: four digits, with a sign where it is negative or longer. -/
def yearText (year : Int) : String :=
  (if year < 0 then "-" else if year > 9999 then "+" else "") ++ padded 4 year.natAbs

/-- The text of a timestamp. -/
def text (t : Timestamp) : String :=
  yearText t.year ++ "-" ++ padded 2 t.month ++ "-" ++ padded 2 t.day ++ " " ++ padded 2 t.hour
    ++ ":" ++ padded 2 t.minute ++ ":" ++ padded 2 t.second

end Timestamp

end SchemaKeeper
