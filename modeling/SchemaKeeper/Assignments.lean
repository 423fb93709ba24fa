import SchemaKeeper.Scalar

/-!
# Column values

The values of an insert or an update: a map from column names to scalars that keeps the order in
which columns were first given.
-/

namespace SchemaKeeper

/-- Columns with their values, in the order of the statement. -/
structure Assignments where
  entries : List (String × Scalar) := []
  deriving DecidableEq, Repr

namespace Assignments

/-- Give a column of a list a value, in its place if it has one and else at the end. -/
def put (column : String) (value : Scalar) : List (String × Scalar) → List (String × Scalar)
  | [] => [(column, value)]
  | (c, v) :: rest =>
    if c = column then (c, value) :: rest else (c, v) :: put column value rest

/-- Give a column a value, in its place if it has one and else at the end. -/
def insert (a : Assignments) (column : String) (value : Scalar) : Assignments :=
  ⟨put column value a.entries⟩

/-- Give a column a value and move it to the front. -/
def prepend (a : Assignments) (column : String) (value : Scalar) : Assignments :=
  ⟨(column, value) :: a.entries.filter fun e => e.1 ≠ column⟩

/-- The value of a column. -/
def get? (a : Assignments) (column : String) : Option Scalar := a.entries.lookup column

/-- The column has a value. -/
def contains (a : Assignments) (column : String) : Bool := (a.get? column).isSome

/-- The columns in order. -/
def columns (a : Assignments) : List String := a.entries.map Prod.fst

/-- How many columns have a value. -/
def size (a : Assignments) : Nat := a.entries.length

/-- No column has a value. -/
def isEmpty (a : Assignments) : Bool := a.entries.isEmpty

/-- Insert pairs one after another. -/
def ofList (pairs : List (String × Scalar)) : Assignments :=
  pairs.foldl (fun a (column, value) => a.insert column value) ⟨[]⟩

/-- The fault of a column's value, with the column named. -/
def nameColumn (column : String) : BuildError → BuildError
  | .valueShape fault => .valueShape (.inColumn column fault)
  | e => e

/-- Insert the members of a document object one after another. -/
def insertMembers (a : Assignments) : List (String × Json) → Except BuildError Assignments
  | [] => .ok a
  | (column, value) :: rest =>
    match Scalar.ofJson value with
    | .ok scalar => insertMembers (a.insert column scalar) rest
    | .error e => .error (nameColumn column e)

/-- The members of a document object as column values. -/
def ofJson : Json → Except BuildError Assignments
  | .object members => insertMembers ⟨[]⟩ members
  | v => .error (.valueShape (.notAssignments v.kind))

end Assignments

end SchemaKeeper
