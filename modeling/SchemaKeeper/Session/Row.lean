import SchemaKeeper.Scalar
import SchemaKeeper.Session.Timestamp

/-!
# Rows

A row of a result is a list of named values, where a missing value stands for NULL. Names may
repeat; every reading takes the first field of a name.
-/

namespace SchemaKeeper

/-- A row of a result. -/
structure Row where
  fields : List (String × Option Scalar) := []
  deriving DecidableEq, Repr

namespace Row

/-- The value of a column, unless it is NULL or missing. -/
def get? (r : Row) (column : String) : Option Scalar := (r.fields.lookup column).join

/-- The row has the column. -/
def contains (r : Row) (column : String) : Bool := r.fields.any (·.1 = column)

/-- The value of a column as a text, if it is one. -/
def text? (r : Row) (column : String) : Option String := (r.get? column).bind Scalar.toText?

/-- The value of a column as an integer. -/
def int? (r : Row) (column : String) : Option Int64 := (r.get? column).bind Scalar.toInt?

/-- The value of a column as a double. -/
def float? (r : Row) (column : String) : Option Binary64 := (r.get? column).bind Scalar.toFloat?

/-- The text of a column as a timestamp. -/
def timestamp? (r : Row) (column : String) : Option Timestamp :=
  (r.text? column).bind Timestamp.parse?

/-- The `id` of the row in plain text. -/
def id? (r : Row) : Option String := (r.get? "id").map Scalar.display

/-- The first value of the row, unless it is NULL. -/
def first? (r : Row) : Option Scalar := (r.fields.head?.map Prod.snd).join

/-- A row as JSON. -/
def toJson (r : Row) : Json :=
  .object (r.fields.map fun (name, value) => (name, (value.map Scalar.toJson).getD .null))

end Row

end SchemaKeeper
