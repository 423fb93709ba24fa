import SchemaKeeper.Session.Backend

/-!
# Columns from SHOW rows

A MySQL server describes a table in two results: one row for each column, and one row for each
column of each index. A column gets the name and kind of the first index, other than the primary
key, that has this column and no other; without one its own key flag says how it is indexed.
-/

namespace SchemaKeeper.ShowRows

/-- The key of an index row. -/
def keyOf (index : Row) : Option String := index.text? "Key_name"

/-- How many rows the key has. -/
def parts (indexes : List Row) (key : String) : Nat :=
  (indexes.filter fun r => keyOf r = some key).length

/-- What an index row says of the given column: the key and its kind, if the key is not the primary
one, has a single row, and is on this column. -/
def indexOn? (indexes : List Row) (column : String) (index : Row) : Option (String × IndexKind) :=
  match keyOf index with
  | none => none
  | some key =>
    if key ≠ "PRIMARY" ∧ parts indexes key = 1 ∧ index.text? "Column_name" = some column then
      some (key, if index.int? "Non_unique" = some 0 then .unique else .nonUnique)
    else none

/-- The kind that the key flag of a column row gives. -/
def flagged (row : Row) : IndexKind :=
  if row.text? "Key" = some "UNI" then .unique
  else if row.text? "Key" = some "MUL" then .nonUnique
  else .none

/-- The column of a row; a row without a name has none. -/
def column? (indexes : List Row) (row : Row) : Option LiveColumn :=
  (row.text? "Field").map fun name =>
    let found := indexes.findSome? (indexOn? indexes name)
    { spec := Column.ofType name ((row.text? "Type").getD "")
        (match row.text? "Null" with
          | some n => Text.sameIgnoringCase n "YES"
          | none => false)
        ((row.get? "Default").map fun v => .text v.display)
        (match found with
          | some (_, kind) => kind
          | none => flagged row)
      indexName := found.map Prod.fst }

/-- The columns of a table. -/
def liveColumns (columns indexes : List Row) : List LiveColumn :=
  columns.filterMap (column? indexes)

end SchemaKeeper.ShowRows
