import SchemaKeeper.Query.Statement
import SchemaKeeper.Session.Handle

/-!
# Row operations

Selecting, counting, summing, inserting, updating and deleting rows, and listing tables. A statement
is built before anything is sent, so a request that cannot be built leaves the handle and the engine
alone.
-/

namespace SchemaKeeper.Session

variable {σ : Type}

/-- The first value of the first row as a count. -/
def countOf (rows : List Row) : Option Nat :=
  match (rows.head?.bind Row.first?).bind Scalar.toInt? with
  | some n => if 0 ≤ n.toInt then some n.toInt.toNat else none
  | none => none

/-- Remember a total. -/
def setTotal (total : Option Nat) : Session σ Unit :=
  modify fun db => { db with lastTotal := total }

/-- The rows of a query. A query with a limit is counted first, so that the total is known and the
selection stays the last statement. -/
def select (b : Backend σ) (q : Query) : Session σ (List Row) := do
  let sql ← built (q.selectSql b.dialect)
  match q.limit with
  | some _ =>
    let counted ← query b (← built (q.countSql b.dialect))
    let rows ← query b sql
    setTotal (countOf counted)
    return rows
  | none =>
    let rows ← query b sql
    setTotal (some rows.length)
    return rows

/-- The first row of a query, unordered unless an order was given. -/
def first (b : Backend σ) (q : Query) : Session σ (Option Row) := do
  return (← select b q.single).head?

/-- The first row of a table that a filter lets through. -/
def get (b : Backend σ) (table : String) (columns : List String) (filter : Filter) :
    Session σ (Option Row) :=
  first b { table, columns, filter }

/-- How many rows of a table a filter lets through, if the answer reads as a count. -/
def count (b : Backend σ) (table : String) (filter : Filter) : Session σ (Option Nat) := do
  let sql ← built (countSql table filter b.dialect)
  return countOf (← query b sql)

/-- The sum of a column, if the answer reads as a number. -/
def sum (b : Backend σ) (table column : String) (filter : Filter) :
    Session σ (Option Binary64) := do
  let sql ← built (sumSql table column filter b.dialect)
  return ((← query b sql).head?.bind Row.first?).bind Scalar.toFloat?

/-- Whether a table has a row that a filter lets through. -/
def has (b : Backend σ) (table : String) (filter : Filter) : Session σ (Option Bool) := do
  return (← count b table filter).map (0 < ·)

/-- The values of a new row, and its id: the one among the values, or else the fresh one, put in
front. -/
def withId (values : Assignments) (fresh : String) : String × Assignments :=
  match values.get? "id" with
  | some id => (id.display, values)
  | none => (fresh, values.prepend "id" (.text fresh))

/-- Insert a row and give its id. -/
def insert (b : Backend σ) (table : String) (values : Assignments) (fresh : String) :
    Session σ String := do
  let (id, values) := withId values fresh
  let sql ← built (insertSql table values b.dialect)
  let _ ← execute b (.text sql)
  return id

/-- Update the rows that a filter lets through and give their number. -/
def update (b : Backend σ) (table : String) (values : Assignments) (filter : Filter) :
    Session σ Nat := do
  let sql ← built (updateSql table values filter b.dialect)
  execute b (.text sql)

/-- Delete the rows that a filter lets through and give their number. -/
def delete (b : Backend σ) (table : String) (filter : Filter) : Session σ Nat := do
  let sql ← built (deleteSql table filter b.dialect)
  execute b (.text sql)

/-- Empty a table. -/
def truncate (b : Backend σ) (table : String) : Session σ Unit := do
  let sql ← built (truncateSql table b.dialect)
  let _ ← execute b (.text sql)

/-- The names of all tables. -/
def tables (b : Backend σ) : Session σ (List String) := do
  return (← query b b.tablesSql).filterMap fun r => r.first?.map Scalar.display

/-- Whether a table of this name exists. -/
def tableExists (b : Backend σ) (table : String) : Session σ Bool := do
  let table ← built (Identifier.sanitize table)
  return (← tables b).contains table

end SchemaKeeper.Session
