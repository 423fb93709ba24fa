import SchemaKeeper.Assignments
import SchemaKeeper.Filter.Tree
import SchemaKeeper.Query.Clause
import SchemaKeeper.Query.SelectList

/-!
# Row statements

Whole statements that read and change rows. Names are cleaned, values are written as literals, and
the text is complete: nothing is bound later. Where several parts of a statement are at fault, the
first one in the order of evaluation is reported.
-/

namespace SchemaKeeper

/-- A query. A missing order is the default order by `id`, an empty one leaves rows unordered. -/
structure Query where
  table : String
  columns : List String := []
  joins : List Join := []
  filter : Filter := {}
  groupBy : List String := []
  orderBy : Option (List (String × Direction)) := none
  limit : Option Limit := none

namespace Query

/-- Newest first: descending by `id`, qualified once joined tables may carry an `id` too. -/
def defaultOrder (q : Query) : List (String × Direction) :=
  [(if q.joins.isEmpty then "id" else q.table ++ ".id", .desc)]

/-- The rows a query ranges over: its table, joins and filter. -/
def source (q : Query) (d : Dialect) : Except BuildError String := do
  let table ← Identifier.sanitize q.table
  let joins ← joinClause q.joins
  let filter ← q.filter.whereClause d
  return table ++ joins ++ filter

/-- The `SELECT` statement. -/
def selectSql (q : Query) (d : Dialect) : Except BuildError String := do
  let table ← Identifier.sanitize q.table
  let order ← orderClause (q.orderBy.getD q.defaultOrder)
  let columns ← selectList q.columns
  let joins ← joinClause q.joins
  let filter ← q.filter.whereClause d
  let group ← groupClause q.groupBy
  return "SELECT " ++ columns ++ " FROM " ++ table ++ joins ++ filter ++ group ++ order
    ++ Limit.clause q.limit

/-- The statement that counts the rows of a query's source. -/
def countSql (q : Query) (d : Dialect) : Except BuildError String := do
  return "SELECT COUNT(*) AS total FROM " ++ (← q.source d)

/-- The query for one row: unordered unless an order was given. -/
def single (q : Query) : Query :=
  { q with orderBy := some (q.orderBy.getD []), limit := some (.count 1) }

end Query

/-- The statement that counts the rows of a table. -/
def countSql (table : String) (filter : Filter) (d : Dialect) : Except BuildError String :=
  Query.countSql { table, filter } d

/-- The statement that sums a column of a table. -/
def sumSql (table column : String) (filter : Filter) (d : Dialect) : Except BuildError String := do
  let column ← Identifier.sanitize column
  let table ← Identifier.sanitize table
  return "SELECT SUM(" ++ column ++ ") AS total FROM " ++ table ++ (← filter.whereClause d)

/-- The parts of an `INSERT` statement: the table, and the columns with their literals. -/
structure Insertion where
  table : String
  columns : List String
  literals : List String
  deriving DecidableEq, Repr

/-- The insertion of some column values, of which there must be one. -/
def Insertion.ofAssignments (table : String) (values : Assignments) (d : Dialect) :
    Except BuildError Insertion :=
  if values.isEmpty then .error (.valueShape .nothingToInsert)
  else do
    let columns ← values.entries.mapM fun e => Identifier.sanitize e.1
    let table ← Identifier.sanitize table
    return ⟨table, columns, values.entries.map fun e => d.literal e.2⟩

/-- The text of an insertion. -/
def Insertion.text (i : Insertion) : String :=
  "INSERT INTO " ++ i.table ++ " (" ++ ", ".intercalate i.columns ++ ") VALUES ("
    ++ ", ".intercalate i.literals ++ ")"

/-- The `INSERT` statement. -/
def insertSql (table : String) (values : Assignments) (d : Dialect) : Except BuildError String := do
  return (← Insertion.ofAssignments table values d).text

/-- One assignment of an update. -/
def assignmentText (d : Dialect) (column : String) (value : Scalar) : Except BuildError String := do
  return (← Identifier.sanitize column) ++ " = " ++ d.literal value

/-- The `UPDATE` statement, which must assign something. -/
def updateSql (table : String) (values : Assignments) (filter : Filter) (d : Dialect) :
    Except BuildError String :=
  if values.isEmpty then .error (.valueShape .nothingToUpdate)
  else do
    let assignments ← values.entries.mapM fun e => assignmentText d e.1 e.2
    let table ← Identifier.sanitize table
    return "UPDATE " ++ table ++ " SET " ++ ", ".intercalate assignments
      ++ (← filter.whereClause d)

/-- The `DELETE` statement. -/
def deleteSql (table : String) (filter : Filter) (d : Dialect) : Except BuildError String := do
  let table ← Identifier.sanitize table
  return "DELETE FROM " ++ table ++ (← filter.whereClause d)

/-- The statement that empties a table of this very name. -/
def Dialect.truncateText (d : Dialect) (table : String) : String :=
  match d with
  | .mysql => "TRUNCATE TABLE " ++ table
  | .sqlite => "DELETE FROM " ++ table

/-- The statement that empties a table. -/
def truncateSql (table : String) (d : Dialect) : Except BuildError String := do
  return d.truncateText (← Identifier.sanitize table)

end SchemaKeeper
