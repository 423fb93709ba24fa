import SchemaKeeper.Synchronization

/-!
# Operations on a handle

Everything that can be asked of a database handle, as one type of requests with one type of results.
A history of a handle is a list of operations, each run on what the ones before it left.
-/

namespace SchemaKeeper

/-- A request to a database handle, or a change of the environment around it. -/
inductive Operation where
  | setVariables (changes : List (String × Option String))
  | connect
  | disconnect
  | query (sql : String)
  | execute (command : Command)
  | select (query : Query)
  | first (query : Query)
  | get (table : String) (columns : List String) (filter : Filter)
  | count (table : String) (filter : Filter)
  | sum (table column : String) (filter : Filter)
  | has (table : String) (filter : Filter)
  /-- An insertion, with the id that a row without one is to get. -/
  | insert (table : String) (values : Assignments) (fresh : String)
  | update (table : String) (values : Assignments) (filter : Filter)
  | delete (table : String) (filter : Filter)
  | truncate (table : String)
  | tables
  | tableExists (table : String)
  | describe (table : String)
  | userColumns (table : String)
  | updateSchema (schema : Schema) (options : SyncOptions)

/-- What an operation gives. -/
inductive Operation.Result where
  | done
  | rows (rows : List Row)
  | row (row : Option Row)
  | affected (count : Nat)
  | count (count : Option Nat)
  | sum (sum : Option Binary64)
  | answer (answer : Option Bool)
  | id (id : String)
  | names (names : List String)
  | columns (columns : List LiveColumn)
  | changes (records : List ChangeRecord)
  deriving DecidableEq, Repr

namespace Operation

variable {σ : Type}

/-- Carry changes of variables out one after another. -/
def setAll : List (String × Option String) → Session σ Unit
  | [] => return
  | (name, value) :: rest => do
    Session.setVariable name value
    setAll rest

/-- Carry an operation out. -/
def run (b : Backend σ) : Operation → Session σ Result
  | .setVariables changes => (fun _ => .done) <$> setAll changes
  | .connect => (fun _ => .done) <$> Session.connect b
  | .disconnect => (fun _ => .done) <$> Session.disconnect
  | .query sql => .rows <$> Session.query b sql
  | .execute command => .affected <$> Session.execute b command
  | .select q => .rows <$> Session.select b q
  | .first q => .row <$> Session.first b q
  | .get table columns filter => .row <$> Session.get b table columns filter
  | .count table filter => .count <$> Session.count b table filter
  | .sum table column filter => .sum <$> Session.sum b table column filter
  | .has table filter => .answer <$> Session.has b table filter
  | .insert table values fresh => .id <$> Session.insert b table values fresh
  | .update table values filter => .affected <$> Session.update b table values filter
  | .delete table filter => .affected <$> Session.delete b table filter
  | .truncate table => (fun _ => .done) <$> Session.truncate b table
  | .tables => .names <$> Session.tables b
  | .tableExists table => (fun found => .answer (some found)) <$> Session.tableExists b table
  | .describe table => .columns <$> Session.describe b table
  | .userColumns table => .columns <$> Session.userColumns b table
  | .updateSchema schema options => .changes <$> Session.updateSchema b schema options

/-- Carry operations out one after another, whether they succeed or fail. -/
def runAll (b : Backend σ) (db : Handle σ) : List Operation → Handle σ
  | [] => db
  | op :: rest => runAll b ((op.run b).run db).2 rest

end Operation

end SchemaKeeper
