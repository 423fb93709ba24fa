import SchemaKeeper.Session.Backend

/-!
# The database handle

A handle holds at most one connection, opens it on first use, and lets go of it after a failure that
leaves it unusable. Settings come from the environment at the first successful look and stay the
same from then on. The handle remembers the last statement, its error, and the last total. A journal
keeps what happened to the handle, so that its state can be compared with its history.
-/

namespace SchemaKeeper

/-- What a call of the engine brought back. -/
inductive Reply where
  | done
  | affected (count : Nat)
  | rows (rows : List Row)
  | columns (columns : List LiveColumn)
  | failed (failure : Failure)
  deriving DecidableEq, Repr

/-- The reply that a result stands for, given the one for a value. -/
def Reply.ofResult {α : Type} (reply : α → Reply) : Except Failure α → Reply
  | .ok a => reply a
  | .error e => .failed e

/-- Something that happened to a handle. -/
inductive Event where
  /-- A call reached the engine, which replied. -/
  | called (call : Call) (reply : Reply)
  /-- A statement was attempted, whether or not it reached the engine. -/
  | attempted (sql : String) (failure : Option Failure)
  /-- A change to a table was carried out, planned or skipped. -/
  | recorded (record : ChangeRecord)
  /-- The connection was let go on request. -/
  | released
  deriving DecidableEq, Repr

/-- The call that an event is. -/
def Event.call? : Event → Option Call
  | .called call _ => some call
  | _ => none

/-- A handle together with what surrounds it: the environment, the engine, and what has happened so
far. -/
structure Handle (σ : Type) where
  /-- The settings, once they are known. -/
  settings : Option Config
  connected : Bool
  lastQuery : Option String
  lastError : Option String
  lastTotal : Option Nat
  environment : Environment
  engine : σ
  journal : List Event

/-- An operation on a handle. What it did to the handle stays when it fails. -/
abbrev Session (σ : Type) := ExceptT Failure (StateM (Handle σ))

namespace Handle

variable {σ : Type}

/-- A fresh handle; without settings it will look into the environment. -/
def start (settings : Option Config) (environment : Environment) (engine : σ) : Handle σ :=
  ⟨settings, false, none, none, none, environment, engine, []⟩

/-- Put an event at the end of the journal. -/
def log (db : Handle σ) (e : Event) : Handle σ := { db with journal := db.journal ++ [e] }

/-- The calls that reached the engine. -/
def calls (db : Handle σ) : List Call := db.journal.filterMap Event.call?

/-- Remember the statement that is about to be sent and forget the last error. -/
def announce (db : Handle σ) (sql : String) : Handle σ :=
  { db with lastQuery := some sql, lastError := none }

/-- Remember a failure, and let go of the connection if it is of no use any more. -/
def settle (db : Handle σ) (e : Failure) : Handle σ :=
  { db with lastError := some e.diagnosis, connected := db.connected && !e.isConnectivity }

end Handle

namespace Session

variable {σ α : Type}

/-- Run an operation on a handle. -/
def run (op : Session σ α) (db : Handle σ) : Except Failure α × Handle σ := op db

/-- A result that needs no handle. -/
def ofExcept (r : Except Failure α) : Session σ α := fun db => (r, db)

/-- A result of building. -/
def built (r : Except BuildError α) : Session σ α := ofExcept (liftBuild r)

/-- Put a record of a change into the journal. -/
def note (record : ChangeRecord) : Session σ Unit := modify fun db => db.log (.recorded record)

/-- A call of the engine. -/
def call (c : Call) (reply : α → Reply) (answer : σ → Except Failure α × σ) : Session σ α :=
  fun db =>
    let (r, engine) := answer db.engine
    (r, { db with engine }.log (.called c (Reply.ofResult reply r)))

/-- The settings, read from the environment if they are not known yet. -/
def resolve : Session σ Config := fun db =>
  match db.settings with
  | some c => (.ok c, db)
  | none =>
    match Config.ofEnvironment db.environment with
    | .ok c => (.ok c, { db with settings := some c })
    | .error fault => (.error (.ofConfig fault), db)

/-- Open the connection. -/
def openConnection (b : Backend σ) : Session σ Unit := do
  let config ← resolve
  call (.connect config) (fun _ => .done) (b.connect config)
  modify fun db => { db with connected := true }

/-- Open the connection unless it is open. -/
def connect (b : Backend σ) : Session σ Unit := fun db =>
  if db.connected then (.ok (), db) else (openConnection b).run db

/-- Let go of the connection. -/
def disconnect : Session σ Unit := modify fun db => { db with connected := false }.log .released

/-- Do something under a statement's name and remember how it ended. -/
def attempt (sql : String) (op : Session σ α) : Session σ α := fun db =>
  match op (db.announce sql) with
  | (.ok a, db) => (.ok a, db.log (.attempted sql none))
  | (.error e, db) => (.error e, (db.settle e).log (.attempted sql (some e)))

/-- Fetch the rows of a statement. -/
def query (b : Backend σ) (sql : String) : Session σ (List Row) :=
  attempt sql do
    connect b
    call (.fetch sql) .rows (b.fetch sql)

/-- Execute a command and give the number of rows it changed. -/
def execute (b : Backend σ) (command : Command) : Session σ Nat :=
  attempt (command.sql b.dialect) do
    connect b
    call (.execute command) .affected (b.execute command)

/-- The columns of a table as the engine reports them. -/
def describe (b : Backend σ) (table : String) : Session σ (List LiveColumn) := do
  let table ← built (Identifier.sanitize table)
  attempt (b.columnsSql table) do
    connect b
    call (.describe table) .columns (b.describe table)

/-- The columns of a table without the reserved ones. -/
def userColumns (b : Backend σ) (table : String) : Session σ (List LiveColumn) := do
  let columns ← describe b table
  return columns.filter fun c => !Identifier.isReserved c.name

/-- Set a variable of the environment, or unset it. -/
def setVariable (name : String) (value : Option String) : Session σ Unit := modify fun db =>
  let others := db.environment.filter fun e => e.1 ≠ name
  { db with environment := (value.map fun v => (name, v)).toList ++ others }

end Session

end SchemaKeeper
