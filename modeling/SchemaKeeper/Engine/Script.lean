import SchemaKeeper.Session.Backend

/-!
# Scripted answers

A backend that answers from queues, one for each kind of call. A call takes the first answer left in
its queue; with none left it succeeds and brings nothing. Since the queues may hold anything, this
backend shows the behaviour of a session under all answers.
-/

namespace SchemaKeeper

/-- A failure in a script. The statement or database it is about is that of the call. -/
inductive ScriptedFailure where
  | statement (message : String) (source : EngineFault)
  | connect (source : EngineFault)
  | selectDatabase (source : EngineFault)
  | configuration (message : String)
  deriving DecidableEq, Repr

/-- The failure of a call that is about the given statement or database. -/
def ScriptedFailure.about (subject : String) : ScriptedFailure → Failure
  | .statement message source => .statement subject message source
  | .connect source => .connect source
  | .selectDatabase source => .selectDatabase subject source
  | .configuration message => .configuration message

/-- The answers that are left. -/
structure Script where
  connects : List (Except ScriptedFailure Unit) := []
  executes : List (Except ScriptedFailure Nat) := []
  fetches : List (Except ScriptedFailure (List Row)) := []
  describes : List (Except ScriptedFailure (List LiveColumn)) := []

namespace Script

/-- The first answer of a queue, or the fallback of an empty one, and the rest. -/
def take {α : Type} (subject : String) (fallback : α) :
    List (Except ScriptedFailure α) → Except Failure α × List (Except ScriptedFailure α)
  | [] => (.ok fallback, [])
  | .ok a :: rest => (.ok a, rest)
  | .error f :: rest => (.error (f.about subject), rest)

/-- The statement under which a table's columns are described. -/
def columnsSql (table : String) : String := "LIST COLUMNS OF " ++ table

/-- The backend of a dialect that answers from a script. -/
def backend (d : Dialect) : Backend Script where
  dialect := d
  tablesSql := "LIST TABLES"
  columnsSql := columnsSql
  connect config s :=
    let (r, rest) := take config.database () s.connects
    (r, { s with connects := rest })
  execute command s :=
    let (r, rest) := take (command.sql d) 0 s.executes
    (r, { s with executes := rest })
  fetch sql s :=
    let (r, rest) := take sql [] s.fetches
    (r, { s with fetches := rest })
  describe table s :=
    let (r, rest) := take (columnsSql table) [] s.describes
    (r, { s with describes := rest })

end Script

end SchemaKeeper
