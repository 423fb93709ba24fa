import SchemaKeeper.Change.Ddl
import SchemaKeeper.Session.Fault
import SchemaKeeper.Session.Row

/-!
# Backends

A backend is what an engine offers to a session: its dialect, the statements that list tables and
columns, and four calls. The engine's own state is a parameter, so that one definition covers a
server that answers from a script, a catalogue that carries statements out, and every other engine
whose answers depend on what was sent before.
-/

namespace SchemaKeeper

/-- A statement that is sent to be executed: a text as it is, or a definition statement. -/
inductive Command where
  | text (sql : String)
  | ddl (statement : Ddl)
  deriving DecidableEq, Repr

/-- The text of a command. -/
def Command.sql (d : Dialect) : Command → String
  | .text sql => sql
  | .ddl statement => statement.text d

/-- A call that reaches a backend. -/
inductive Call where
  | connect (config : Config)
  | execute (command : Command)
  | fetch (sql : String)
  | describe (table : String)
  deriving DecidableEq, Repr

/-- What an engine with states `σ` offers. Every call gives an answer and the engine's next
state. -/
structure Backend (σ : Type) where
  dialect : Dialect
  tablesSql : String
  columnsSql : String → String
  connect : Config → σ → Except Failure Unit × σ
  execute : Command → σ → Except Failure Nat × σ
  fetch : String → σ → Except Failure (List Row) × σ
  describe : String → σ → Except Failure (List LiveColumn) × σ

end SchemaKeeper
