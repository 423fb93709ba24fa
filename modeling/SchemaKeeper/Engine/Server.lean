import SchemaKeeper.Engine.ShowRows
import SchemaKeeper.Text.Utf8

/-!
# MySQL servers

A connection to a server logs in and then selects the database. Results come as bytes with the name
of each column's type; whole numbers and decimals are read as numbers where the text allows it, and
everything else stays text.
-/

namespace SchemaKeeper

/-- What a server answers to a statement: how many rows it changed, or a result with named and typed
columns and cells of bytes. -/
inductive ServerAnswer where
  | done (affected : Nat)
  | result (columns : List (String × String)) (rows : List (List (Option (List Nat))))
  deriving DecidableEq, Repr

/-- A server with states `σ`. -/
structure Server (σ : Type) where
  login : Config → σ → Except EngineFault Unit × σ
  use : String → σ → Except EngineFault Unit × σ
  query : String → σ → Except EngineFault ServerAnswer × σ

namespace Server

/-- A cell's text as a value of its column's type. -/
def typedScalar (typeName text : String) : Scalar :=
  let type := Text.asciiUpper typeName
  let mentions (word : String) : Bool := Text.contains word.toList type.toList
  let chars := Text.trimChars text.toList
  if mentions "INT" || type == "BOOLEAN" || type == "YEAR" then
    match (Number.readInt? chars).bind int64? with
    | some i => .int i
    | none => .text text
  else if mentions "FLOAT" || mentions "DOUBLE" || mentions "DECIMAL" then
    match Number.readBinary64? chars with
    | some x => .float x
    | none => .text text
  else .text text

/-- The types whose values may be zero dates. -/
def dateTypes : List String := ["DATE", "DATETIME", "TIMESTAMP"]

/-- Bytes that stand for the zero date, which is no date. -/
def isZeroDate (typeName : String) (bytes : List Nat) : Bool :=
  dateTypes.contains typeName && bytes.head? == some 0

/-- A cell as a value; a zero date is NULL. -/
def cellValue (typeName : String) (cell : Option (List Nat)) : Option Scalar :=
  match cell with
  | none => none
  | some bytes =>
    if isZeroDate typeName bytes then none
    else some (typedScalar typeName (Text.decodeLossy bytes))

/-- A row of a result. -/
def rowOf (columns : List (String × String)) (cells : List (Option (List Nat))) : Row :=
  ⟨columns.zipWith (fun (name, type) cell => (name, cellValue type cell)) cells⟩

/-- How many rows an answer says were changed. -/
def ServerAnswer.affected : ServerAnswer → Nat
  | .done n => n
  | .result .. => 0

/-- The rows of an answer. -/
def ServerAnswer.rows : ServerAnswer → List Row
  | .done _ => []
  | .result columns rows => rows.map (rowOf columns)

variable {σ : Type}

/-- Send a statement, with its fault made the statement's failure. -/
def send (s : Server σ) (sql : String) (state : σ) : Except Failure ServerAnswer × σ :=
  match s.query sql state with
  | (.ok a, state) => (.ok a, state)
  | (.error f, state) => (.error (.ofStatement sql f), state)

/-- The rows of a statement. -/
def fetch (s : Server σ) (sql : String) (state : σ) : Except Failure (List Row) × σ :=
  let (r, state) := s.send sql state
  (r.map ServerAnswer.rows, state)

/-- The statement that selects a database. -/
def useSql (name : String) : String := "USE `" ++ name ++ "`"

/-- Log in and select the database. -/
def connect (s : Server σ) (config : Config) (state : σ) : Except Failure Unit × σ :=
  match s.login config state with
  | (.error f, state) => (.error (.connect f), state)
  | (.ok (), state) =>
    match Identifier.sanitize config.database with
    | .error e => (.error (.build e), state)
    | .ok name =>
      match s.use (useSql name) state with
      | (.error f, state) => (.error (.selectDatabase config.database f), state)
      | (.ok (), state) => (.ok (), state)

/-- The statement that describes a table's columns. -/
def columnsSql (table : String) : String := "SHOW COLUMNS FROM " ++ table

/-- The statement that describes a table's indexes. -/
def indexesSql (table : String) : String := "SHOW INDEX FROM " ++ table

/-- The columns of a table. -/
def describe (s : Server σ) (table : String) (state : σ) : Except Failure (List LiveColumn) × σ :=
  match s.fetch (columnsSql table) state with
  | (.error e, state) => (.error e, state)
  | (.ok columns, state) =>
    match s.fetch (indexesSql table) state with
    | (.error e, state) => (.error e, state)
    | (.ok indexes, state) => (.ok (ShowRows.liveColumns columns indexes), state)

/-- The backend of a server. -/
def backend (s : Server σ) : Backend σ where
  dialect := .mysql
  tablesSql := "SHOW TABLES"
  columnsSql := columnsSql
  connect := s.connect
  execute command state :=
    let (r, state) := s.send (command.sql .mysql) state
    (r.map ServerAnswer.affected, state)
  fetch := s.fetch
  describe := s.describe

end Server

/-- A message that reaches a server. -/
inductive ServerMessage where
  | login (user : String)
  | use (sql : String)
  | query (sql : String)
  deriving DecidableEq, Repr

/-- A server that answers from queues and remembers what reached it. -/
structure ScriptedServer where
  logins : List (Except EngineFault ServerAnswer) := []
  uses : List (Except EngineFault ServerAnswer) := []
  queries : List (Except EngineFault ServerAnswer) := []
  received : List ServerMessage := []

namespace ScriptedServer

/-- The first answer of a queue, and the rest; an empty queue answers that nothing was changed. -/
def take : List (Except EngineFault ServerAnswer) →
    Except EngineFault ServerAnswer × List (Except EngineFault ServerAnswer)
  | [] => (.ok (.done 0), [])
  | a :: rest => (a, rest)

/-- The server that answers from a script. -/
def server : Server ScriptedServer where
  login config s :=
    let (r, rest) := take s.logins
    (r.map fun _ => (), { s with logins := rest, received := s.received ++ [.login config.user] })
  use sql s :=
    let (r, rest) := take s.uses
    (r.map fun _ => (), { s with uses := rest, received := s.received ++ [.use sql] })
  query sql s :=
    let (r, rest) := take s.queries
    (r, { s with queries := rest, received := s.received ++ [.query sql] })

/-- The fault of a statement that the server refuses. -/
def refusal (message : String) : EngineFault := .database (some (.server 1064 "42000")) message

/-- The fault of a connection that the server closes. -/
def closed : EngineFault := .io "expected to read 4 bytes, got 0 bytes at EOF"

end ScriptedServer

end SchemaKeeper
