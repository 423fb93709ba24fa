import SchemaKeeper.Fault
import SchemaKeeper.Session.Config

/-!
# Why an operation on a database fails

An operation fails because its settings are incomplete, because the engine reported a fault on
connecting, on selecting the database or on a statement, because nothing could be built to send, or
because a schema file could not be read.
-/

namespace SchemaKeeper

/-- The code that an engine gives with an error. -/
inductive ErrorCode where
  /-- A server's error number and five-character state. -/
  | server (number : Nat) (state : String)
  /-- The result code of a database in a file. -/
  | result (code : Nat)
  deriving DecidableEq, Repr

/-- A code in front of a message. -/
def ErrorCode.describe : ErrorCode → String
  | .server number state => toString number ++ " (" ++ state ++ "): "
  | .result code => "(code: " ++ toString code ++ ") "

/-- A fault that the engine, or the way to it, reports. -/
inductive EngineFault where
  | database (code : Option ErrorCode) (message : String)
  | io (detail : String)
  | tls (detail : String)
  | protocol (detail : String)
  | poolClosed
  | poolTimedOut
  | workerCrashed
  | rowNotFound
  | configuration (detail : String)
  | decode (detail : String)
  deriving DecidableEq, Repr

namespace EngineFault

/-- A fault in words. -/
def describe : EngineFault → String
  | .database none m => "error returned from database: " ++ m
  | .database (some c) m => "error returned from database: " ++ c.describe ++ m
  | .io m => "error communicating with database: " ++ m
  | .tls m => "error occurred while attempting to establish a TLS connection: " ++ m
  | .protocol m => "encountered unexpected or invalid data: " ++ m
  | .poolClosed => "attempted to acquire a connection on a closed pool"
  | .poolTimedOut => "pool timed out while waiting for an open connection"
  | .workerCrashed => "attempted to communicate with a crashed background worker"
  | .rowNotFound => "no rows returned by a query that expected to return at least one row"
  | .configuration m => "error with configuration: " ++ m
  | .decode m => "error occurred while decoding: " ++ m

/-- The message of a statement that fails this way: what the engine itself says, or else the fault
in words. -/
def statementMessage : EngineFault → String
  | .database _ m => m
  | f => f.describe

/-- A fault after which the connection is of no use. -/
def losesConnection : EngineFault → Bool
  | .io _ | .tls _ | .protocol _ | .poolClosed | .poolTimedOut | .workerCrashed => true
  | _ => false

end EngineFault

/-- Why a file could not be read. -/
inductive FileFault where
  | notFound
  | notUtf8
  deriving DecidableEq, Repr

/-- A file fault in words. -/
def FileFault.describe : FileFault → String
  | .notFound => "No such file or directory (os error 2)"
  | .notUtf8 => "stream did not contain valid UTF-8"

/-- Why an operation failed. -/
inductive Failure where
  | missingVariable (name : String)
  | configuration (detail : String)
  | connect (source : EngineFault)
  | selectDatabase (database : String) (source : EngineFault)
  | statement (sql message : String) (source : EngineFault)
  | build (error : BuildError)
  | file (fault : FileFault)
  | schemaNotJson
  deriving DecidableEq, Repr

namespace Failure

/-- The failure of a statement with an engine fault. -/
def ofStatement (sql : String) (source : EngineFault) : Failure :=
  .statement sql source.statementMessage source

/-- The failure of unusable settings. -/
def ofConfig : ConfigFault → Failure
  | .missing part => .missingVariable part.envName
  | .blankDatabase => .configuration "database name is empty"

/-- A failure in words. -/
def message : Failure → String
  | .missingVariable name => "missing environment variable " ++ name
  | .configuration detail => "invalid configuration: " ++ detail
  | .connect source => "could not connect: " ++ source.describe
  | .selectDatabase database source =>
    "could not select database '" ++ database ++ "': " ++ source.describe
  | .statement sql message _ => message ++ " (sql: " ++ sql ++ ")"
  | .build error => error.message
  | .file fault => "IO error: " ++ fault.describe
  | .schemaNotJson => "invalid schema file"

/-- The failure leaves no usable connection. -/
def isConnectivity : Failure → Bool
  | .connect _ | .selectDatabase .. => true
  | .statement _ _ source => source.losesConnection
  | _ => false

/-- The statement that failed. -/
def sql? : Failure → Option String
  | .statement sql _ _ => some sql
  | _ => none

/-- What is kept as the last error: the message of a statement without its text, or else the whole
wording. -/
def diagnosis : Failure → String
  | .statement _ message _ => message
  | f => f.message

end Failure

/-- A result of building as a result of an operation. -/
def liftBuild {α : Type} : Except BuildError α → Except Failure α
  | .ok a => .ok a
  | .error e => .error (.build e)

end SchemaKeeper
