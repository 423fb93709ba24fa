import SchemaKeeper.Text.Blank
import SchemaKeeper.Text.Printable

/-!
# Connection settings

Settings come from four parts, each of which the environment can supply: a host with an optional
socket behind a colon, a user, a password and a database. The database is the one part that must
never be blank.
-/

namespace SchemaKeeper

/-- The settings of a connection. -/
structure Config where
  host : String
  socket : Option String
  user : String
  password : String
  database : String
  deriving DecidableEq, Repr

/-- The parts of the settings as the environment names them. -/
inductive ConfigPart where
  | host
  | user
  | password
  | database
  deriving DecidableEq, Repr

/-- The environment variable of a part. -/
def ConfigPart.envName : ConfigPart → String
  | .host => "DB_HOST"
  | .user => "DB_USER"
  | .password => "DB_PASS"
  | .database => "DB_NAME"

/-- What is wrong with some settings. -/
inductive ConfigFault where
  | missing (part : ConfigPart)
  | blankDatabase
  deriving DecidableEq, Repr

/-- Environment variables with their values. -/
abbrev Environment := List (String × String)

namespace Config

/-- Settings from their parts; the host is cut at its first colon. -/
def make (host user password database : String) : Except ConfigFault Config :=
  if Text.allBlank database then .error .blankDatabase
  else
    let chars := host.toList
    let behind := chars.dropWhile (· ≠ ':')
    let socket := Text.trimChars (behind.drop 1)
    .ok {
      host := String.ofList (Text.trimChars (chars.takeWhile (· ≠ ':')))
      socket := if socket.isEmpty then none else some (String.ofList socket)
      user, password, database }

/-- Settings for a database in a file. -/
def forFile (path : String) : Except ConfigFault Config := make "localhost" "" "" path

/-- A part that must be there and not be blank. -/
def require (part : ConfigPart) : Option String → Except ConfigFault String
  | some v => if Text.allBlank v then .error (.missing part) else .ok v
  | none => .error (.missing part)

/-- Settings from parts that may be missing; the first missing one is reported. -/
def ofParts (host user password database : Option String) : Except ConfigFault Config := do
  let host ← require .host host
  let user ← require .user user
  let password ← require .password password
  let database ← require .database database
  make host user password database

/-- Settings from an environment. -/
def ofEnvironment (env : Environment) : Except ConfigFault Config :=
  ofParts (env.lookup ConfigPart.host.envName) (env.lookup ConfigPart.user.envName)
    (env.lookup ConfigPart.password.envName) (env.lookup ConfigPart.database.envName)

/-- A character between the quotes of a dump: quotes, backslashes, and characters without a mark are
escaped. -/
def dumpChar (c : Char) : List Char :=
  if c = '"' then ['\\', '"']
  else if c = '\\' then ['\\', '\\']
  else if c = '\t' then ['\\', 't']
  else if c = '\n' then ['\\', 'n']
  else if c = '\x0d' then ['\\', 'r']
  else if c = '\x00' then ['\\', '0']
  else if Text.isPrintable c then [c]
  else '\\' :: 'u' :: '\x7b' :: Nat.toDigits 16 c.toNat ++ ['\x7d']

/-- A text between quotes in a dump. -/
def dumpText (s : String) : String := String.ofList ('"' :: s.toList.flatMap dumpChar ++ ['"'])

/-- The settings in one line for diagnostics, with the password hidden. -/
def dump (c : Config) : String :=
  let socket := match c.socket with
    | none => "None"
    | some s => "Some(" ++ dumpText s ++ ")"
  "DbConfig \x7b host: " ++ dumpText c.host ++ ", socket: " ++ socket ++ ", user: "
    ++ dumpText c.user ++ ", password: \"***\", database: " ++ dumpText c.database ++ " \x7d"

end Config

end SchemaKeeper
