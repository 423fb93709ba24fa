import SchemaKeeper.Dialect

/-!
# Command line arguments

The command line has general options, then a command with options of its own. An option's value
follows it as the next argument or is attached: behind `=` for a long name, directly or behind `=`
for a letter. Flags of one letter may share one dash, and `--` ends the options. No option may be
given twice. A value that is an argument of its own is checked when the next argument is read as
part of the same level; one right before a command is checked after what follows the command.
-/

namespace SchemaKeeper.CommandLine

/-- Why no command is run. -/
inductive Stop where
  /-- Help or version information was asked for. -/
  | information
  /-- The arguments are not understood. -/
  | usage
  deriving DecidableEq, Repr

/-- An option of the command line. -/
structure Switch where
  long : String
  short : Option Char := none
  takesValue : Bool := false
  /-- The values that are accepted. -/
  accepts : String → Bool := fun _ => true

/-- What may stand at one level of the command line. -/
structure Level where
  switches : List Switch
  hasVersion : Bool := false
  commands : List String := []
  /-- How many plain arguments there may be. -/
  arguments : Nat := 0

/-- What stood at one level: options with their values, plain arguments, and the command with what
follows it. -/
structure Reading where
  given : List (String × String) := []
  arguments : List String := []
  /-- An option whose value is still to be checked. -/
  pending : Option (Switch × String) := none
  command : Option (String × List String) := none

namespace Reading

/-- An option was given. -/
def has (r : Reading) (long : String) : Bool := (r.given.lookup long).isSome

/-- The value of an option. -/
def value? (r : Reading) (long : String) : Option String := r.given.lookup long

/-- Take an option with its value. -/
def give (r : Reading) (s : Switch) (value : String) : Except Stop Reading :=
  if r.has s.long || !s.accepts value then .error .usage
  else .ok { r with given := r.given ++ [(s.long, value)] }

/-- Check the value that is still to be checked, if there is one. -/
def settle (r : Reading) : Except Stop Reading :=
  match r.pending with
  | none => .ok r
  | some (s, value) => { r with pending := none }.give s value

end Reading

/-- An argument that cannot be the value of the option before it. -/
def isDashed (arg : String) : Bool := arg.toList.head? = some '-' && arg != "-"

/-- Read letters behind one dash: what they give, and the option that still needs a value. -/
def readLetters (level : Level) (r : Reading) : List Char → Except Stop (Reading × Option Switch)
  | [] => .ok (r, none)
  | c :: rest =>
    if c = 'h' || (c = 'V' && level.hasVersion) then .error .information
    else
      match level.switches.find? fun s => s.short = some c with
      | none => .error .usage
      | some s =>
        if s.takesValue then
          match rest with
          | [] => .ok (r, some s)
          | '=' :: value => (r.give s (String.ofList value)).map (·, none)
          | value => (r.give s (String.ofList value)).map (·, none)
        else
          match r.give s "" with
          | .ok r => readLetters level r rest
          | .error e => .error e

/-- Read a long option without its dashes: what it gives, and the option that still needs a
value. -/
def readLong (level : Level) (r : Reading) (text : List Char) :
    Except Stop (Reading × Option Switch) :=
  let name := String.ofList (text.takeWhile (· ≠ '='))
  let attached := text.dropWhile (· ≠ '=')
  if name = "help" || (name = "version" && level.hasVersion) then
    .error (if attached.isEmpty then .information else .usage)
  else
    match level.switches.find? fun s => s.long = name with
    | none => .error .usage
    | some s =>
      match s.takesValue, attached with
      | true, [] => .ok (r, some s)
      | true, _ :: value => (r.give s (String.ofList value)).map (·, none)
      | false, [] => (r.give s "").map (·, none)
      | false, _ :: _ => .error .usage

/-- Read the option that an argument is, if it is one. -/
def readSwitch? (level : Level) (r : Reading) (arg : String) :
    Option (Except Stop (Reading × Option Switch)) :=
  match arg.toList with
  | '-' :: '-' :: text => some (readLong level r text)
  | '-' :: c :: text => some (readLetters level r (c :: text))
  | _ => none

/-- Take plain arguments as far as the level has room for them. -/
def takeArguments (level : Level) (r : Reading) (args : List String) : Except Stop Reading :=
  let arguments := r.arguments ++ args
  if arguments.length ≤ level.arguments then .ok { r with arguments } else .error .usage

/-- Read the arguments of a level up to its command. -/
def readLevel (level : Level) (r : Reading) : List String → Except Stop Reading
  | [] => r.settle
  | arg :: rest =>
    if level.commands.contains arg then .ok { r with command := some (arg, rest) }
    else
      match r.settle with
      | .error e => .error e
      | .ok r =>
        if arg = "--" then takeArguments level r rest
        else
          match readSwitch? level r arg with
          | none =>
            match takeArguments level r [arg] with
            | .ok r => readLevel level r rest
            | .error e => .error e
          | some (.error e) => .error e
          | some (.ok (r, none)) => readLevel level r rest
          | some (.ok (r, some s)) =>
            match rest with
            | [] => .error .usage
            | value :: rest =>
              if isDashed value then .error .usage
              else readLevel level { r with pending := some (s, value) } rest

/-- What the program is asked to do. -/
inductive Task where
  | sync (schema : String) (force dryRun showSql : Bool)
  | tables
  | describe (table : String) (json : Bool)
  deriving DecidableEq, Repr

/-- A command line that is understood. -/
structure Invocation where
  engine : Dialect
  host : Option String
  user : Option String
  password : Option String
  database : Option String
  task : Task
  deriving DecidableEq, Repr

/-- The names of the commands. -/
def commandNames : List String := ["sync", "tables", "describe", "help"]

/-- The general options and the commands. -/
def generalLevel : Level where
  switches :=
    [ { long := "backend", short := some 'b', takesValue := true,
        accepts := fun v => v = "mysql" || v = "sqlite" },
      { long := "host", takesValue := true },
      { long := "user", takesValue := true },
      { long := "password", takesValue := true },
      { long := "database", short := some 'd', takesValue := true },
      { long := "verbose", short := some 'v' } ]
  hasVersion := true
  commands := commandNames

/-- The options of `sync`. -/
def syncLevel : Level where
  switches :=
    [ { long := "schema", short := some 's', takesValue := true, accepts := fun v => v != "" },
      { long := "force", short := some 'f' },
      { long := "dry-run" },
      { long := "show-sql" } ]

/-- The options of `describe` and its table. -/
def describeLevel : Level where
  switches := [{ long := "json" }]
  arguments := 1

/-- The task of a command and its arguments. -/
def readTask (command : String) (args : List String) : Except Stop Task :=
  if command = "sync" then do
    let r ← readLevel syncLevel {} args
    match r.value? "schema" with
    | some schema => .ok (.sync schema (r.has "force") (r.has "dry-run") (r.has "show-sql"))
    | none => .error .usage
  else if command = "tables" then do
    let _ ← readLevel { switches := [] } {} args
    .ok .tables
  else if command = "describe" then do
    let r ← readLevel describeLevel {} args
    match r.arguments with
    | [table] => .ok (.describe table (r.has "json"))
    | _ => .error .usage
  else if args.length ≤ 1 && args.all commandNames.contains then .error .information
  else .error .usage

/-- The command line that arguments and environment make. A general option that is not given takes
its value from the environment. -/
def readInvocation (env : List (String × String)) (args : List String) :
    Except Stop Invocation := do
  let r ← readLevel generalLevel {} args
  match r.command with
  | none => .error .usage
  | some (command, rest) =>
    let task ← readTask command rest
    let r ← r.settle
    let option (long name : String) : Option String := (r.value? long).or (env.lookup name)
    return {
      engine := if r.value? "backend" = some "sqlite" then .sqlite else .mysql
      host := option "host" "DB_HOST"
      user := option "user" "DB_USER"
      password := option "password" "DB_PASS"
      database := option "database" "DB_NAME"
      task }

end SchemaKeeper.CommandLine
