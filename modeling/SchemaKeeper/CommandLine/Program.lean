import SchemaKeeper.CommandLine.Arguments
import SchemaKeeper.Json.Writer
import SchemaKeeper.Synchronization

/-!
# The command line program

The program runs one task on one database and prints lines: the changes of a synchronization with a
closing count, the names of tables, or the columns of a table as a listing or as JSON. It reaches
the world through two backends and a way to read files, so that the whole run is a function.
-/

namespace SchemaKeeper

/-- The schema in a file. -/
def Schema.ofFile (content : Except FileFault String) : Except Failure Schema :=
  match content with
  | .error fault => .error (.file fault)
  | .ok text =>
    match Json.parse? text with
    | none => .error .schemaNotJson
    | some v => liftBuild (Schema.ofJson v)

namespace CommandLine

/-- How a run ends: its exit code, what it printed, and the failure that it reports. -/
structure Outcome where
  code : Nat
  lines : List String
  failure : Option Failure
  deriving DecidableEq, Repr

/-- A text with spaces up to a width. -/
def padRight (width : Nat) (s : String) : String :=
  s ++ String.ofList (List.replicate (width - s.length) ' ')

/-- A line of the listing of columns. -/
def listingLine (name type null index default : String) : String :=
  padRight 24 name ++ " " ++ padRight 20 type ++ " " ++ padRight 5 null ++ " " ++ padRight 10 index
    ++ " " ++ default

/-- The word for an index kind in the listing. -/
def indexWord : IndexKind → String
  | .none => ""
  | .nonUnique => "index"
  | .unique => "unique"

/-- A column in the listing. -/
def columnLine (c : LiveColumn) : String :=
  listingLine c.spec.name c.spec.engineType (if c.spec.nullable then "yes" else "no")
    (indexWord c.spec.index) ((c.spec.default.map Scalar.display).getD "-")

/-- The listing of columns. -/
def listing (columns : List LiveColumn) : List String :=
  listingLine "column" "type" "null" "index" "default" :: String.ofList (List.replicate 72 '-')
    :: columns.map columnLine

/-- The lines of a change, with its statements if they are to be shown. -/
def changeLines (d : Dialect) (showSql : Bool) (r : ChangeRecord) : List String :=
  r.describe :: (if showSql then (r.sql d).map fun s => "    " ++ s ++ ";" else [])

/-- The lines of a synchronization. -/
def syncLines (d : Dialect) (dryRun showSql : Bool) (records : List ChangeRecord) : List String :=
  let skipped := (records.filter ChangeRecord.isSkipped).length
  let closing :=
    if records.any ChangeRecord.isApplied then ["schema updated"]
    else if dryRun && records.length > skipped then
      [toString (records.length - skipped) ++ " change(s) planned"]
    else if records.isEmpty then ["schema is up to date"]
    else []
  let rerun := if skipped > 0 then
      [toString skipped ++ " change(s) skipped, rerun with --force to apply"]
    else []
  records.flatMap (changeLines d showSql) ++ closing ++ rerun

/-- A way to read the text of a file. -/
abbrev FileReader := String → Except FileFault String

variable {σ : Type}

/-- Run a task and give the lines to print. -/
def perform (b : Backend σ) (files : FileReader) : Task → Session σ (List String)
  | .sync path force dryRun showSql => do
    let schema ← Session.ofExcept (Schema.ofFile (files path))
    let records ← Session.updateSchema b schema ⟨force, dryRun⟩
    return syncLines b.dialect dryRun showSql records
  | .tables => Session.tables b
  | .describe table json => do
    let columns ← Session.describe b table
    return if json then [(Json.array (columns.map LiveColumn.toJson)).pretty 0] else listing columns

/-- The settings that a command line gives. A database in a file needs nothing but its name. -/
def settings (i : Invocation) : Except ConfigFault Config :=
  match i.engine with
  | .mysql => Config.ofParts i.host i.user i.password i.database
  | .sqlite =>
    match i.database with
    | none => .error (.missing .database)
    | some path => Config.forFile path

/-- Run the program on its arguments. -/
def run (mysql sqlite : Backend σ) (files : FileReader) (env : Environment) (args : List String)
    (engine : σ) : Outcome × σ :=
  match readInvocation env args with
  | .error .information => (⟨0, [], none⟩, engine)
  | .error .usage => (⟨2, [], none⟩, engine)
  | .ok i =>
    match settings i with
    | .error fault => (⟨1, [], some (.ofConfig fault)⟩, engine)
    | .ok config =>
      let b := match i.engine with
        | .mysql => mysql
        | .sqlite => sqlite
      match (perform b files i.task).run (Handle.start (some config) env engine) with
      | (.ok lines, db) => (⟨0, lines, none⟩, db.engine)
      | (.error e, db) => (⟨1, [], some e⟩, db.engine)

end CommandLine

end SchemaKeeper
