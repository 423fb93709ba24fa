import SchemaKeeper.CommandLine.Program
import SchemaKeeper.Engine.CatalogueFile

/-!
# The executable

Gathers the arguments, the environment and the files that a run may need, runs the program, prints
its lines and puts the database file back.
-/

namespace SchemaKeeper.CommandLine

/-- The variables that the program looks at, with their values. -/
def gatherEnvironment : IO Environment := do
  let parts := [ConfigPart.host, .user, .password, .database]
  let found ← parts.mapM fun p => do
    return (← IO.getEnv p.envName).map fun v => (p.envName, v)
  return found.filterMap id

/-- The text of a file. -/
def gatherFile (path : String) : IO (Except FileFault String) := do
  try
    let bytes ← IO.FS.readBinFile path
    match Text.decode? (bytes.toList.map UInt8.toNat) with
    | some text => return .ok text
    | none => return .error .notUtf8
  catch _ => return .error .notFound

/-- The files that an invocation names: the schema and the database. -/
def filesOf (i : Invocation) : List String × List String :=
  let schema := match i.task with
    | .sync path .. => [path]
    | _ => []
  let database := match i.engine with
    | .sqlite => i.database.toList.filter (· ≠ Disk.memoryName)
    | .mysql => []
  (schema, database)

/-- The disk with the database files that exist. -/
def gatherDisk (paths : List String) : IO Disk := do
  let files ← paths.filterMapM fun path => do
    match ← gatherFile path with
    | .ok text => return (CatalogueFile.read? text).map fun c => (path, c)
    | .error _ => return none
  return { files }

/-- Run the program in the world outside. -/
def runIn (args : List String) : IO UInt32 := do
  let env ← gatherEnvironment
  let (schemas, databases) := match readInvocation env args with
    | .ok i => filesOf i
    | .error _ => ([], [])
  let contents ← schemas.mapM fun path => return (path, ← gatherFile path)
  let files (path : String) : Except FileFault String :=
    (contents.lookup path).getD (.error .notFound)
  let (outcome, disk) := run Disk.unreachable Disk.backend files env args (← gatherDisk databases)
  outcome.lines.forM fun line => IO.println line
  disk.files.forM fun (path, catalogue) => IO.FS.writeFile path (CatalogueFile.write catalogue)
  outcome.failure.toList.forM fun failure => IO.eprintln ("Error: " ++ failure.message)
  return outcome.code.toUInt32

end SchemaKeeper.CommandLine

/-- The program. -/
def main (args : List String) : IO UInt32 := SchemaKeeper.CommandLine.runIn args
