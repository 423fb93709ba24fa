import SchemaKeeper.Schema.Declaration
import SchemaKeeper.Session.Rows

/-!
# Schema synchronization

Each declared table is brought to its declared state: created if it is missing, freed of columns
that are not declared, and given its declared columns one by one, each with its definition and then
its index. Destructive changes need force; without it they are recorded as skipped. A dry run
records what would be done and sends no statement.
-/

namespace SchemaKeeper

/-- How a synchronization goes about its work. -/
structure SyncOptions where
  force : Bool
  dryRun : Bool
  deriving DecidableEq, Repr

namespace Synchronization

variable {σ : Type}

/-- Send statements one after another. -/
def executeAll (b : Backend σ) : List Ddl → Session σ Unit
  | [] => return
  | s :: rest => do
    let _ ← Session.execute b (.ddl s)
    executeAll b rest

/-- What becomes of a change that is not skipped for an index that stays. -/
def outcomeOf (options : SyncOptions) (change : Change) : Outcome :=
  if change.isDestructive && !options.force then .skipped .destructive
  else if options.dryRun then .planned
  else .applied

/-- Carry a change out, plan it or skip it, as the options say, and record it. -/
def apply (b : Backend σ) (options : SyncOptions) (change : Change) : Session σ ChangeRecord := do
  let record := ChangeRecord.of b.dialect change (outcomeOf options change)
  executeAll b record.executed
  Session.note record
  return record

/-- Skip a change for a reason of its own and record it. -/
def skip (b : Backend σ) (reason : SkipReason) (change : Change) : Session σ ChangeRecord := do
  let record := ChangeRecord.of b.dialect change (.skipped reason)
  Session.note record
  return record

/-- The columns of a table and the records of the changes to it so far. -/
abbrev Progress := List LiveColumn × List ChangeRecord

/-- The change that removes a live column. Live names are reported by the engine and may need
cleaning. -/
def dropOf (table : String) (column : LiveColumn) : Except BuildError Change := do
  let name ← Identifier.sanitize column.name
  match column.indexName with
  | none => return .dropColumn table name none
  | some index => return .dropColumn table name (some (← Identifier.sanitize index))

/-- Drop columns one after another. -/
def dropAll (b : Backend σ) (options : SyncOptions) (table : String) :
    List LiveColumn → List LiveColumn → Session σ Progress
  | [], live => return (live, [])
  | column :: rest, live => do
    let record ← apply b options (← Session.built (dropOf table column))
    let live := if record.isSkipped then live else live.filter fun c => c.name ≠ column.name
    let (live, records) ← dropAll b options table rest live
    return (live, record :: records)

/-- The live columns that a table does not declare. -/
def stale (table : Table) (live : List LiveColumn) : List LiveColumn :=
  live.filter fun c => !(table.columns.map Column.name).contains c.name

/-- Put a column behind the one of the given name, or in front of all if there is none. -/
def insertAfter (after : String) (column : LiveColumn) (live : List LiveColumn) :
    List LiveColumn :=
  match live.findIdx? fun c => c.name = after with
  | some i => live.take (i + 1) ++ column :: live.drop (i + 1)
  | none => column :: live

/-- A declared column as it stands in the table once it is added. -/
def added (d : Dialect) (table : String) (column : Column) : LiveColumn :=
  ⟨column, if column.index.isIndexed then some (d.indexName table column.name) else none⟩

/-- Give the first column of a name another specification and index name. -/
def replaceFirst (name : String) (f : LiveColumn → LiveColumn) : List LiveColumn → List LiveColumn
  | [] => []
  | c :: rest => if c.name = name then f c :: rest else c :: replaceFirst name f rest

/-- Give a live column its declared definition but for the index, which is reconciled on its own.
After the change an executing run reads the table again, because an engine that rebuilds the table
also renames its indexes. -/
def modify (b : Backend σ) (options : SyncOptions) (table : String) (declared : Column)
    (current : LiveColumn) (live : List LiveColumn) : Session σ Progress := do
  let column := { declared with index := current.spec.index }
  let live' := replaceFirst declared.name (fun c => { c with spec := column }) live
  let record ← apply b options (.modifyColumn table column (live'.map LiveColumn.spec))
  if record.isSkipped then return (live, [record])
  else if options.dryRun then return (live', [record])
  else return (← Session.userColumns b table, [record])

/-- Give a live column its declared definition if the two differ. -/
def redefine (b : Backend σ) (options : SyncOptions) (table : String) (declared : Column)
    (current : LiveColumn) (live : List LiveColumn) : Session σ Progress :=
  if declared.definitionDiffers current.spec then modify b options table declared current live
  else pure (live, [])

/-- Add the declared index of a column, or skip it while the old index stays. -/
def addIndex (b : Backend σ) (options : SyncOptions) (table : String) (declared : Column)
    (kept : Bool) (live : List LiveColumn) : Session σ Progress := do
  if !declared.index.isIndexed then return (live, [])
  let change := Change.addIndex table declared.name declared.index
  if kept then return (live, [← skip b .pendingIndexDrop change])
  let record ← apply b options change
  let index := b.dialect.indexName table declared.name
  let live := replaceFirst declared.name
    (fun c => ⟨{ c.spec with index := declared.index }, some index⟩) live
  return (live, [record])

/-- Bring the index of a live column to the declared kind: drop the index it has, then add the
declared one. -/
def syncIndex (b : Backend σ) (options : SyncOptions) (table : String) (declared : Column)
    (live : List LiveColumn) : Session σ Progress := do
  match live.find? fun c => c.name = declared.name with
  | none => return (live, [])
  | some current =>
    if current.spec.index = declared.index then return (live, [])
    else if current.spec.index.isIndexed then
      let name := current.indexName.getD (b.dialect.indexName table declared.name)
      let record ← apply b options (.dropIndex table declared.name name)
      let live := if record.isSkipped then live
        else replaceFirst declared.name (fun c => ⟨{ c.spec with index := .none }, none⟩) live
      let (live, records) ← addIndex b options table declared record.isSkipped live
      return (live, record :: records)
    else addIndex b options table declared false live

/-- Bring one declared column about, behind the column of the given name. -/
def syncColumn (b : Backend σ) (options : SyncOptions) (table : String) (after : String)
    (declared : Column) (live : List LiveColumn) : Session σ Progress := do
  match live.find? fun c => c.name = declared.name with
  | none =>
    let record ← apply b options (.addColumn table declared after)
    return (insertAfter after (added b.dialect table declared) live, [record])
  | some current =>
    let (live, modified) ← redefine b options table declared current live
    let (live, indexed) ← syncIndex b options table declared live
    return (live, modified ++ indexed)

/-- Bring declared columns about in order; reserved ones are left alone. -/
def syncColumns (b : Backend σ) (options : SyncOptions) (table : String) :
    String → List Column → List LiveColumn → Session σ (List ChangeRecord)
  | _, [], _ => return []
  | after, declared :: rest, live => do
    if Identifier.isReserved declared.name then syncColumns b options table after rest live
    else
      let (live, records) ← syncColumn b options table after declared live
      return records ++ (← syncColumns b options table declared.name rest live)

/-- Create a table unless it exists. -/
def ensureTable (b : Backend σ) (options : SyncOptions) (table : String) (present : Bool) :
    Session σ (List ChangeRecord) := do
  if present then return []
  return [← apply b options (.createTable table)]

/-- The user columns of a table; a table that a dry run would create has none. -/
def liveColumns (b : Backend σ) (options : SyncOptions) (table : String) (present : Bool) :
    Session σ (List LiveColumn) :=
  if !present && options.dryRun then pure [] else Session.userColumns b table

/-- Bring one declared table about. -/
def syncTable (b : Backend σ) (options : SyncOptions) (table : Table) (present : Bool) :
    Session σ (List ChangeRecord) := do
  let created ← ensureTable b options table.name present
  let live ← liveColumns b options table.name present
  let (live, dropped) ← dropAll b options table.name (stale table live) live
  let synced ← syncColumns b options table.name "id" table.columns live
  return created ++ dropped ++ synced

/-- Bring declared tables about in order, given the names of the tables that exist. -/
def syncTables (b : Backend σ) (options : SyncOptions) :
    List Table → List String → Session σ (List ChangeRecord)
  | [], _ => return []
  | table :: rest, existing => do
    let present := existing.contains table.name
    let records ← syncTable b options table present
    let existing := if present then existing else existing ++ [table.name]
    return records ++ (← syncTables b options rest existing)

end Synchronization

/-- Bring a database to the state that a schema declares and give the record of every change. -/
def Session.updateSchema {σ : Type} (b : Backend σ) (schema : Schema) (options : SyncOptions) :
    Session σ (List ChangeRecord) := do
  let existing ← Session.tables b
  Synchronization.syncTables b options schema.tables existing

end SchemaKeeper
