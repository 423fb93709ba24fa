import Mathlib.Data.List.Forall2
import SchemaKeeper.Proofs.Synchronization.Layout

/-!
# The reference plan

What a synchronization is to do, worked out from the declaration and the initial structure alone:
for each declared table its creation if it is missing, the columns that go in live order, and for
each declared column what it takes to bring it about. Nothing here runs; `plan` is compared with the
log of a run elsewhere.
-/

namespace SchemaKeeper

namespace SyncOptions

/-- What becomes of a change that nothing speaks against. -/
def reach (options : SyncOptions) : Outcome := if options.dryRun then .planned else .applied

/-- What becomes of a change that can lose data or structure. -/
def gate (options : SyncOptions) : Outcome :=
  if options.force then options.reach else .skipped .destructive

end SyncOptions

namespace Synchronization

/-- A change as far as the declaration and the initial structure settle it. -/
inductive Expected where
  | exactly (change : Change)
  /-- A new definition, which lists the columns of the table in the engine's order. -/
  | redefinition (table : String) (column : Column) (columns : List Column)
  /-- An index that goes, under a name that the engine gave it during the run. -/
  | indexDrop (table column : String)

/-- The change is an expected one. -/
inductive Expected.Matches : Expected → Change → Prop where
  | exactly (change : Change) : Matches (.exactly change) change
  | redefinition (table : String) (column : Column) (columns listed : List Column)
      (hlisted : listed.Perm columns) :
      Matches (.redefinition table column columns) (.modifyColumn table column listed)
  | indexDrop (table column name : String) :
      Matches (.indexDrop table column) (.dropIndex table column name)

/-- An expected change and what is to become of it. -/
structure Entry where
  expected : Expected
  outcome : Outcome

/-- The record is the one of an expected change with the expected outcome. -/
def Entry.Matches (d : Dialect) (entry : Entry) (record : ChangeRecord) : Prop :=
  entry.expected.Matches record.change ∧ record = .of d record.change entry.outcome

/-- The log has just the records of the expected changes, in order. -/
abbrev Follows (d : Dialect) (entries : List Entry) (log : List ChangeRecord) : Prop :=
  List.Forall₂ (Entry.Matches d) entries log

theorem Follows.append {d : Dialect} {first second : List Entry} {log log' : List ChangeRecord}
    (h : Follows d first log) (h' : Follows d second log') :
    Follows d (first ++ second) (log ++ log') := by
  induction h with
  | nil => exact h'
  | cons hentry _ ih => exact .cons hentry ih

/-- The live columns that are there when the declared ones are brought about. -/
def kept (force : Bool) (table : Table) (live : List LiveColumn) : List LiveColumn :=
  if force then live.filter fun c => (table.columns.map Column.name).contains c.name else live

/-- The column behind which a new one goes: the last declared one before it, or else `id`. -/
def place (before : List Column) : String :=
  ((before.filter fun d => !Identifier.isReserved d.name).getLast?.map Column.name).getD "id"

/-- A definition among the declared ones is applied to a live column, after which the engine may
have given all indexes of the table new names. -/
def renames (options : SyncOptions) (live : List LiveColumn) (declared : List Column) : Bool :=
  options.force && !options.dryRun &&
    declared.any fun d => live.any fun c => c.name = d.name && d.definitionDiffers c.spec

/-- The definition that a declared column brings to a live one in a table with the given columns. -/
def planDefinition (options : SyncOptions) (table : String) (columns : List Column)
    (declared current : Column) : List Entry :=
  let column := { declared with index := current.index }
  if declared.definitionDiffers current then
    [⟨.redefinition table column (Column.onNamed declared.name (fun _ => column) columns),
      options.gate⟩]
  else []

/-- The index that a declared column brings to a live one: the old one goes, the new one comes. -/
def planIndex (d : Dialect) (options : SyncOptions) (table : String) (renamed : Bool)
    (declared : Column) (current : LiveColumn) : List Entry :=
  let name := current.indexName.getD (d.indexName table declared.name)
  let drop : Expected :=
    if renamed then .indexDrop table declared.name
    else .exactly (.dropIndex table declared.name name)
  let add := Change.addIndex table declared.name declared.index
  let stays := current.spec.index.isIndexed && !options.force
  if current.spec.index = declared.index then []
  else
    (if current.spec.index.isIndexed then [⟨drop, options.gate⟩] else [])
    ++ (if declared.index.isIndexed then
        [⟨.exactly add, if stays then .skipped .pendingIndexDrop else options.reach⟩]
      else [])

/-- What it takes to bring one declared column about after those before it. -/
def planColumn (d : Dialect) (options : SyncOptions) (table : Table) (live : List LiveColumn)
    (before : List Column) (declared : Column) : List Entry :=
  if Identifier.isReserved declared.name then []
  else
    match live.find? fun c => c.name = declared.name with
    | none => [⟨.exactly (.addColumn table.name declared (place before)), options.reach⟩]
    | some current =>
      planDefinition options table.name
        (layout options.force ((kept options.force table live).map LiveColumn.spec) before)
        declared current.spec
      ++ planIndex d options table.name (renames options live (before ++ [declared])) declared
        current

/-- What it takes to bring declared columns about in order after those before them. -/
def planColumns (d : Dialect) (options : SyncOptions) (table : Table) (live : List LiveColumn) :
    List Column → List Column → List Entry
  | _, [] => []
  | before, declared :: rest =>
    planColumn d options table live before declared
    ++ planColumns d options table live (before ++ [declared]) rest

/-- What it takes to bring one declared table about, given the user columns it has if it exists. -/
def planTable (d : Dialect) (options : SyncOptions) (table : Table)
    (present : Option (List LiveColumn)) : List Entry :=
  let live := present.getD []
  (if present.isNone then [⟨.exactly (.createTable table.name), options.reach⟩] else [])
  ++ (stale table live).map (fun c =>
    ⟨.exactly (.dropColumn table.name c.name c.indexName), options.gate⟩)
  ++ planColumns d options table live [] table.columns

/-- What it takes to bring a schema about, table by table. -/
def plan (d : Dialect) (options : SyncOptions) (initial : Structure) (tables : List Table) :
    List Entry :=
  tables.flatMap fun table => planTable d options table (initial table.name)

end Synchronization

end SchemaKeeper
