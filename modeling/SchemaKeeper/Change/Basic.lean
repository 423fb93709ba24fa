import SchemaKeeper.Schema.Column

/-!
# Schema changes

What a synchronization does to a table is a list of changes, each recorded with its outcome: carried
out, planned by a dry run, or skipped for one of two reasons.
-/

namespace SchemaKeeper

/-- A single change to a table. -/
inductive Change where
  /-- A new table with the reserved columns only. -/
  | createTable (table : String)
  /-- A new column behind another one, with its index if it has one. -/
  | addColumn (table : String) (column : Column) (after : String)
  /-- A new definition of a column, with all user columns of the table as they are afterwards. -/
  | modifyColumn (table : String) (column : Column) (tableColumns : List Column)
  /-- A column that goes, with its index if it has a known one. -/
  | dropColumn (table column : String) (index : Option String)
  | addIndex (table column : String) (kind : IndexKind)
  | dropIndex (table column name : String)
  deriving DecidableEq, Repr

namespace Change

/-- The table a change is about. -/
def table : Change → String
  | .createTable t | .addColumn t _ _ | .modifyColumn t _ _ | .dropColumn t _ _ | .addIndex t _ _
  | .dropIndex t _ _ => t

/-- A change that can lose data or structure. -/
def isDestructive : Change → Bool
  | .modifyColumn .. | .dropColumn .. | .dropIndex .. => true
  | _ => false

/-- The words for the index that an added column brings along. -/
def withIndex : IndexKind → String
  | .none => ""
  | .nonUnique => " with index"
  | .unique => " with unique index"

/-- A change in words. -/
def describe : Change → String
  | .createTable t => "created table `" ++ t ++ "`"
  | .addColumn t c _ =>
    "added column `" ++ t ++ "." ++ c.name ++ "` " ++ c.summary ++ withIndex c.index
  | .modifyColumn t c _ => "modified column `" ++ t ++ "." ++ c.name ++ "` to " ++ c.summary
  | .dropColumn t c _ => "dropped column `" ++ t ++ "." ++ c ++ "`"
  | .addIndex t c kind =>
    "added " ++ (if kind = .unique then "unique " else "") ++ "index on `" ++ t ++ "." ++ c ++ "`"
  | .dropIndex t _ name => "dropped index `" ++ name ++ "` on `" ++ t ++ "`"

/-- The members of a change's JSON object. -/
def members : Change → List (String × Json)
  | .createTable t => [("change", .text "create_table"), ("table", .text t)]
  | .addColumn t c after =>
    [("change", .text "add_column"), ("table", .text t), ("column", c.toJson),
      ("after", .text after)]
  | .modifyColumn t c cs =>
    [("change", .text "modify_column"), ("table", .text t), ("column", c.toJson),
      ("table_columns", .array (cs.map Column.toJson))]
  | .dropColumn t c index =>
    [("change", .text "drop_column"), ("table", .text t), ("column", .text c),
      ("index", match index with | none => .null | some n => .text n)]
  | .addIndex t c kind =>
    [("change", .text "add_index"), ("table", .text t), ("column", .text c),
      ("kind", .text kind.name)]
  | .dropIndex t c name =>
    [("change", .text "drop_index"), ("table", .text t), ("column", .text c),
      ("name", .text name)]

end Change

/-- Why a change was skipped. -/
inductive SkipReason where
  /-- It is destructive and force was not given. -/
  | destructive
  /-- The index it would replace was kept. -/
  | pendingIndexDrop
  deriving DecidableEq, Repr

/-- What became of a change. -/
inductive Outcome where
  | applied
  | planned
  | skipped (reason : SkipReason)
  deriving DecidableEq, Repr

namespace Outcome

/-- The mark in front of a change that was not carried out. -/
def mark : Outcome → String
  | .applied => ""
  | .planned => "[planned] "
  | .skipped .destructive => "[skipped, needs --force] "
  | .skipped .pendingIndexDrop => "[skipped, old index kept] "

/-- The members of an outcome in a record's JSON object. -/
def members : Outcome → List (String × Json)
  | .applied => [("outcome", .text "applied")]
  | .planned => [("outcome", .text "planned")]
  | .skipped .destructive => [("outcome", .text "skipped"), ("reason", .text "destructive")]
  | .skipped .pendingIndexDrop =>
    [("outcome", .text "skipped"), ("reason", .text "pending_index_drop")]

end Outcome

end SchemaKeeper
