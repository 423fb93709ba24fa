import SchemaKeeper.Filter.Basic
import SchemaKeeper.Identifier
import SchemaKeeper.Dialect

/-!
# Condition trees

A filter becomes a tree of groups and conditions before it is written. Writing leaves out whatever
holds no value: an empty list, a group of nothing but empty members, and for an empty tree the whole
clause.
-/

namespace SchemaKeeper

/-- The values a condition compares its column with. -/
inductive Operand where
  | one (value : Scalar)
  | anyOf (values : List Scalar)
  deriving DecidableEq, Repr

/-- A condition tree: conditions on cleaned columns, joined in groups. -/
inductive ConditionTree where
  | group (conjunction : Conjunction) (children : List ConditionTree)
  | condition (column : String) (op : Comparison) (operand : Operand)

namespace ConditionTree

mutual

/-- The node of one entry. A conjunction key takes a group and nothing else. Under any other key the
column name is cleaned first, so that an empty name is reported before a misplaced group. -/
def ofEntry (key : String) (value : FilterValue) : Except BuildError ConditionTree :=
  match Conjunction.ofKey? key, value with
  | some c, .group entries => do return .group c (← ofEntries entries)
  | some _, _ => .error (.valueShape (.groupExpected key))
  | none, value => do
    let column ← Identifier.sanitize (Comparison.splitKey key).1
    let op := (Comparison.splitKey key).2
    match value with
    | .one v => return .condition column op (.one v)
    | .anyOf vs => return .condition column op (.anyOf vs)
    | .group _ => .error (.valueShape (.groupUnexpected key))

/-- The nodes of entries in order. -/
def ofEntries : List (String × FilterValue) → Except BuildError (List ConditionTree)
  | [] => .ok []
  | (key, value) :: rest => do
    let node ← ofEntry key value
    return node :: (← ofEntries rest)

end

/-- The tree of a filter whose entries join by the given conjunction. -/
def ofFilter (conjunction : Conjunction) (f : Filter) : Except BuildError ConditionTree := do
  return .group conjunction (← ofEntries f.entries)

/-- One comparison. `LIKE` looks for the value anywhere in the column. -/
def comparisonText (d : Dialect) (column : String) (op : Comparison) (v : Scalar) : String :=
  column ++ " " ++ op.operator ++ " " ++ (if op = .like then d.pattern v else d.literal v)

/-- A condition: one comparison, or all of a list's in parentheses, or nothing for no values. -/
def conditionText (d : Dialect) (column : String) (op : Comparison) : Operand → Option String
  | .one v => some (comparisonText d column op v)
  | .anyOf [] => none
  | .anyOf (v :: vs) =>
    some ("( " ++ " OR ".intercalate ((v :: vs).map (comparisonText d column op)) ++ " )")

/-- The parts of a group that hold something, joined by its conjunction. -/
def joinParts (conjunction : Conjunction) : List String → Option String
  | [] => none
  | part :: parts => some ((" " ++ conjunction.keyword ++ " ").intercalate (part :: parts))

mutual

/-- The text of a tree, if it holds any value. -/
def render (d : Dialect) : ConditionTree → Option String
  | .group conjunction children => joinParts conjunction (renderParts d children)
  | .condition column op operand => conditionText d column op operand

/-- The texts of the children that hold something; a nested group stands in parentheses. -/
def renderParts (d : Dialect) : List ConditionTree → List String
  | [] => []
  | .group conjunction children :: rest =>
    match render d (.group conjunction children) with
    | some s => ("( " ++ s ++ " )") :: renderParts d rest
    | none => renderParts d rest
  | .condition column op operand :: rest =>
    match conditionText d column op operand with
    | some s => s :: renderParts d rest
    | none => renderParts d rest

end

end ConditionTree

/-- The `WHERE` clause of a filter, with or without its keyword, or nothing for a filter without
values. -/
def Filter.clause (f : Filter) (conjunction : Conjunction) (label : Bool) (d : Dialect) :
    Except BuildError String := do
  let tree ← ConditionTree.ofFilter conjunction f
  return match tree.render d with
    | some body => if label then " WHERE " ++ body else body
    | none => ""

/-- The `WHERE` clause of a statement. -/
def Filter.whereClause (f : Filter) (d : Dialect) : Except BuildError String :=
  f.clause .and true d

end SchemaKeeper
