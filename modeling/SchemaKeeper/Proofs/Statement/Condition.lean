import SchemaKeeper.Filter.Tree
import SchemaKeeper.Proofs.Statement.Value

/-!
# Conditions in statements

The lexemes of a condition tree, which do not depend on the dialect, and that the text of a tree
whose columns are clean is lexed as them in each dialect, `ConditionTree.render_reads`. A tree that
comes from a filter has clean columns, `ConditionTree.of_filter_clean`.
-/

namespace SchemaKeeper

namespace Comparison

/-- The lexeme of an operator. -/
def lexeme : Comparison → Lexeme
  | .like => .word "LIKE"
  | op => .symbol op.operator

/-- The lexemes of what an operator compares with: of a pattern under `LIKE`. -/
def operandLexemes (op : Comparison) (v : Scalar) : List Lexeme :=
  if op = .like then [.literal ("%" ++ v.display ++ "%")] else v.lexemes

end Comparison

/-- The values of an operand in order. -/
def Operand.values : Operand → List Scalar
  | .one v => [v]
  | .anyOf vs => vs

/-- The operand that a value of an entry is, unless it is a group. -/
def FilterValue.operand? : FilterValue → Option Operand
  | .one v => some (.one v)
  | .anyOf vs => some (.anyOf vs)
  | .group _ => none

/-- Lexemes between parentheses. -/
def Lexeme.bracketed (x : List Lexeme) : List Lexeme := .symbol "(" :: (x ++ [.symbol ")"])

/-- The lexemes of parts that a conjunction joins. -/
def Conjunction.joinLexemes (conjunction : Conjunction) : List (List Lexeme) → List Lexeme :=
  List.intercalate [.word conjunction.keyword]

namespace ConditionTree

mutual

/-- The values of a tree in order, each with its comparison. -/
def values : ConditionTree → List (Comparison × Scalar)
  | .group _ children => allValues children
  | .condition _ op operand => operand.values.map (op, ·)

/-- The values of trees in order, each with its comparison. -/
def allValues : List ConditionTree → List (Comparison × Scalar)
  | [] => []
  | node :: rest => node.values ++ allValues rest

end

/-- The tree holds some value. -/
def hasValue (tree : ConditionTree) : Bool := !tree.values.isEmpty

/-- The lexemes of one comparison. -/
def comparisonLexemes (column : String) (op : Comparison) (v : Scalar) : List Lexeme :=
  .word column :: op.lexeme :: op.operandLexemes v

/-- The lexemes of a condition, if it holds any value. -/
def conditionLexemes (column : String) (op : Comparison) : Operand → Option (List Lexeme)
  | .one v => some (comparisonLexemes column op v)
  | .anyOf [] => none
  | .anyOf (v :: vs) =>
    some (Lexeme.bracketed
      (Conjunction.or.joinLexemes ((v :: vs).map (comparisonLexemes column op))))

/-- The lexemes of the parts of a group, if there are any parts. -/
def groupLexemes (conjunction : Conjunction) : List (List Lexeme) → Option (List Lexeme)
  | [] => none
  | part :: parts => some (conjunction.joinLexemes (part :: parts))

mutual

/-- The lexemes of a tree, if it holds any value. -/
def lexemes : ConditionTree → Option (List Lexeme)
  | .group conjunction children => groupLexemes conjunction (partLexemes children)
  | .condition column op operand => conditionLexemes column op operand

/-- The lexemes of the children that hold something; those of a nested group in parentheses. -/
def partLexemes : List ConditionTree → List (List Lexeme)
  | [] => []
  | .group conjunction children :: rest =>
    ((lexemes (.group conjunction children)).map Lexeme.bracketed).toList ++ partLexemes rest
  | .condition column op operand :: rest =>
    (conditionLexemes column op operand).toList ++ partLexemes rest

end

mutual

/-- All columns of the tree are clean. -/
def Clean : ConditionTree → Prop
  | .group _ children => AllClean children
  | .condition column _ _ => Identifier.IsClean column

/-- All columns of the trees are clean. -/
def AllClean : List ConditionTree → Prop
  | [] => True
  | node :: rest => node.Clean ∧ AllClean rest

end

section Building

variable {key : String} {value : FilterValue} {conjunction : Conjunction}
  {entries : List (String × FilterValue)}

/-- A conjunction key takes a group. -/
theorem of_entry_group (h : Conjunction.ofKey? key = some conjunction) :
    ofEntry key (.group entries) = (ofEntries entries).map (.group conjunction) := by
  unfold ofEntry
  rw [h]
  dsimp only
  cases ofEntries entries <;> rfl

/-- A conjunction key takes nothing else. -/
theorem of_entry_misplaced {operand : Operand} (h : Conjunction.ofKey? key = some conjunction)
    (hvalue : value.operand? = some operand) :
    ofEntry key value = .error (.valueShape (.groupExpected key)) := by
  unfold ofEntry
  rw [h]
  cases value with
  | one | anyOf => rfl
  | group => cases hvalue

/-- Any other key takes values, and no group. -/
theorem of_entry_column (h : Conjunction.ofKey? key = none) :
    ofEntry key value = (Identifier.sanitize (Comparison.splitKey key).1).bind fun column =>
      match value.operand? with
      | some operand => .ok (.condition column (Comparison.splitKey key).2 operand)
      | none => .error (.valueShape (.groupUnexpected key)) := by
  unfold ofEntry
  rw [h]
  cases value <;> rfl

/-- A node comes from a group under a conjunction, or from values under a column. -/
theorem of_entry_ok {node : ConditionTree} (h : ofEntry key value = .ok node) :
    (∃ conjunction entries children, value = .group entries
      ∧ ofEntries entries = .ok children ∧ node = .group conjunction children)
    ∨ ∃ column operand, Identifier.sanitize (Comparison.splitKey key).1 = .ok column
      ∧ value.operand? = some operand
      ∧ node = .condition column (Comparison.splitKey key).2 operand := by
  cases hkey : Conjunction.ofKey? key with
  | some conjunction =>
      cases value with
      | one | anyOf =>
          rw [of_entry_misplaced hkey rfl] at h
          cases h
      | group entries =>
          rw [of_entry_group hkey] at h
          cases hchildren : ofEntries entries with
          | error e => rw [hchildren] at h; cases h
          | ok children =>
              rw [hchildren] at h
              cases h
              exact .inl ⟨conjunction, entries, children, rfl, hchildren, rfl⟩
  | none =>
      rw [of_entry_column hkey] at h
      cases hcolumn : Identifier.sanitize (Comparison.splitKey key).1 with
      | error e => rw [hcolumn] at h; cases h
      | ok column =>
          rw [hcolumn] at h
          cases hoperand : value.operand? with
          | none => rw [hoperand] at h; cases h
          | some operand =>
              rw [hoperand] at h
              cases h
              exact .inr ⟨column, operand, rfl, rfl, rfl⟩

/-- The nodes of entries are those of the first entry and of the rest. -/
theorem of_entries_cons_ok {key : String} {value : FilterValue}
    {rest : List (String × FilterValue)} {children : List ConditionTree}
    (h : ofEntries ((key, value) :: rest) = .ok children) :
    ∃ node nodes, ofEntry key value = .ok node ∧ ofEntries rest = .ok nodes
      ∧ children = node :: nodes := by
  rw [ofEntries] at h
  cases hnode : ofEntry key value with
  | error e => rw [hnode] at h; cases h
  | ok node =>
      rw [hnode] at h
      cases hnodes : ofEntries rest with
      | error e => rw [hnodes] at h; cases h
      | ok nodes =>
          rw [hnodes] at h
          cases h
          exact ⟨node, nodes, rfl, rfl, rfl⟩

mutual

theorem of_entry_clean {key : String} {value : FilterValue} {node : ConditionTree}
    (h : ofEntry key value = .ok node) : node.Clean := by
  rcases of_entry_ok h with
    ⟨conjunction, entries, children, rfl, hchildren, rfl⟩ | ⟨column, operand, hcolumn, -, rfl⟩
  · exact of_entries_clean hchildren
  · exact Identifier.is_clean_of_sanitize hcolumn
termination_by sizeOf value

theorem of_entries_clean {entries : List (String × FilterValue)} {children : List ConditionTree}
    (h : ofEntries entries = .ok children) : AllClean children := by
  match entries with
  | [] =>
      cases h
      trivial
  | (key, value) :: rest =>
      obtain ⟨node, nodes, hnode, hnodes, rfl⟩ := of_entries_cons_ok h
      exact ⟨of_entry_clean hnode, of_entries_clean hnodes⟩
termination_by sizeOf entries

end

/-- The tree of a filter has clean columns. -/
theorem of_filter_clean {conjunction : Conjunction} {f : Filter} {tree : ConditionTree}
    (h : ofFilter conjunction f = .ok tree) : tree.Clean := by
  unfold ofFilter at h
  cases hchildren : ofEntries f.entries with
  | error e => rw [hchildren] at h; cases h
  | ok children =>
      rw [hchildren] at h
      cases h
      exact of_entries_clean hchildren

end Building

section Reading

variable {d : Dialect} {column : String}

theorem operator_closes (op : Comparison) : d.Closes (" " ++ op.operator ++ " ") [op.lexeme] := by
  cases op <;> exact Dialect.closes_of_steps 3 fun _ _ => rfl

theorem keyword_closes (conjunction : Conjunction) :
    d.Closes (" " ++ conjunction.keyword ++ " ") [.word conjunction.keyword] := by
  cases conjunction <;> exact Dialect.closes_of_steps 3 fun _ _ => rfl

theorem bracketed_reads {s : String} {x : List Lexeme} (h : d.Reads s x) :
    d.Reads ("( " ++ s ++ " )") (Lexeme.bracketed x) := by
  have hopening : d.Closes "( " [.symbol "("] := Dialect.closes_of_steps 2 fun _ _ => rfl
  have hclosing : d.Closes " )" [.symbol ")"] :=
    Dialect.closes_of_steps 2 fun _ rest => by cases rest <;> rfl
  exact (hopening.append_reads h).append hclosing.reads (by decide)

/-- A comparison is lexed as its column, its operator and the value. -/
theorem comparison_reads (hcolumn : Identifier.IsClean column) (op : Comparison) (v : Scalar) :
    d.Reads (comparisonText d column op v) (comparisonLexemes column op v) := by
  have hoperand : d.Reads (if op = .like then d.pattern v else d.literal v)
      (op.operandLexemes v) := by
    unfold Comparison.operandLexemes
    split
    · exact d.pattern_reads v
    · exact d.literal_reads v
  have htext : comparisonText d column op v = column ++ (" " ++ op.operator ++ " ")
      ++ (if op = .like then d.pattern v else d.literal v) := by
    simp only [comparisonText, String.append_assoc]
  rw [htext]
  -- The blank in front of the operator ends the column.
  exact ((Dialect.name_reads hcolumn).append_closes (operator_closes op)
    (Dialect.Opens.append (Dialect.Opens.append (by decide)))).append_reads hoperand

/-- A condition is read if it holds any value. -/
theorem condition_reads (hcolumn : Identifier.IsClean column) (op : Comparison)
    (operand : Operand) : Option.Rel d.Reads (conditionText d column op operand)
      (conditionLexemes column op operand) := by
  cases operand with
  | one v => exact .some (comparison_reads hcolumn op v)
  | anyOf vs =>
      cases vs with
      | nil => exact .none
      | cons v vs =>
          refine .some (bracketed_reads ?_)
          refine Dialect.reads_intercalate (keyword_closes .or) (by decide) ?_
          rw [List.forall₂_map_left_iff, List.forall₂_map_right_iff, List.forall₂_same]
          exact fun v _ => comparison_reads hcolumn op v

/-- Parts are joined by their conjunction in the text and in the lexemes. -/
theorem group_reads (conjunction : Conjunction) {parts : List String}
    {lexemes : List (List Lexeme)} (h : List.Forall₂ d.Reads parts lexemes) :
    Option.Rel d.Reads (joinParts conjunction parts) (groupLexemes conjunction lexemes) := by
  have hjoined := Dialect.reads_intercalate (keyword_closes conjunction)
    (Dialect.Opens.append (Dialect.Opens.append (by decide))) h
  cases h with
  | nil => exact .none
  | cons hpart hparts => exact .some hjoined

mutual

/-- The text of a tree with clean columns is lexed as the lexemes of the tree. -/
theorem render_reads (d : Dialect) {tree : ConditionTree} (h : tree.Clean) :
    Option.Rel d.Reads (tree.render d) tree.lexemes := by
  match tree with
  | .group conjunction children =>
      rw [render, lexemes]
      exact group_reads conjunction (parts_read d h)
  | .condition column op operand =>
      rw [render, lexemes]
      exact condition_reads h op operand

/-- The texts of the parts of a group are lexed as their lexemes. -/
theorem parts_read (d : Dialect) {children : List ConditionTree} (h : AllClean children) :
    List.Forall₂ d.Reads (renderParts d children) (partLexemes children) := by
  match children with
  | [] => exact .nil
  | .group conjunction nested :: rest =>
      have hchild := render_reads d h.1
      have hrest := parts_read d h.2
      rw [renderParts, partLexemes]
      -- A child without text is left out on both sides.
      generalize render d (.group conjunction nested) = text at hchild ⊢
      generalize lexemes (.group conjunction nested) = x at hchild ⊢
      cases hchild with
      | none => exact hrest
      | some hreads => exact .cons (bracketed_reads hreads) hrest
  | .condition column op operand :: rest =>
      have hchild := condition_reads (d := d) h.1 op operand
      have hrest := parts_read d h.2
      rw [renderParts, partLexemes]
      generalize conditionText d column op operand = text at hchild ⊢
      generalize conditionLexemes column op operand = x at hchild ⊢
      cases hchild with
      | none => exact hrest
      | some hreads => exact .cons hreads hrest

end

end Reading

end ConditionTree

end SchemaKeeper
