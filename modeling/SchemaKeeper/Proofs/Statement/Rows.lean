import SchemaKeeper.Proofs.Statement.Condition
import SchemaKeeper.Query.Statement

/-!
# Statements on rows

The lexemes of the statements that insert, update, delete, count and sum rows. They do not depend
on the dialect, and the text of a statement is lexed as them in each, `RowStatement.sql_reads`.
-/

namespace SchemaKeeper

/-- A statement on the rows of a table. -/
inductive RowStatement where
  | insert (table : String) (values : Assignments)
  | update (table : String) (values : Assignments) (filter : Filter)
  | delete (table : String) (filter : Filter)
  | count (table : String) (filter : Filter)
  | sum (table column : String) (filter : Filter)

/-- The text of a statement. -/
def RowStatement.sql (d : Dialect) : RowStatement → Except BuildError String
  | .insert table values => insertSql table values d
  | .update table values filter => updateSql table values filter d
  | .delete table filter => deleteSql table filter d
  | .count table filter => countSql table filter d
  | .sum table column filter => sumSql table column filter d

/-- The lexemes of a filter's clause. -/
def Filter.lexemes (f : Filter) : Except BuildError (List Lexeme) := do
  let tree ← ConditionTree.ofFilter .and f
  return match tree.lexemes with
    | some x => .word "WHERE" :: x
    | none => []

/-- The lexemes of one assignment of an update. -/
def assignmentLexemes (column : String) (value : Scalar) : Except BuildError (List Lexeme) := do
  return .word (← Identifier.sanitize column) :: .symbol "=" :: value.lexemes

namespace RowStatement

/-- The lexemes of parts with commas between them. -/
def list : List (List Lexeme) → List Lexeme := List.intercalate [.symbol ","]

/-- The lexemes of an insertion. -/
def insertLexemes (table : String) (values : Assignments) : Except BuildError (List Lexeme) :=
  if values.isEmpty then .error (.valueShape .nothingToInsert)
  else do
    let columns ← values.entries.mapM fun e => Identifier.sanitize e.1
    let table ← Identifier.sanitize table
    return [.word "INSERT", .word "INTO", .word table, .symbol "("]
      ++ list (columns.map fun c => [.word c]) ++ [.symbol ")", .word "VALUES", .symbol "("]
      ++ list (values.entries.map fun e => e.2.lexemes) ++ [.symbol ")"]

/-- The lexemes of an update. -/
def updateLexemes (table : String) (values : Assignments) (filter : Filter) :
    Except BuildError (List Lexeme) :=
  if values.isEmpty then .error (.valueShape .nothingToUpdate)
  else do
    let assignments ← values.entries.mapM fun e => assignmentLexemes e.1 e.2
    let table ← Identifier.sanitize table
    return [.word "UPDATE", .word table, .word "SET"] ++ list assignments ++ (← filter.lexemes)

/-- The lexemes of a statement that is a fixed beginning, a table and the clause of a filter. -/
def tableLexemes (head : List Lexeme) (table : String) (filter : Filter) :
    Except BuildError (List Lexeme) := do
  let table ← Identifier.sanitize table
  return head ++ [.word table] ++ (← filter.lexemes)

/-- The lexemes of a sum. -/
def sumLexemes (table column : String) (filter : Filter) : Except BuildError (List Lexeme) := do
  let column ← Identifier.sanitize column
  tableLexemes [.word "SELECT", .word "SUM", .symbol "(", .word column, .symbol ")", .word "AS",
    .word "total", .word "FROM"] table filter

/-- The lexemes of a statement. -/
def lexemes : RowStatement → Except BuildError (List Lexeme)
  | .insert table values => insertLexemes table values
  | .update table values filter => updateLexemes table values filter
  | .delete table filter => tableLexemes [.word "DELETE", .word "FROM"] table filter
  | .count table filter =>
    tableLexemes [.word "SELECT", .word "COUNT", .symbol "(", .symbol "*", .symbol ")", .word "AS",
      .word "total", .word "FROM"] table filter
  | .sum table column filter => sumLexemes table column filter

end RowStatement

/-- Both fail with one error, or both give results, which are related. -/
inductive Corresponds {α β : Type} (R : α → β → Prop) :
    Except BuildError α → Except BuildError β → Prop where
  | error (e : BuildError) : Corresponds R (.error e) (.error e)
  | ok {a : α} {b : β} : R a b → Corresponds R (.ok a) (.ok b)

namespace Corresponds

variable {α β γ δ : Type} {R : α → β → Prop} {S : β → γ → Prop}
  {r : Except BuildError α} {r' : Except BuildError β}

/-- What goes on with related results goes on alike. -/
theorem bind {T : γ → δ → Prop} {k : α → Except BuildError γ} {k' : β → Except BuildError δ}
    (h : Corresponds R r r') (hk : ∀ a b, R a b → Corresponds T (k a) (k' b)) :
    Corresponds T (r >>= k) (r' >>= k') := by
  cases h with
  | error e => exact .error e
  | ok hab => exact hk _ _ hab

theorem map {T : γ → δ → Prop} {k : α → γ} {k' : β → δ} (h : Corresponds R r r')
    (hk : ∀ a b, R a b → T (k a) (k' b)) : Corresponds T (r.map k) (r'.map k') := by
  cases h with
  | error e => exact .error e
  | ok hab => exact .ok (hk _ _ hab)

theorem mono {R' : α → β → Prop} (h : Corresponds R r r') (himp : ∀ a b, R a b → R' a b) :
    Corresponds R' r r' := by
  cases h with
  | error e => exact .error e
  | ok hab => exact .ok (himp _ _ hab)

theorem symm (h : Corresponds R r r') : Corresponds (fun b a => R a b) r' r := by
  cases h with
  | error e => exact .error e
  | ok hab => exact .ok hab

theorem trans {r'' : Except BuildError γ} (h : Corresponds R r r') (h' : Corresponds S r' r'') :
    Corresponds (fun a c => ∃ b, R a b ∧ S b c) r r'' := by
  cases h with
  | error e =>
      cases h'
      exact .error e
  | ok hab =>
      cases h' with
      | ok hbc => exact .ok ⟨_, hab, hbc⟩

/-- A step that both share. -/
theorem same (r : Except BuildError α) : Corresponds (fun a b => a = b ∧ r = .ok a) r r := by
  cases r with
  | error e => exact .error e
  | ok a => exact .ok ⟨rfl, rfl⟩

/-- Both clean one name. -/
theorem sanitize (raw : String) :
    Corresponds (fun a b => a = b ∧ Identifier.IsClean a) (Identifier.sanitize raw)
      (Identifier.sanitize raw) :=
  (same _).mono fun _ _ h => ⟨h.1, Identifier.is_clean_of_sanitize h.2⟩

/-- Passes over lists correspond where their elements do. -/
theorem map_m {σ τ : Type} {Q : σ → τ → Prop} {f : σ → Except BuildError α}
    {g : τ → Except BuildError β} {xs : List σ} {ys : List τ}
    (hf : ∀ x y, Q x y → Corresponds R (f x) (g y)) (h : List.Forall₂ Q xs ys) :
    Corresponds (List.Forall₂ R) (xs.mapM f) (ys.mapM g) := by
  induction h with
  | nil => exact .ok .nil
  | cons hxy _ ih =>
      rw [List.mapM_cons, List.mapM_cons]
      exact (hf _ _ hxy).bind fun _ _ hab => ih.bind fun _ _ habs => .ok (.cons hab habs)

end Corresponds

open Dialect

variable {d : Dialect}

/-- The clause of a filter is lexed as its lexemes, and may stand behind a name. -/
theorem Filter.where_clause_reads (f : Filter) (d : Dialect) :
    Corresponds (fun s x => d.Reads s x ∧ Delimited s.toList) (f.whereClause d) f.lexemes := by
  refine (Corresponds.same _).bind fun tree _ ⟨heq, htree⟩ => ?_
  subst heq
  have hreads := ConditionTree.render_reads d (ConditionTree.of_filter_clean htree)
  refine .ok ?_
  generalize tree.render d = text at hreads ⊢
  generalize tree.lexemes = x at hreads ⊢
  cases hreads with
  | none => exact ⟨fun _ _ => rfl, by decide⟩
  | some hread =>
      have hkeyword : d.Closes " WHERE " [.word "WHERE"] := closes_of_steps 3 fun _ _ => rfl
      refine ⟨hkeyword.append_reads hread, ?_⟩
      dsimp only
      rw [if_pos rfl, String.toList_append]
      exact Opens.delimited (by decide) _

theorem comma_closes : d.Closes ", " [.symbol ","] := closes_of_steps 2 fun _ _ => rfl

/-- A list of names is lexed as the names with commas between them. -/
theorem names_read {names : List String} (h : ∀ name ∈ names, Identifier.IsClean name) :
    d.Reads (", ".intercalate names) (RowStatement.list (names.map fun c => [.word c])) := by
  refine reads_intercalate comma_closes (by decide) ?_
  rw [List.forall₂_map_right_iff, List.forall₂_same]
  exact fun name hname => name_reads (h name hname)

/-- A list of literals is lexed as their lexemes with commas between them. -/
theorem literals_read (d : Dialect) (entries : List (String × Scalar)) :
    d.Reads (", ".intercalate (entries.map fun e => d.literal e.2))
      (RowStatement.list (entries.map fun e => e.2.lexemes)) := by
  refine reads_intercalate comma_closes (by decide) ?_
  rw [List.forall₂_map_left_iff, List.forall₂_map_right_iff, List.forall₂_same]
  exact fun e _ => d.literal_reads e.2

/-- An assignment is lexed as its column, an equals sign and the value. -/
theorem assignment_reads (d : Dialect) (column : String) (value : Scalar) :
    Corresponds d.Reads (assignmentText d column value) (assignmentLexemes column value) := by
  refine (Corresponds.sanitize column).bind fun name _ ⟨heq, hclean⟩ => .ok ?_
  subst heq
  have hequals : d.Closes " = " [.symbol "="] := closes_of_steps 3 fun _ _ => rfl
  have hcolumn := (name_reads hclean).append_closes hequals (by decide)
  exact hcolumn.append_reads (d.literal_reads value)

namespace RowStatement

theorem insert_reads (table : String) (values : Assignments) (d : Dialect) :
    Corresponds d.Reads (insertSql table values d) (insertLexemes table values) := by
  unfold insertSql Insertion.ofAssignments insertLexemes
  by_cases hvalues : values.isEmpty
  · rw [if_pos hvalues, if_pos hvalues]
    exact .error _
  rw [if_neg hvalues, if_neg hvalues]
  cases hcolumns : values.entries.mapM fun e => Identifier.sanitize e.1 with
  | error e => exact .error e
  | ok columns =>
      cases hname : Identifier.sanitize table with
      | error e => exact .error e
      | ok name =>
          have hclean : ∀ column ∈ columns, Identifier.IsClean column := by
            intro column hcolumn
            obtain ⟨entry, -, hsanitize⟩ := mem_of_map_m_ok hcolumns column hcolumn
            exact Identifier.is_clean_of_sanitize hsanitize
          have hinto : d.Closes "INSERT INTO " [.word "INSERT", .word "INTO"] :=
            closes_of_steps 4 fun _ _ => rfl
          have hopen : d.Closes " (" [.symbol "("] :=
            closes_of_steps 2 fun _ rest => by cases rest <;> rfl
          have hvalues : d.Closes ") VALUES (" [.symbol ")", .word "VALUES", .symbol "("] :=
            closes_of_steps 5 fun _ rest => by cases rest <;> rfl
          have hclose : d.Closes ")" [.symbol ")"] :=
            closes_of_steps 1 fun _ rest => by cases rest <;> rfl
          have htable := name_reads (d := d) (Identifier.is_clean_of_sanitize hname)
          have hhead := (hinto.append_reads htable).append_closes hopen (by decide)
          have hnames := (hhead.append_reads (names_read hclean)).append_closes hvalues (by decide)
          have hliterals := hnames.append_reads (literals_read d values.entries)
          exact .ok (hliterals.append hclose.reads (by decide))

theorem update_reads (table : String) (values : Assignments) (filter : Filter) (d : Dialect) :
    Corresponds d.Reads (updateSql table values filter d)
      (updateLexemes table values filter) := by
  unfold updateSql updateLexemes
  by_cases hvalues : values.isEmpty
  · rw [if_pos hvalues, if_pos hvalues]
    exact .error _
  rw [if_neg hvalues, if_neg hvalues]
  have hassignments : Corresponds (List.Forall₂ d.Reads)
      (values.entries.mapM fun e => assignmentText d e.1 e.2)
      (values.entries.mapM fun e => assignmentLexemes e.1 e.2) :=
    Corresponds.map_m (Q := Eq) (fun e _ heq => heq ▸ assignment_reads d e.1 e.2)
      (List.forall₂_same.mpr fun _ _ => rfl)
  refine hassignments.bind fun parts xs hparts => ?_
  refine (Corresponds.sanitize table).bind fun name _ ⟨heq, hclean⟩ => ?_
  subst heq
  refine (filter.where_clause_reads d).bind fun s x ⟨hclause, hdelimited⟩ => .ok ?_
  have hupdate : d.Closes "UPDATE " [.word "UPDATE"] := closes_of_steps 2 fun _ _ => rfl
  have hset : d.Closes " SET " [.word "SET"] := closes_of_steps 3 fun _ _ => rfl
  have hhead := (hupdate.append_reads (name_reads hclean)).append_closes hset (by decide)
  have hassigned := hhead.append_reads (reads_intercalate comma_closes (by decide) hparts)
  exact hassigned.append hclause hdelimited

/-- A fixed beginning, a table and the clause of a filter are lexed one after another. -/
theorem table_reads {head : String} {x : List Lexeme} (hhead : d.Closes head x) (table : String)
    (filter : Filter) :
    Corresponds d.Reads
      (do
        let name ← Identifier.sanitize table
        return head ++ name ++ (← filter.whereClause d))
      (tableLexemes x table filter) := by
  refine (Corresponds.sanitize table).bind fun name _ ⟨heq, hclean⟩ => ?_
  subst heq
  refine (filter.where_clause_reads d).bind fun s y ⟨hclause, hdelimited⟩ => .ok ?_
  exact (hhead.append_reads (name_reads hclean)).append hclause hdelimited

theorem delete_reads (table : String) (filter : Filter) (d : Dialect) :
    Corresponds d.Reads (deleteSql table filter d) (delete table filter).lexemes := by
  have hdelete : d.Closes "DELETE FROM " [.word "DELETE", .word "FROM"] :=
    closes_of_steps 4 fun _ _ => rfl
  exact table_reads hdelete table filter

/-- A count of a table is a fixed beginning, the table and the clause of the filter. -/
theorem count_sql_eq (table : String) (filter : Filter) (d : Dialect) :
    countSql table filter d = do
      let name ← Identifier.sanitize table
      return "SELECT COUNT(*) AS total FROM " ++ name ++ (← filter.whereClause d) := by
  unfold countSql Query.countSql Query.source
  cases Identifier.sanitize table with
  | error e => rfl
  | ok name =>
      cases filter.whereClause d with
      | error e => rfl
      | ok s =>
          simp [bind, Except.bind, pure, Except.pure, joinClause, clauseOf, String.append_assoc]

theorem count_reads (table : String) (filter : Filter) (d : Dialect) :
    Corresponds d.Reads (countSql table filter d) (count table filter).lexemes := by
  have hcount : d.Closes "SELECT COUNT(*) AS total FROM " [.word "SELECT", .word "COUNT",
      .symbol "(", .symbol "*", .symbol ")", .word "AS", .word "total", .word "FROM"] :=
    closes_of_steps 13 fun _ _ => rfl
  rw [count_sql_eq]
  exact table_reads hcount table filter

theorem sum_reads (table column : String) (filter : Filter) (d : Dialect) :
    Corresponds d.Reads (sumSql table column filter d) (sumLexemes table column filter) := by
  refine (Corresponds.sanitize column).bind fun name _ ⟨heq, hclean⟩ => ?_
  subst heq
  have hsum : d.Closes "SELECT SUM(" [.word "SELECT", .word "SUM", .symbol "("] :=
    closes_of_steps 4 fun _ rest => by cases rest <;> rfl
  have hfrom : d.Closes ") AS total FROM " [.symbol ")", .word "AS", .word "total",
      .word "FROM"] :=
    closes_of_steps 8 fun _ _ => rfl
  have hhead := (hsum.append_reads (name_reads hclean)).append_closes hfrom (by decide)
  exact table_reads hhead table filter

/-- The text of a statement is lexed as the lexemes of the statement, in each dialect. -/
theorem sql_reads (a : RowStatement) (d : Dialect) :
    Corresponds d.Reads (a.sql d) a.lexemes := by
  cases a with
  | insert table values => exact insert_reads table values d
  | update table values filter => exact update_reads table values filter d
  | delete table filter => exact delete_reads table filter d
  | count table filter => exact count_reads table filter d
  | sum table column filter => exact sum_reads table column filter d

end RowStatement

end SchemaKeeper
