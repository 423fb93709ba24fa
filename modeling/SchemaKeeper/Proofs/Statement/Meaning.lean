import SchemaKeeper.Proofs.Statement.Rows

/-!
# What filters mean

`BoolExpr.parse?` reads lexemes as a boolean expression, with `AND` binding tighter than `OR`. Each
lexeme is one step of a reader that keeps a `Level` for every open parenthesis. The text of a
condition tree is read as an expression that is true exactly where the tree holds, whatever its
atoms are taken to be, `ConditionTree.render_preserves_meaning`.
-/

namespace SchemaKeeper

/-- Parts with a separator between them are the first one, and the others with one in front. -/
theorem intercalate_cons_eq {α : Type} (separator part : List α) (parts : List (List α)) :
    separator.intercalate (part :: parts) = part ++ parts.flatMap (separator ++ ·) := by
  induction parts generalizing part with
  | nil => simp
  | cons next parts ih =>
      rw [List.intercalate_cons_cons, ih, List.flatMap_cons, List.append_assoc, List.append_assoc]

/-- What a literal stands for. -/
inductive Constant where
  | text (s : String)
  | number (negative : Bool) (digits : String)
  | now
  | null
  deriving DecidableEq, Repr

/-- The constant that the literal of a value stands for. -/
def Constant.ofScalar : Scalar → Constant
  | .text s => if s = "NOW()" then .now else if s = "NULL" then .null else .text s
  | .int i => .number (i.toInt < 0) (String.ofList (Number.digitsOf i.toInt.natAbs))
  | .float (.finite negative rank) =>
    .number negative (String.ofList (Number.magnitudeText Number.sqlLayout rank))
  | .float _ => .null

/-- A comparison of a column with a constant. -/
structure Atom where
  column : String
  op : Comparison
  constant : Constant
  deriving DecidableEq, Repr

/-- The atom that compares a column with a value. `LIKE` looks for the value anywhere. -/
def Atom.ofValue (column : String) (op : Comparison) (v : Scalar) : Atom :=
  ⟨column, op, if op = .like then .text ("%" ++ v.display ++ "%") else .ofScalar v⟩

/-- A boolean expression over atoms. -/
inductive BoolExpr where
  | atom (a : Atom)
  | and (left right : BoolExpr)
  | or (left right : BoolExpr)
  deriving DecidableEq, Repr

/-- The value of an expression, given those of the atoms. -/
def BoolExpr.eval (σ : Atom → Bool) : BoolExpr → Bool
  | .atom a => σ a
  | .and left right => left.eval σ && right.eval σ
  | .or left right => left.eval σ || right.eval σ

namespace Conjunction

/-- The value of a group, given those of its members. -/
def join : Conjunction → List Bool → Bool
  | .and, members => members.all id
  | .or, members => members.any id

/-- The expression that joins two. -/
def apply : Conjunction → BoolExpr → BoolExpr → BoolExpr
  | .and => .and
  | .or => .or

end Conjunction

namespace ConditionTree

mutual

/-- The value of a tree, given those of the atoms. A group joins the children that hold a value; a
condition holds if one of its comparisons does. -/
def holds (σ : Atom → Bool) : ConditionTree → Bool
  | .group conjunction children => conjunction.join (held σ children)
  | .condition column op operand =>
    Conjunction.or.join (operand.values.map fun v => σ (.ofValue column op v))

/-- The values of the trees that hold a value. -/
def held (σ : Atom → Bool) : List ConditionTree → List Bool
  | [] => []
  | node :: rest => if node.hasValue then node.holds σ :: held σ rest else held σ rest

end

end ConditionTree

/-- The comparison that an operator means. -/
def Comparison.ofLexeme? : Lexeme → Option Comparison
  | .symbol s => [eq, ne, gt, ge, lt, le].find? fun op => op.operator = s
  | .word "LIKE" => some .like
  | _ => none

namespace BoolExpr

/-- What was read within a parenthesis: the disjuncts before the last `OR`, and the conjuncts of
the disjunct after it. -/
structure Level where
  disjunct : Option BoolExpr := none
  conjunct : Option BoolExpr := none

namespace Level

/-- One more conjunct. -/
def and (level : Level) (e : BoolExpr) : Level :=
  { level with conjunct := some (match level.conjunct with | none => e | some c => .and c e) }

/-- The expression within the parenthesis, unless its last disjunct is missing. -/
def value? (level : Level) : Option BoolExpr :=
  level.conjunct.map fun c => match level.disjunct with | none => c | some e => .or e c

/-- The next disjunct begins. -/
def or? (level : Level) : Option Level := level.value?.map fun e => { disjunct := some e }

end Level

/-- What the reader expects. -/
inductive Place where
  /-- A column or an opening parenthesis. -/
  | operand
  | operator (column : String)
  | constant (column : String) (op : Comparison)
  /-- The digits behind a minus sign. -/
  | digits (column : String) (op : Comparison)
  | nowOpening (column : String) (op : Comparison)
  | nowClosing (column : String) (op : Comparison)
  /-- `AND`, `OR`, a closing parenthesis or the end. -/
  | connective

/-- A reader of expressions, with a level for each parenthesis that is open. -/
structure Reader where
  level : Level := {}
  outer : List Level := []
  place : Place := .operand

namespace Reader

/-- An atom is complete. -/
def atom (r : Reader) (column : String) (op : Comparison) (constant : Constant) : Reader :=
  { r with level := r.level.and (.atom ⟨column, op, constant⟩), place := .connective }

/-- Read a word where a constant is expected. -/
def constantWord (r : Reader) (column : String) (op : Comparison) (word : String) :
    Option Reader :=
  if Number.IsUnsigned word.toList then some (r.atom column op (.number false word))
  else if word = "NULL" then some (r.atom column op .null)
  else if word = "NOW" then some { r with place := .nowOpening column op }
  else none

/-- Read the keyword of a conjunction: `AND` goes on with the conjuncts, `OR` begins a disjunct. -/
def connect (r : Reader) : Conjunction → Option Reader
  | .and => some { r with place := .operand }
  | .or => r.level.or?.map fun level => { r with level, place := .operand }

/-- Close a parenthesis: what stands in it becomes a conjunct of the level outside. -/
def close (r : Reader) : Option Reader :=
  match r.outer with
  | [] => none
  | level :: outer => r.level.value?.map fun e => ⟨level.and e, outer, .connective⟩

/-- Read one lexeme. -/
def step (r : Reader) (x : Lexeme) : Option Reader :=
  match r.place, x with
  | .operand, .symbol "(" => some { level := {}, outer := r.level :: r.outer, place := .operand }
  | .operand, .word column => some { r with place := .operator column }
  | .operator column, x =>
    (Comparison.ofLexeme? x).map fun op => { r with place := .constant column op }
  | .constant column op, .literal s => some (r.atom column op (.text s))
  | .constant column op, .word word => r.constantWord column op word
  | .constant column op, .symbol "-" => some { r with place := .digits column op }
  | .digits column op, .word word =>
    if Number.IsUnsigned word.toList then some (r.atom column op (.number true word)) else none
  | .nowOpening column op, .symbol "(" => some { r with place := .nowClosing column op }
  | .nowClosing column op, .symbol ")" => some (r.atom column op .now)
  | .connective, .word keyword => (Conjunction.ofKey? keyword).bind r.connect
  | .connective, .symbol ")" => r.close
  | _, _ => none

/-- Read lexemes one after another. -/
def run (r : Reader) (lexemes : List Lexeme) : Option Reader := lexemes.foldlM step r

/-- The expression that was read, if nothing is left open. -/
def result? (r : Reader) : Option BoolExpr :=
  match r.place, r.outer with
  | .connective, [] => r.level.value?
  | _, _ => none

end Reader

/-- The expression that lexemes are. -/
def parse? (lexemes : List Lexeme) : Option BoolExpr :=
  (({} : Reader).run lexemes).bind Reader.result?

namespace Reader

theorem run_append (r : Reader) (x y : List Lexeme) :
    r.run (x ++ y) = (r.run x).bind fun r => r.run y :=
  List.foldlM_append

theorem run_cons (r : Reader) (x : Lexeme) (y : List Lexeme) :
    r.run (x :: y) = (r.step x).bind fun r => r.run y :=
  List.foldlM_cons

/-- The lexemes are read as one more conjunct, wherever one is expected. -/
def IsPart (x : List Lexeme) (e : BoolExpr) : Prop :=
  ∀ level outer, run ⟨level, outer, .operand⟩ x = some ⟨level.and e, outer, .connective⟩

/-- The lexemes are read as an expression, wherever one begins. -/
def IsWhole (x : List Lexeme) (e : BoolExpr) : Prop :=
  ∃ level : Level, level.value? = some e
    ∧ ∀ outer, run ⟨{}, outer, .operand⟩ x = some ⟨level, outer, .connective⟩

variable {x : List Lexeme} {e : BoolExpr}

theorem IsPart.whole (h : IsPart x e) : IsWhole x e :=
  ⟨({} : Level).and e, rfl, fun outer => h {} outer⟩

theorem IsWhole.parse (h : IsWhole x e) : parse? x = some e := by
  obtain ⟨level, hvalue, hrun⟩ := h
  rw [parse?, hrun []]
  exact hvalue

theorem of_lexeme_lexeme (op : Comparison) : Comparison.ofLexeme? op.lexeme = some op := by
  cases op <;> rfl

/-- A number is read as the constant that it is. -/
theorem signed_run {column : String} {op : Comparison} {negative : Bool} {digits : List Char}
    (h : Number.IsUnsigned digits) (level : Level) (outer : List Level) :
    run ⟨level, outer, .constant column op⟩ (Lexeme.signed negative digits)
      = some ⟨level.and (.atom ⟨column, op, .number negative (String.ofList digits)⟩), outer,
          .connective⟩ := by
  have hdigits : Number.IsUnsigned (String.ofList digits).toList := by
    rwa [String.toList_ofList]
  cases negative with
  | false =>
      show (constantWord _ column op (String.ofList digits)).bind some = _
      rw [constantWord, if_pos hdigits]
      rfl
  | true =>
      show (if Number.IsUnsigned (String.ofList digits).toList then some (atom _ column op _)
        else none).bind some = _
      rw [if_pos hdigits]
      rfl

/-- The literal of a value is read as the constant that it stands for. -/
theorem operand_run (column : String) (op : Comparison) (v : Scalar) (level : Level)
    (outer : List Level) :
    run ⟨level, outer, .constant column op⟩ (op.operandLexemes v)
      = some ⟨level.and (.atom (.ofValue column op v)), outer, .connective⟩ := by
  by_cases hlike : op = .like
  · subst hlike
    rfl
  · rw [Comparison.operandLexemes, if_neg hlike, Atom.ofValue, if_neg hlike]
    cases v with
    | text s =>
        by_cases hnow : s = "NOW()"
        · subst hnow
          rfl
        · by_cases hnull : s = "NULL"
          · subst hnull
            rfl
          · rw [Scalar.lexemes, if_neg hnow, if_neg hnull, Constant.ofScalar, if_neg hnow,
              if_neg hnull]
            rfl
    | int i => exact signed_run (Number.digits_of_unsigned _) level outer
    | float x =>
        cases x with
        | nan | infinite => rfl
        | finite negative rank => exact signed_run (Number.magnitude_text_unsigned _) level outer

/-- A comparison is read as its atom. -/
theorem comparison_is_part (column : String) (op : Comparison) (v : Scalar) :
    IsPart (ConditionTree.comparisonLexemes column op v) (.atom (.ofValue column op v)) := by
  intro level outer
  rw [ConditionTree.comparisonLexemes, run_cons]
  show run ⟨level, outer, .operator column⟩ (op.lexeme :: op.operandLexemes v) = _
  rw [run_cons]
  show ((Comparison.ofLexeme? op.lexeme).map _).bind _ = _
  rw [of_lexeme_lexeme]
  exact operand_run column op v level outer

/-- In parentheses an expression is a conjunct. -/
theorem IsWhole.bracketed (h : IsWhole x e) : IsPart (Lexeme.bracketed x) e := by
  obtain ⟨level, hvalue, hrun⟩ := h
  intro outside outer
  rw [Lexeme.bracketed, run_cons]
  show run ⟨{}, outside :: outer, .operand⟩ (x ++ [.symbol ")"]) = _
  rw [run_append, hrun]
  show (level.value?.map fun e => (⟨outside.and e, outer, .connective⟩ : Reader)).bind _ = _
  rw [hvalue]
  rfl

/-- The level of an expression whose members a conjunction joins: conjuncts stand side by side, and
in front of a conjunct that is a disjunct of its own anything may stand. -/
def Joins (conjunction : Conjunction) (level : Level) (e : BoolExpr) : Prop :=
  match conjunction with
  | .and => level = { conjunct := some e }
  | .or => level.value? = some e

theorem Joins.value {conjunction : Conjunction} {level : Level} (h : Joins conjunction level e) :
    level.value? = some e := by
  cases conjunction with
  | and => cases h; rfl
  | or => exact h

/-- One more member behind the keyword is joined to the members before it. -/
theorem member_run {conjunction : Conjunction} {level : Level} {e' : BoolExpr}
    (hlevel : Joins conjunction level e) (hx : IsPart x e') :
    ∃ level', Joins conjunction level' (conjunction.apply e e') ∧ ∀ outer,
      run ⟨level, outer, .connective⟩ (.word conjunction.keyword :: x)
        = some ⟨level', outer, .connective⟩ := by
  cases conjunction with
  | and =>
      -- One more conjunct joins all members so far, since no disjunct stands before them.
      cases hlevel
      refine ⟨{ conjunct := some (.and e e') }, rfl, fun outer => ?_⟩
      rw [run_cons]
      exact hx _ outer
  | or =>
      -- The keyword closes all members so far into one disjunct.
      refine ⟨{ disjunct := some e, conjunct := some e' }, rfl, fun outer => ?_⟩
      rw [run_cons]
      show ((level.value?.map _).map _).bind _ = _
      rw [show level.value? = some e from hlevel]
      exact hx { disjunct := some e } outer

/-- All members behind the first are joined to it in order. -/
theorem members_run {conjunction : Conjunction} {level : Level} {parts : List (List Lexeme)}
    {es : List BoolExpr} (hlevel : Joins conjunction level e)
    (h : List.Forall₂ IsPart parts es) :
    ∃ level', Joins conjunction level' (es.foldl conjunction.apply e) ∧ ∀ outer,
      run ⟨level, outer, .connective⟩ (parts.flatMap (.word conjunction.keyword :: ·))
        = some ⟨level', outer, .connective⟩ := by
  -- The level grows along the members, and it joins those that were read.
  induction h generalizing level e with
  | nil => exact ⟨level, hlevel, fun _ => rfl⟩
  | cons hpart hparts ih =>
      obtain ⟨next, hnext, hstep⟩ := member_run hlevel hpart
      obtain ⟨last, hlast, hrun⟩ := ih hnext
      refine ⟨last, hlast, fun outer => ?_⟩
      rw [List.flatMap_cons, run_append, hstep]
      exact hrun outer

/-- Parts with the keyword of a conjunction between them are an expression. -/
theorem joined_is_whole (conjunction : Conjunction) {part : List Lexeme}
    {parts : List (List Lexeme)} {es : List BoolExpr} (hpart : IsPart part e)
    (hparts : List.Forall₂ IsPart parts es) :
    IsWhole (conjunction.joinLexemes (part :: parts)) (es.foldl conjunction.apply e) := by
  have hfirst : Joins conjunction (({} : Level).and e) e := by cases conjunction <;> rfl
  obtain ⟨level, hlevel, hrun⟩ := members_run hfirst hparts
  refine ⟨level, hlevel.value, fun outer => ?_⟩
  rw [Conjunction.joinLexemes, intercalate_cons_eq, run_append, hpart]
  exact hrun outer

/-- `AND` binds tighter than `OR`, on whichever side of it. -/
theorem and_binds_tighter {y z : List Lexeme} {e' e'' : BoolExpr} (hx : IsPart x e)
    (hy : IsPart y e') (hz : IsPart z e'') :
    IsWhole (x ++ .word "OR" :: (y ++ .word "AND" :: z)) (.or e (.and e' e''))
    ∧ IsWhole (x ++ .word "AND" :: (y ++ .word "OR" :: z)) (.or (.and e e') e'') := by
  constructor
  · refine ⟨{ disjunct := some e, conjunct := some (.and e' e'') }, rfl, fun outer => ?_⟩
    rw [run_append, hx]
    show run ⟨{ disjunct := some e }, outer, .operand⟩ (y ++ .word "AND" :: z) = _
    rw [run_append, hy]
    exact hz _ outer
  · refine ⟨{ disjunct := some (.and e e'), conjunct := some e'' }, rfl, fun outer => ?_⟩
    rw [run_append, hx]
    show run ⟨{ conjunct := some e }, outer, .operand⟩ (y ++ .word "OR" :: z) = _
    rw [run_append, hy]
    exact hz { disjunct := some (.and e e') } outer

end Reader

example : parse? (Dialect.sqlite.lex "a = 1 OR b > -2 AND ( c != 'x' OR d LIKE NULL )".toList) =
    some (.or (.atom ⟨"a", .eq, .number false "1"⟩) (.and (.atom ⟨"b", .gt, .number true "2"⟩)
      (.or (.atom ⟨"c", .ne, .text "x"⟩) (.atom ⟨"d", .like, .null⟩)))) := by
  rfl

/-- Joining expressions joins their values. -/
theorem eval_foldl (conjunction : Conjunction) (σ : Atom → Bool) (e : BoolExpr)
    (es : List BoolExpr) :
    (es.foldl conjunction.apply e).eval σ = conjunction.join ((e :: es).map (eval σ)) := by
  induction es generalizing e with
  | nil => cases conjunction <;> simp [Conjunction.join]
  | cons e' es ih =>
      rw [List.foldl_cons, ih]
      cases conjunction <;> simp [Conjunction.join, Conjunction.apply, eval, Bool.and_assoc,
        Bool.or_assoc]

end BoolExpr

namespace ConditionTree

open BoolExpr

/-- There are lexemes if the tree holds a value, and they are read as an expression that means the
same as the tree. -/
def ReadAs (IsRead : List Lexeme → BoolExpr → Prop) (tree : ConditionTree) :
    Option (List Lexeme) → Prop
  | none => tree.hasValue = false
  | some x => tree.hasValue = true ∧ ∃ e, IsRead x e ∧ ∀ σ, e.eval σ = tree.holds σ

/-- The parts are read as expressions that mean the same as the trees that hold a value. -/
def AllReadAs (children : List ConditionTree) (parts : List (List Lexeme)) : Prop :=
  ∃ es, List.Forall₂ Reader.IsPart parts es ∧ (∀ σ, es.map (eval σ) = held σ children)
    ∧ (es = [] ↔ allValues children = [])

theorem has_value_eq_false {tree : ConditionTree} : tree.hasValue = false ↔ tree.values = [] := by
  simp [hasValue]

theorem ReadAs.bracketed {tree : ConditionTree} {x : Option (List Lexeme)}
    (h : ReadAs Reader.IsWhole tree x) : ReadAs Reader.IsPart tree (x.map Lexeme.bracketed) := by
  cases x with
  | none => exact h
  | some x =>
      obtain ⟨hvalue, e, hread, heval⟩ := h
      exact ⟨hvalue, e, hread.bracketed, heval⟩

theorem AllReadAs.cons {node : ConditionTree} {rest : List ConditionTree}
    {x : Option (List Lexeme)} {parts : List (List Lexeme)} (hrest : AllReadAs rest parts)
    (h : ReadAs Reader.IsPart node x) : AllReadAs (node :: rest) (x.toList ++ parts) := by
  obtain ⟨es, hread, heval, hnil⟩ := hrest
  cases x with
  | none =>
      have hvalue : node.hasValue = false := h
      refine ⟨es, hread, fun σ => ?_, ?_⟩
      · rw [heval, held, if_neg (by simp [hvalue])]
      · rw [hnil, allValues, has_value_eq_false.mp hvalue, List.nil_append]
  | some x =>
      obtain ⟨hvalue, e, hpart, hholds⟩ := h
      refine ⟨e :: es, .cons hpart hread, fun σ => ?_, ?_⟩
      · rw [List.map_cons, hholds, heval, held, if_pos hvalue]
      · have hne : node.values ≠ [] := fun hempty => by
          rw [has_value_eq_false.mpr hempty] at hvalue
          cases hvalue
        simp [allValues, hne]

/-- A group is read as the expression that joins its parts. -/
theorem group_read_as (conjunction : Conjunction) {children : List ConditionTree}
    {parts : List (List Lexeme)} (h : AllReadAs children parts) :
    ReadAs Reader.IsWhole (.group conjunction children) (groupLexemes conjunction parts) := by
  obtain ⟨es, hread, heval, hnil⟩ := h
  have hvalue : hasValue (.group conjunction children) = false ↔ es = [] := by
    rw [has_value_eq_false, hnil, values]
  cases hread with
  | nil => exact hvalue.mpr rfl
  | @cons part e parts es hpart hparts =>
      refine ⟨?_, _, Reader.joined_is_whole conjunction hpart hparts, fun σ => ?_⟩
      · cases htree : hasValue (.group conjunction children) with
        | false => cases hvalue.mp htree
        | true => rfl
      · rw [eval_foldl, heval, holds]

/-- A condition is read as the disjunction of its comparisons. -/
theorem condition_read_as (column : String) (op : Comparison) (operand : Operand) :
    ReadAs Reader.IsPart (.condition column op operand) (conditionLexemes column op operand) := by
  cases operand with
  | one v =>
      refine ⟨rfl, _, Reader.comparison_is_part column op v, fun σ => ?_⟩
      simp [eval, holds, Operand.values, Conjunction.join]
  | anyOf vs =>
      cases vs with
      | nil => rfl
      | cons v vs =>
          have hparts : List.Forall₂ Reader.IsPart (vs.map (comparisonLexemes column op))
              (vs.map fun v => .atom (.ofValue column op v)) := by
            rw [List.forall₂_map_left_iff, List.forall₂_map_right_iff, List.forall₂_same]
            exact fun v _ => Reader.comparison_is_part column op v
          -- Even a single value of a list stands in parentheses.
          have hwhole := Reader.joined_is_whole .or (Reader.comparison_is_part column op v) hparts
          refine ⟨rfl, _, hwhole.bracketed, fun σ => ?_⟩
          rw [eval_foldl, holds]
          simp [eval, Operand.values, Function.comp_def]

mutual

/-- The lexemes of a tree are read as an expression that means the same as the tree. -/
theorem lexemes_read_as (tree : ConditionTree) : ReadAs Reader.IsWhole tree tree.lexemes := by
  match tree with
  | .group conjunction children =>
      rw [lexemes]
      exact group_read_as conjunction (parts_read_as children)
  | .condition column op operand =>
      rw [lexemes]
      have hpart := condition_read_as column op operand
      generalize conditionLexemes column op operand = x at hpart ⊢
      cases x with
      | none => exact hpart
      | some x =>
          obtain ⟨hvalue, e, hread, heval⟩ := hpart
          exact ⟨hvalue, e, hread.whole, heval⟩

/-- The parts of a group are read as expressions that mean the same as its children. -/
theorem parts_read_as (children : List ConditionTree) :
    AllReadAs children (partLexemes children) := by
  match children with
  | [] => exact ⟨[], .nil, fun _ => rfl, by simp [allValues]⟩
  | .group conjunction nested :: rest =>
      rw [partLexemes]
      exact (parts_read_as rest).cons (lexemes_read_as (.group conjunction nested)).bracketed
  | .condition column op operand :: rest =>
      rw [partLexemes]
      exact (parts_read_as rest).cons (condition_read_as column op operand)

end

/-- A tree holds no value and has no text, or its text is an expression that means the same. -/
theorem render_means {tree : ConditionTree} (h : tree.Clean) (d : Dialect) :
    (tree.hasValue = false ∧ tree.render d = none)
    ∨ ∃ text e, tree.hasValue = true ∧ tree.render d = some text
      ∧ BoolExpr.parse? (d.lex text.toList) = some e ∧ ∀ σ, e.eval σ = tree.holds σ := by
  have hreads := render_reads d h
  have hmeans := lexemes_read_as tree
  generalize tree.lexemes = x at hreads hmeans
  generalize tree.render d = text at hreads ⊢
  cases hreads with
  | none => exact .inl ⟨hmeans, rfl⟩
  | some hread =>
      obtain ⟨hvalue, e, hwhole, heval⟩ := hmeans
      refine .inr ⟨_, e, hvalue, rfl, ?_, heval⟩
      rw [hread.lex_eq]
      exact hwhole.parse

end ConditionTree

namespace Filter

variable {f : Filter} {d : Dialect} {conjunction : Conjunction} {tree : ConditionTree}

/-- What a filter adds to the statements that take one. -/
def Adds (f : Filter) (d : Dialect) (clause : String) : Prop :=
  ∀ table values,
    deleteSql table f d = (deleteSql table {} d).map (· ++ clause)
    ∧ updateSql table values f d = (updateSql table values {} d).map (· ++ clause)
    ∧ countSql table f d = (countSql table {} d).map (· ++ clause)

/-- A fixed beginning and a table end in the clause of the filter behind them. -/
theorem table_adds {clause : String} (head table : String) (h : f.whereClause d = .ok clause) :
    (do
      let name ← Identifier.sanitize table
      return head ++ name ++ (← f.whereClause d)) =
    Except.map (· ++ clause) (do
      let name ← Identifier.sanitize table
      return head ++ name ++ (← ({} : Filter).whereClause d)) := by
  have hempty : ({} : Filter).whereClause d = .ok "" := rfl
  rw [h, hempty]
  cases Identifier.sanitize table with
  | error e => rfl
  | ok name => simp [bind, Except.bind, pure, Except.pure, Except.map]

/-- The statements end in the clause of their filter. -/
theorem adds_where_clause {clause : String} (h : f.whereClause d = .ok clause) :
    f.Adds d clause := by
  have hempty : ({} : Filter).whereClause d = .ok "" := rfl
  intro table values
  refine ⟨table_adds "DELETE FROM " table h, ?_, ?_⟩
  · unfold updateSql
    rw [h, hempty]
    by_cases hvalues : values.isEmpty
    · rw [if_pos hvalues, if_pos hvalues]
      rfl
    · rw [if_neg hvalues, if_neg hvalues]
      cases values.entries.mapM fun e => assignmentText d e.1 e.2 with
      | error e => rfl
      | ok assignments =>
          cases Identifier.sanitize table with
          | error e => rfl
          | ok name => simp [bind, Except.bind, pure, Except.pure, Except.map, String.append_assoc]
  · rw [RowStatement.count_sql_eq, RowStatement.count_sql_eq]
    exact table_adds "SELECT COUNT(*) AS total FROM " table h

theorem clause_eq (h : ConditionTree.ofFilter conjunction f = .ok tree) (label : Bool) :
    f.clause conjunction label d = .ok (match tree.render d with
      | some body => if label then " WHERE " ++ body else body
      | none => "") := by
  rw [clause, h]
  rfl

/-- The members of a filter hold a value or not, however they are joined. -/
theorem of_filter_conjunction (h : ConditionTree.ofFilter conjunction f = .ok tree)
    (other : Conjunction) : ∃ tree', ConditionTree.ofFilter other f = .ok tree'
      ∧ tree'.hasValue = tree.hasValue := by
  unfold ConditionTree.ofFilter at h ⊢
  cases hchildren : ConditionTree.ofEntries f.entries with
  | error e => rw [hchildren] at h; cases h
  | ok children =>
      rw [hchildren] at h
      cases h
      exact ⟨.group other children, rfl, rfl⟩

/-- A filter without a value adds nothing to a statement. The text of any other is an expression
that means the same as the tree of the filter, and the statements end in it. -/
theorem render_preserves_meaning (h : ConditionTree.ofFilter conjunction f = .ok tree)
    (d : Dialect) :
    (tree.hasValue = false →
      tree.render d = none ∧ (∀ label, f.clause conjunction label d = .ok "") ∧ f.Adds d "")
    ∧ (tree.hasValue = true → ∃ text e, tree.render d = some text
      ∧ BoolExpr.parse? (d.lex text.toList) = some e ∧ (∀ σ, e.eval σ = tree.holds σ)
      ∧ f.clause conjunction true d = .ok (" WHERE " ++ text)
      ∧ text ≠ "" ∧ f.clause conjunction false d = .ok text
      ∧ (conjunction = .and → f.Adds d (" WHERE " ++ text))) := by
  have hmeans := ConditionTree.render_means (ConditionTree.of_filter_clean h) d
  constructor
  · intro hvalue
    rcases hmeans with ⟨-, hrender⟩ | ⟨text, e, hvalue', -⟩
    · refine ⟨hrender, fun label => by rw [clause_eq h, hrender], adds_where_clause ?_⟩
      -- The statements join by `AND`, whatever joins the members of this tree.
      obtain ⟨tree', h', hsame⟩ := of_filter_conjunction h .and
      rcases ConditionTree.render_means (ConditionTree.of_filter_clean h') d with
        ⟨-, hrender'⟩ | ⟨text, e, hvalue', -⟩
      · rw [whereClause, clause_eq h', hrender']
      · rw [hsame, hvalue] at hvalue'
        cases hvalue'
    · rw [hvalue] at hvalue'
      cases hvalue'
  · intro hvalue
    rcases hmeans with ⟨hvalue', -⟩ | ⟨text, e, -, hrender, hparse, heval⟩
    · rw [hvalue] at hvalue'
      cases hvalue'
    · refine ⟨text, e, hrender, hparse, heval, by rw [clause_eq h, hrender]; rfl, ?_,
        by rw [clause_eq h, hrender]; rfl, ?_⟩
      · rintro rfl
        cases hparse
      · rintro rfl
        exact adds_where_clause (by rw [whereClause, clause_eq h, hrender]; rfl)

/-- A filter with groups in groups, one of them empty, and texts that look like conditions. -/
def adults : Filter where
  entries := [("age[>=]", .one (.int 18)),
    ("OR", .group [("name", .anyOf [.text "x' OR ('1", .text "\\"]), ("AND", .group []),
      ("note[~]", .one (.text "(AND)")),
      ("AND", .group [("debt", .one (.int (-3))), ("seen[!]", .one (.text "NULL"))])])]

/-- The tree of the adults. -/
def adultsTree : ConditionTree :=
  .group .and [.condition "age" .ge (.one (.int 18)),
    .group .or [.condition "name" .eq (.anyOf [.text "x' OR ('1", .text "\\"]), .group .and [],
      .condition "note" .like (.one (.text "(AND)")),
      .group .and [.condition "debt" .eq (.one (.int (-3))),
        .condition "seen" .ne (.one (.text "NULL"))]]]

theorem adults_preserve_meaning :
    ConditionTree.ofFilter .and adults = .ok adultsTree ∧ adultsTree.hasValue = true
    ∧ ∃ text e, adultsTree.render .mysql = some text
      ∧ BoolExpr.parse? (Dialect.mysql.lex text.toList) = some e
      ∧ (∀ σ, e.eval σ = adultsTree.holds σ) ∧ adults.Adds .mysql (" WHERE " ++ text) := by
  have htree : ConditionTree.ofFilter .and adults = .ok adultsTree := by rfl
  obtain ⟨text, e, hrender, hparse, heval, -, -, -, hadds⟩ :=
    (render_preserves_meaning htree .mysql).2 rfl
  exact ⟨htree, rfl, text, e, hrender, hparse, heval, hadds rfl⟩

end Filter

end SchemaKeeper
