import SchemaKeeper.Proofs.Statement.Rows

/-!
# Texts cannot change a statement

Two statements that differ in texts only are lexed alike: wherever they differ, a text literal
stands against a text literal, and the literals hold the texts that were given. `Lexeme.Paired` is
the relation between the lexemes of the two that every part of a statement keeps, and
`RowStatement.texts_keep_structure` is what follows for whole statements.
-/

namespace SchemaKeeper

namespace Lexeme

/-- The contents of a text literal. -/
def contents? : Lexeme → Option String
  | .literal s => some s
  | _ => none

/-- The lexeme without the contents of a text literal. -/
def mask : Lexeme → Lexeme
  | .literal _ => .literal ""
  | x => x

/-- The operators and punctuation marks of statements. -/
def punctuation : List String := ["(", ")", ",", "*", "=", "!=", ">", ">=", "<", "<=", "-"]

/-- A word of name characters, or a symbol that statements are made of. -/
def IsPlain : Lexeme → Prop
  | .word w => Identifier.IsClean w
  | .symbol s => s ∈ punctuation
  | _ => False

instance (x : Lexeme) : Decidable x.IsPlain := by
  cases x <;> unfold IsPlain <;> infer_instance

/-- The lexemes of two statements are the same but for the contents of text literals, and the
literals of each hold the given texts. -/
inductive Paired : List Lexeme → List Lexeme → List String → List String → Prop where
  | nil : Paired [] [] [] []
  | plain {x : Lexeme} {xs ys : List Lexeme} {ts us : List String} :
      x.IsPlain → Paired xs ys ts us → Paired (x :: xs) (x :: ys) ts us
  | literal {s t : String} {xs ys : List Lexeme} {ts us : List String} :
      Paired xs ys ts us → Paired (.literal s :: xs) (.literal t :: ys) (s :: ts) (t :: us)

/-- Parts are paired one by one. -/
inductive AllPaired :
    List (List Lexeme) → List (List Lexeme) → List String → List String → Prop where
  | nil : AllPaired [] [] [] []
  | cons {x y : List Lexeme} {xs ys : List (List Lexeme)} {ts us ts' us' : List String} :
      Paired x y ts us → AllPaired xs ys ts' us' →
      AllPaired (x :: xs) (y :: ys) (ts ++ ts') (us ++ us')

section Paired

variable {x y x' y' : List Lexeme} {xs ys xs' ys' : List (List Lexeme)}
  {ts us ts' us' : List String}

theorem Paired.symm (h : Paired x y ts us) : Paired y x us ts := by
  induction h with
  | nil => exact .nil
  | plain hplain _ ih => exact .plain hplain ih
  | literal _ ih => exact .literal ih

theorem Paired.append (h : Paired x y ts us) (h' : Paired x' y' ts' us') :
    Paired (x ++ x') (y ++ y') (ts ++ ts') (us ++ us') := by
  induction h with
  | nil => exact h'
  | plain hplain _ ih => exact .plain hplain ih
  | literal _ ih => exact .literal ih

/-- Lexemes without literals are paired with themselves. -/
theorem Paired.of_plain (h : ∀ z ∈ x, z.IsPlain) : Paired x x [] [] := by
  induction x with
  | nil => exact .nil
  | cons z x ih =>
      obtain ⟨hz, hx⟩ := List.forall_mem_cons.mp h
      exact .plain hz (ih hx)

/-- Plain lexemes may stand in front. -/
theorem Paired.plain_append (h : ∀ z ∈ x, z.IsPlain) (h' : Paired x' y' ts' us') :
    Paired (x ++ x') (x ++ y') ts' us' :=
  (Paired.of_plain h).append h'

/-- Plain lexemes may stand behind. -/
theorem Paired.append_plain (h : Paired x y ts us) (h' : ∀ z ∈ x', z.IsPlain) :
    Paired (x ++ x') (y ++ x') ts us := by
  have happend := h.append (Paired.of_plain h')
  rwa [List.append_nil, List.append_nil] at happend

theorem Paired.mask_eq (h : Paired x y ts us) : x.map mask = y.map mask := by
  induction h with
  | nil => rfl
  | plain _ _ ih => exact congrArg (_ :: ·) ih
  | literal _ ih => exact congrArg (_ :: ·) ih

theorem Paired.contents_eq (h : Paired x y ts us) : x.filterMap contents? = ts := by
  induction h with
  | nil => rfl
  | @plain z xs ys ts us hplain _ ih =>
      cases z with
      | word | symbol => exact ih
      | literal | quotedName | comment | unclosed => exact hplain.elim
  | literal _ ih => exact congrArg (_ :: ·) ih

/-- Whatever is no literal is plain. -/
theorem Paired.plain_or_literal (h : Paired x y ts us) :
    ∀ z ∈ x, z.IsPlain ∨ ∃ s, z = .literal s := by
  induction h with
  | nil => exact fun z hz => nomatch hz
  | plain hplain _ ih => exact List.forall_mem_cons.mpr ⟨.inl hplain, ih⟩
  | literal _ ih => exact List.forall_mem_cons.mpr ⟨.inr ⟨_, rfl⟩, ih⟩

theorem AllPaired.append (h : AllPaired xs ys ts us) (h' : AllPaired xs' ys' ts' us') :
    AllPaired (xs ++ xs') (ys ++ ys') (ts ++ ts') (us ++ us') := by
  induction h with
  | nil => exact h'
  | cons hpart _ ih =>
      rw [List.append_assoc, List.append_assoc]
      exact .cons hpart ih

theorem AllPaired.singleton (h : Paired x y ts us) : AllPaired [x] [y] ts us := by
  have hcons := AllPaired.cons h .nil
  rwa [List.append_nil, List.append_nil] at hcons

/-- Paired parts stay so with plain lexemes between them. -/
theorem AllPaired.intercalate {separator : List Lexeme} (hplain : ∀ z ∈ separator, z.IsPlain)
    (h : AllPaired xs ys ts us) :
    Paired (separator.intercalate xs) (separator.intercalate ys) ts us := by
  induction h with
  | nil => exact .nil
  | cons hpart hparts ih =>
      cases hparts with
      | nil =>
          rw [List.intercalate_singleton, List.intercalate_singleton, List.append_nil,
            List.append_nil]
          exact hpart
      | cons hnext hparts =>
          rw [List.intercalate_cons_cons, List.intercalate_cons_cons, List.append_assoc,
            List.append_assoc]
          exact hpart.append (Paired.plain_append hplain ih)

theorem Paired.bracketed (h : Paired x y ts us) :
    Paired (Lexeme.bracketed x) (Lexeme.bracketed y) ts us :=
  .plain (by decide) (h.append_plain (by decide))

end Paired

end Lexeme

namespace Scalar

/-- The same value, or two texts that both stand in a literal: under `LIKE` every text does, and
elsewhere every text that is no sentinel. -/
inductive Alike (like : Bool) : Scalar → Scalar → Prop where
  | same (v : Scalar) : Alike like v v
  | texts {s t : String} :
      (like = true ∨ s ∉ Dialect.sentinels ∧ t ∉ Dialect.sentinels) →
      Alike like (.text s) (.text t)

/-- What the text literals hold that a value stands in. -/
def texts (like : Bool) (v : Scalar) : List String :=
  if like then ["%" ++ v.display ++ "%"]
  else match v with
    | .text s => if s ∈ Dialect.sentinels then [] else [s]
    | _ => []

end Scalar

/-- The comparison looks for its value within the column. -/
def Comparison.isLike (op : Comparison) : Bool := op = .like

mutual

/-- Values of an entry that differ in texts only. -/
inductive FilterValue.Alike : Bool → FilterValue → FilterValue → Prop where
  | one {like : Bool} {v w : Scalar} : v.Alike like w → FilterValue.Alike like (.one v) (.one w)
  | anyOf {like : Bool} {vs ws : List Scalar} :
      List.Forall₂ (Scalar.Alike like) vs ws → FilterValue.Alike like (.anyOf vs) (.anyOf ws)
  | group {like : Bool} {entries entries' : List (String × FilterValue)} :
      EntriesAlike entries entries' → FilterValue.Alike like (.group entries) (.group entries')

/-- Entries that differ in texts only. -/
inductive EntriesAlike : List (String × FilterValue) → List (String × FilterValue) → Prop where
  | nil : EntriesAlike [] []
  | cons {key : String} {v w : FilterValue} {rest rest' : List (String × FilterValue)} :
      FilterValue.Alike (Comparison.splitKey key).2.isLike v w → EntriesAlike rest rest' →
      EntriesAlike ((key, v) :: rest) ((key, w) :: rest')

end

mutual

/-- What the text literals of an entry hold. -/
def FilterValue.texts (like : Bool) : FilterValue → List String
  | .one v => v.texts like
  | .anyOf vs => vs.flatMap (Scalar.texts like)
  | .group entries => entryTexts entries

/-- What the text literals of entries hold, in order. -/
def entryTexts : List (String × FilterValue) → List String
  | [] => []
  | (key, value) :: rest =>
    value.texts (Comparison.splitKey key).2.isLike ++ entryTexts rest

end

open Lexeme

/-- A number is plain. -/
theorem signed_plain {negative : Bool} {digits : List Char} (h : Number.IsUnsigned digits) :
    ∀ x ∈ Lexeme.signed negative digits, x.IsPlain := by
  have hword : (Lexeme.word (String.ofList digits)).IsPlain := by
    constructor
    · rw [Ne, ← String.toList_eq_nil_iff, String.toList_ofList]
      exact h.1
    · rw [String.toList_ofList]
      exact fun c hc => Number.name_char_of_unsigned (h.2 c hc)
  cases negative with
  | false => exact List.forall_mem_singleton.mpr hword
  | true => exact List.forall_mem_cons.mpr ⟨by decide, List.forall_mem_singleton.mpr hword⟩

/-- A text that is no sentinel is one literal. -/
theorem text_lexemes {s : String} (h : s ∉ Dialect.sentinels) :
    (Scalar.text s).lexemes = [.literal s] ∧ (Scalar.text s).texts false = [s] := by
  have hnow : s ≠ "NOW()" := by
    rintro rfl
    exact h (by decide)
  have hnull : s ≠ "NULL" := by
    rintro rfl
    exact h (by decide)
  exact ⟨(if_neg hnow).trans (if_neg hnull), if_neg h⟩

/-- A value is a literal of its own, or made of plain lexemes. -/
theorem lexemes_paired_self (v : Scalar) :
    Paired v.lexemes v.lexemes (v.texts false) (v.texts false) := by
  cases v with
  | text s =>
      by_cases hs : s ∈ Dialect.sentinels
      · simp only [Dialect.sentinels, List.mem_cons, List.not_mem_nil, or_false] at hs
        rcases hs with rfl | rfl
        · exact Paired.of_plain (x := [.word "NOW", .symbol "(", .symbol ")"]) (by decide)
        · exact Paired.of_plain (x := [.word "NULL"]) (by decide)
      · rw [(text_lexemes hs).1, (text_lexemes hs).2]
        exact .literal .nil
  | int i => exact Paired.of_plain (signed_plain (Number.digits_of_unsigned _))
  | float x =>
      cases x with
      | nan | infinite => exact Paired.of_plain (x := [.word "NULL"]) (by decide)
      | finite negative rank =>
          exact Paired.of_plain (signed_plain (Number.magnitude_text_unsigned _))

/-- What an assignment assigns is paired. -/
theorem literal_paired {v w : Scalar} (h : v.Alike false w) :
    Paired v.lexemes w.lexemes (v.texts false) (w.texts false) := by
  cases h with
  | same => exact lexemes_paired_self v
  | texts htexts =>
      rcases htexts with htexts | ⟨hs, ht⟩
      · cases htexts
      · rw [(text_lexemes hs).1, (text_lexemes hs).2, (text_lexemes ht).1, (text_lexemes ht).2]
        exact .literal .nil

/-- What a comparison compares with is paired. -/
theorem operand_paired {op : Comparison} {v w : Scalar} (h : v.Alike op.isLike w) :
    Paired (op.operandLexemes v) (op.operandLexemes w) (v.texts op.isLike)
      (w.texts op.isLike) := by
  by_cases hop : op = .like
  · subst hop
    exact .literal .nil
  · have hlike : op.isLike = false := decide_eq_false hop
    rw [Comparison.operandLexemes, if_neg hop, Comparison.operandLexemes, if_neg hop]
    rw [hlike] at h ⊢
    exact literal_paired h

theorem comparison_paired {column : String} (hcolumn : Identifier.IsClean column)
    {op : Comparison} {v w : Scalar} (h : v.Alike op.isLike w) :
    Paired (ConditionTree.comparisonLexemes column op v)
      (ConditionTree.comparisonLexemes column op w) (v.texts op.isLike) (w.texts op.isLike) := by
  have hop : op.lexeme.IsPlain := by cases op <;> decide
  exact .plain hcolumn (.plain hop (operand_paired h))

/-- The comparisons of a list of values are paired. -/
theorem comparisons_paired {column : String} (hcolumn : Identifier.IsClean column)
    {op : Comparison} {vs ws : List Scalar} (h : List.Forall₂ (Scalar.Alike op.isLike) vs ws) :
    AllPaired (vs.map (ConditionTree.comparisonLexemes column op))
      (ws.map (ConditionTree.comparisonLexemes column op)) (vs.flatMap (Scalar.texts op.isLike))
      (ws.flatMap (Scalar.texts op.isLike)) := by
  induction h with
  | nil => exact .nil
  | cons hvalue _ ih => exact .cons (comparison_paired hcolumn hvalue) ih

namespace ConditionTree

theorem part_lexemes_cons (node : ConditionTree) (rest : List ConditionTree) :
    partLexemes (node :: rest) = partLexemes [node] ++ partLexemes rest := by
  cases node <;> simp [partLexemes]

theorem keyword_plain (conjunction : Conjunction) :
    ∀ z ∈ [Lexeme.word conjunction.keyword], z.IsPlain := by
  cases conjunction <;> decide

/-- Groups are paired where their parts are. -/
theorem group_paired (conjunction : Conjunction) {cs ds : List ConditionTree}
    {ts us : List String} (h : AllPaired (partLexemes cs) (partLexemes ds) ts us) :
    AllPaired (partLexemes [.group conjunction cs]) (partLexemes [.group conjunction ds])
      ts us := by
  have hjoined := h.intercalate (keyword_plain conjunction)
  simp only [partLexemes, lexemes, List.append_nil]
  -- A group without parts is left out on both sides.
  generalize partLexemes cs = xs at h hjoined ⊢
  generalize partLexemes ds = ys at h hjoined ⊢
  cases h with
  | nil => exact .nil
  | cons hpart hparts => exact .singleton hjoined.bracketed

theorem condition_paired {column : String} (hcolumn : Identifier.IsClean column)
    {op : Comparison} {v w : FilterValue} (h : v.Alike op.isLike w) {operand operand' : Operand}
    (hv : v.operand? = some operand) (hw : w.operand? = some operand') :
    AllPaired (partLexemes [.condition column op operand])
      (partLexemes [.condition column op operand']) (v.texts op.isLike)
      (w.texts op.isLike) := by
  simp only [partLexemes, List.append_nil]
  cases h with
  | one hvalue =>
      cases hv
      cases hw
      exact .singleton (comparison_paired hcolumn hvalue)
  | anyOf hvalues =>
      cases hv
      cases hw
      have hjoined := (comparisons_paired hcolumn hvalues).intercalate (keyword_plain .or)
      cases hvalues with
      | nil => exact .nil
      | cons hvalue hvalues => exact .singleton hjoined.bracketed
  | group => cases hv

mutual

/-- The nodes of entries that differ in texts only. -/
theorem entry_paired {key : String} {v w : FilterValue}
    (h : v.Alike (Comparison.splitKey key).2.isLike w) :
    Corresponds (fun n m => AllPaired (partLexemes [n]) (partLexemes [m])
        (v.texts (Comparison.splitKey key).2.isLike) (w.texts (Comparison.splitKey key).2.isLike))
      (ofEntry key v) (ofEntry key w) := by
  cases hkey : Conjunction.ofKey? key with
  | some conjunction =>
      cases h with
      | one | anyOf =>
          -- The fault names the key and none of the texts.
          rw [of_entry_misplaced hkey rfl, of_entry_misplaced hkey rfl]
          exact .error _
      | group hentries =>
          rw [of_entry_group hkey, of_entry_group hkey]
          exact (entries_paired hentries).map fun cs ds hparts => group_paired conjunction hparts
  | none =>
      rw [of_entry_column hkey, of_entry_column hkey]
      refine (Corresponds.sanitize _).bind fun column _ ⟨heq, hclean⟩ => ?_
      subst heq
      cases h with
      | one hvalue => exact .ok (condition_paired hclean (.one hvalue) rfl rfl)
      | anyOf hvalues => exact .ok (condition_paired hclean (.anyOf hvalues) rfl rfl)
      | group => exact .error _

/-- The parts of entries that differ in texts only. -/
theorem entries_paired {entries entries' : List (String × FilterValue)}
    (h : EntriesAlike entries entries') :
    Corresponds (fun cs ds => AllPaired (partLexemes cs) (partLexemes ds) (entryTexts entries)
      (entryTexts entries')) (ofEntries entries) (ofEntries entries') := by
  cases h with
  | nil => exact .ok .nil
  | cons hvalue hrest =>
      rw [ofEntries, ofEntries]
      refine (entry_paired hvalue).bind fun n m hnode => ?_
      refine (entries_paired hrest).bind fun cs ds hparts => .ok ?_
      rw [part_lexemes_cons, part_lexemes_cons m]
      exact hnode.append hparts

end

end ConditionTree

/-- Filters that differ in texts only. -/
def Filter.Alike (f g : Filter) : Prop := EntriesAlike f.entries g.entries

/-- What the text literals of a filter hold, in order. -/
def Filter.texts (f : Filter) : List String := entryTexts f.entries

/-- The trees of filters that differ in texts only. -/
theorem ConditionTree.of_filter_paired {f g : Filter} (h : f.Alike g)
    (conjunction : Conjunction) :
    Corresponds (fun t u => ∃ cs ds, t = .group conjunction cs ∧ u = .group conjunction ds
        ∧ AllPaired (partLexemes cs) (partLexemes ds) f.texts g.texts)
      (ofFilter conjunction f) (ofFilter conjunction g) :=
  (entries_paired h).bind fun cs ds hparts => .ok ⟨cs, ds, rfl, rfl, hparts⟩

/-- The clauses of filters that differ in texts only. -/
theorem Filter.lexemes_paired {f g : Filter} (h : f.Alike g) :
    Corresponds (fun x y => Paired x y f.texts g.texts) f.lexemes g.lexemes := by
  refine (ConditionTree.of_filter_paired h .and).bind ?_
  rintro _ _ ⟨cs, ds, rfl, rfl, hparts⟩
  refine .ok ?_
  have hjoined := hparts.intercalate (ConditionTree.keyword_plain .and)
  rw [ConditionTree.lexemes, ConditionTree.lexemes]
  generalize ConditionTree.partLexemes cs = xs at hparts hjoined ⊢
  generalize ConditionTree.partLexemes ds = ys at hparts hjoined ⊢
  generalize f.texts = ts at hparts hjoined ⊢
  generalize g.texts = us at hparts hjoined ⊢
  cases hparts with
  | nil => exact .nil
  | cons hpart hrest => exact .plain (by decide) hjoined

namespace Assignments

/-- The same columns in the same order, with values that differ in texts only. -/
def Alike (a b : Assignments) : Prop :=
  List.Forall₂ (fun e e' => e.1 = e'.1 ∧ e.2.Alike false e'.2) a.entries b.entries

/-- What the text literals of the values hold, in order. -/
def texts (a : Assignments) : List String := a.entries.flatMap fun e => e.2.texts false

variable {a b : Assignments}

theorem Alike.is_empty_eq (h : a.Alike b) : a.isEmpty = b.isEmpty := by
  obtain ⟨entries⟩ := a
  obtain ⟨entries'⟩ := b
  dsimp only [Alike] at h
  cases h <;> rfl

/-- The values of insertions. -/
theorem literals_paired (h : a.Alike b) :
    Paired (RowStatement.list (a.entries.map fun e => e.2.lexemes))
      (RowStatement.list (b.entries.map fun e => e.2.lexemes)) a.texts b.texts := by
  refine AllPaired.intercalate (by decide) ?_
  obtain ⟨entries⟩ := a
  obtain ⟨entries'⟩ := b
  dsimp only [Alike, texts] at h ⊢
  induction h with
  | nil => exact .nil
  | cons hentry _ ih => exact .cons (literal_paired hentry.2) ih

/-- The columns of insertions. -/
theorem columns_paired (h : a.Alike b) :
    Corresponds (fun columns columns' => columns = columns'
        ∧ ∀ column ∈ columns, Identifier.IsClean column)
      (a.entries.mapM fun e => Identifier.sanitize e.1)
      (b.entries.mapM fun e => Identifier.sanitize e.1) := by
  obtain ⟨entries⟩ := a
  obtain ⟨entries'⟩ := b
  dsimp only [Alike] at h ⊢
  induction h with
  | nil => exact .ok ⟨rfl, List.forall_mem_nil _⟩
  | cons hentry _ ih =>
      rw [List.mapM_cons, List.mapM_cons, hentry.1]
      refine (Corresponds.sanitize _).bind fun column _ ⟨heq, hclean⟩ => ?_
      refine ih.bind fun columns _ ⟨heqs, hcleans⟩ => .ok ?_
      subst heq heqs
      exact ⟨rfl, List.forall_mem_cons.mpr ⟨hclean, hcleans⟩⟩

/-- The assignments of updates. -/
theorem assignments_paired (h : a.Alike b) :
    Corresponds (fun xs ys => AllPaired xs ys a.texts b.texts)
      (a.entries.mapM fun e => assignmentLexemes e.1 e.2)
      (b.entries.mapM fun e => assignmentLexemes e.1 e.2) := by
  obtain ⟨entries⟩ := a
  obtain ⟨entries'⟩ := b
  dsimp only [Alike, texts] at h ⊢
  induction h with
  | nil => exact .ok .nil
  | @cons e e' es es' hentry _ ih =>
      rw [List.mapM_cons, List.mapM_cons]
      have hassignment : Corresponds
          (fun x y => Paired x y (e.2.texts false) (e'.2.texts false))
          (assignmentLexemes e.1 e.2) (assignmentLexemes e'.1 e'.2) := by
        unfold assignmentLexemes
        rw [hentry.1]
        refine (Corresponds.sanitize _).bind fun column _ ⟨heq, hclean⟩ => .ok ?_
        subst heq
        exact .plain hclean (.plain (by decide) (literal_paired hentry.2))
      exact hassignment.bind fun x y hpart => ih.bind fun xs ys hparts => .ok (.cons hpart hparts)

end Assignments

namespace RowStatement

/-- Statements that differ in texts only. -/
inductive Alike : RowStatement → RowStatement → Prop where
  | insert (table : String) {values values' : Assignments} :
      values.Alike values' → Alike (.insert table values) (.insert table values')
  | update (table : String) {values values' : Assignments} {f g : Filter} :
      values.Alike values' → f.Alike g → Alike (.update table values f) (.update table values' g)
  | delete (table : String) {f g : Filter} : f.Alike g → Alike (.delete table f) (.delete table g)
  | count (table : String) {f g : Filter} : f.Alike g → Alike (.count table f) (.count table g)
  | sum (table column : String) {f g : Filter} :
      f.Alike g → Alike (.sum table column f) (.sum table column g)

/-- What the text literals of a statement hold, in order. -/
def texts : RowStatement → List String
  | .insert _ values => values.texts
  | .update _ values filter => values.texts ++ filter.texts
  | .delete _ filter | .count _ filter | .sum _ _ filter => filter.texts

variable {a b : RowStatement}

/-- A clean name between plain lexemes is plain. -/
theorem named_plain {x y : List Lexeme} {name : String} (hx : ∀ z ∈ x, z.IsPlain)
    (hname : Identifier.IsClean name) (hy : ∀ z ∈ y, z.IsPlain) :
    ∀ z ∈ x ++ [.word name] ++ y, z.IsPlain := by
  simp only [List.forall_mem_append, List.forall_mem_singleton]
  exact ⟨⟨hx, hname⟩, hy⟩

/-- A list of names is plain. -/
theorem names_paired {names : List String} (h : ∀ name ∈ names, Identifier.IsClean name) :
    Paired (list (names.map fun c => [.word c])) (list (names.map fun c => [.word c])) [] [] := by
  refine AllPaired.intercalate (by decide) ?_
  induction names with
  | nil => exact .nil
  | cons name names ih =>
      obtain ⟨hname, hnames⟩ := List.forall_mem_cons.mp h
      exact .cons (.plain (x := .word name) hname .nil) (ih hnames)

theorem insert_paired (table : String) {values values' : Assignments} (h : values.Alike values') :
    Corresponds (fun x y => Paired x y values.texts values'.texts) (insertLexemes table values)
      (insertLexemes table values') := by
  unfold insertLexemes
  rw [h.is_empty_eq]
  by_cases hvalues : values'.isEmpty
  · rw [if_pos hvalues, if_pos hvalues]
    exact .error _
  rw [if_neg hvalues, if_neg hvalues]
  refine (Assignments.columns_paired h).bind fun columns _ ⟨heq, hcolumns⟩ => ?_
  subst heq
  refine (Corresponds.sanitize table).bind fun name _ ⟨heq, hname⟩ => .ok ?_
  subst heq
  have hinto := named_plain (x := [.word "INSERT", .word "INTO"]) (y := [.symbol "("]) (by decide)
    hname (by decide)
  have hbetween : ∀ z ∈ [Lexeme.symbol ")", .word "VALUES", .symbol "("], z.IsPlain := by decide
  have hhead := (Paired.plain_append hinto (names_paired hcolumns)).append_plain hbetween
  exact (hhead.append (Assignments.literals_paired h)).append_plain (by decide)

theorem update_paired (table : String) {values values' : Assignments} {f g : Filter}
    (hvalues : values.Alike values') (hfilter : f.Alike g) :
    Corresponds (fun x y => Paired x y (values.texts ++ f.texts) (values'.texts ++ g.texts))
      (updateLexemes table values f) (updateLexemes table values' g) := by
  unfold updateLexemes
  rw [hvalues.is_empty_eq]
  by_cases hempty : values'.isEmpty
  · rw [if_pos hempty, if_pos hempty]
    exact .error _
  rw [if_neg hempty, if_neg hempty]
  refine (Assignments.assignments_paired hvalues).bind fun xs ys hparts => ?_
  refine (Corresponds.sanitize table).bind fun name _ ⟨heq, hname⟩ => ?_
  subst heq
  refine (Filter.lexemes_paired hfilter).bind fun x y hclause => .ok ?_
  have hhead := named_plain (x := [.word "UPDATE"]) (y := [.word "SET"]) (by decide) hname
    (by decide)
  have hassignments : Paired (list xs) (list ys) values.texts values'.texts :=
    hparts.intercalate (by decide)
  exact (Paired.plain_append hhead hassignments).append hclause

theorem table_paired {head : List Lexeme} (hhead : ∀ z ∈ head, z.IsPlain) (table : String)
    {f g : Filter} (h : f.Alike g) :
    Corresponds (fun x y => Paired x y f.texts g.texts) (tableLexemes head table f)
      (tableLexemes head table g) := by
  refine (Corresponds.sanitize table).bind fun name _ ⟨heq, hname⟩ => ?_
  subst heq
  refine (Filter.lexemes_paired h).bind fun x y hclause => .ok ?_
  have hnamed := named_plain (y := []) hhead hname (by decide)
  rw [List.append_nil] at hnamed
  exact Paired.plain_append hnamed hclause

/-- The lexemes of statements that differ in texts only. -/
theorem lexemes_paired (h : a.Alike b) :
    Corresponds (fun x y => Paired x y a.texts b.texts) a.lexemes b.lexemes := by
  cases h with
  | insert table hvalues => exact insert_paired table hvalues
  | update table hvalues hfilter => exact update_paired table hvalues hfilter
  | delete table hfilter => exact table_paired (by decide) table hfilter
  | count table hfilter => exact table_paired (by decide) table hfilter
  | sum table column hfilter =>
      refine (Corresponds.sanitize column).bind fun name _ ⟨heq, hname⟩ => ?_
      subst heq
      have hhead := named_plain (x := [.word "SELECT", .word "SUM", .symbol "("])
        (y := [.symbol ")", .word "AS", .word "total", .word "FROM"]) (by decide) hname (by decide)
      exact table_paired hhead table hfilter

/-- Two statements that differ in texts only fail with one error, or both are built. Then they are
lexed into the same lexemes but for the contents of text literals, which are the given texts, and
every other lexeme is a word of name characters or a symbol of the statements. -/
theorem texts_keep_structure (h : a.Alike b) (d : Dialect) :
    Corresponds (fun s t =>
        (d.lex s.toList).map Lexeme.mask = (d.lex t.toList).map Lexeme.mask
        ∧ (d.lex s.toList).filterMap Lexeme.contents? = a.texts
        ∧ (d.lex t.toList).filterMap Lexeme.contents? = b.texts
        ∧ (∀ x ∈ d.lex s.toList, x.IsPlain ∨ ∃ c, x = .literal c)
        ∧ ∀ x ∈ d.lex t.toList, x.IsPlain ∨ ∃ c, x = .literal c)
      (a.sql d) (b.sql d) := by
  -- Each text is read as its lexemes, and the lexemes of the two statements are paired.
  have hpaired := ((sql_reads a d).trans (lexemes_paired h)).trans (sql_reads b d).symm
  refine hpaired.mono ?_
  rintro s t ⟨y, ⟨x, hs, hxy⟩, ht⟩
  rw [hs.lex_eq, ht.lex_eq]
  exact ⟨hxy.mask_eq, hxy.contents_eq, hxy.symm.contents_eq, hxy.plain_or_literal,
    hxy.symm.plain_or_literal⟩

/-- An update with harmless texts. -/
def mildUpdate : RowStatement :=
  .update "users" ⟨[("note", .text "x"), ("seen", .text "NOW()")]⟩
    ⟨[("OR", .group [("name", .anyOf [.text "a", .int 7]), ("mail[~]", .one (.text "b"))])]⟩

/-- The same update with texts that try to be more than texts. -/
def wildUpdate : RowStatement :=
  .update "users" ⟨[("note", .text "x'; DROP TABLE users; -- "), ("seen", .text "NOW()")]⟩
    ⟨[("OR", .group [("name", .anyOf [.text "\\", .int 7]), ("mail[~]", .one (.text "' OR '"))])]⟩

theorem wild_update_keeps_structure :
    mildUpdate.Alike wildUpdate
    ∧ ∃ s t, mildUpdate.sql .mysql = .ok s ∧ wildUpdate.sql .mysql = .ok t
      ∧ (Dialect.mysql.lex s.toList).map mask = (Dialect.mysql.lex t.toList).map mask
      ∧ (Dialect.mysql.lex t.toList).filterMap contents?
        = ["x'; DROP TABLE users; -- ", "\\", "%' OR '%"] := by
  have hvalues : Assignments.Alike ⟨[("note", .text "x"), ("seen", .text "NOW()")]⟩
      ⟨[("note", .text "x'; DROP TABLE users; -- "), ("seen", .text "NOW()")]⟩ :=
    .cons ⟨rfl, .texts (.inr (by decide))⟩ (.cons ⟨rfl, .same _⟩ .nil)
  have halike : mildUpdate.Alike wildUpdate := by
    refine .update "users" hvalues (.cons (.group (.cons (.anyOf ?_) (.cons (.one ?_) .nil))) .nil)
    · exact .cons (.texts (.inr (by decide))) (.cons (.same _) .nil)
    · exact .texts (.inl rfl)
  have hsame := texts_keep_structure halike .mysql
  have hmild : mildUpdate.sql .mysql = .ok ("UPDATE users SET note = 'x', seen = NOW() "
      ++ "WHERE ( ( name = 'a' OR name = 7 ) OR mail LIKE '%b%' )") := by rfl
  have hwild : wildUpdate.sql .mysql = .ok ("UPDATE users SET note = 'x\\'; DROP TABLE users; "
      ++ "-- ', seen = NOW() WHERE ( ( name = '\\\\' OR name = 7 ) "
      ++ "OR mail LIKE '%\\' OR \\'%' )") := by rfl
  rw [hmild, hwild] at hsame
  cases hsame with
  | ok hsame => exact ⟨halike, _, _, hmild, hwild, hsame.1, hsame.2.2.1⟩

end RowStatement

end SchemaKeeper
