import Mathlib.Data.List.Forall2
import Mathlib.Data.List.TakeWhile
import SchemaKeeper.Proofs.Statement.Condition

/-!
# The grammar of filters

A document is read as a filter in two passes, of which the first one reads the values and the
second one the keys. The grammar here knows nothing of the passes: `Filter.Admits` says which
members a filter may have, and `ConditionTree.Describes` which node a member stands for. Both rest
on relations for the parts of a member: `Text.Trims` and `Comparison.Splits` for its key,
`Scalar.Denotes` and `Operand.Denotes` for its value. `Filter.accepted_by_grammar` shows that the
two passes together accept just the grammar, and build the trees that it describes.
-/

namespace SchemaKeeper

theorem except_bind_ok_iff {ε α β : Type} {r : Except ε α} {f : α → Except ε β} {b : β} :
    (r >>= f) = .ok b ↔ ∃ a, r = .ok a ∧ f a = .ok b := by
  cases r with
  | error e => exact ⟨nofun, fun ⟨a, h, _⟩ => nomatch h⟩
  | ok a =>
      refine ⟨fun h => ⟨a, rfl, h⟩, ?_⟩
      rintro ⟨_, ⟨⟩, h⟩
      exact h

namespace Identifier

/-- The characters of names: ASCII letters, digits, the underscore and the point. -/
def IsWordChar (c : Char) : Prop :=
  'a' ≤ c ∧ c ≤ 'z' ∨ 'A' ≤ c ∧ c ≤ 'Z' ∨ '0' ≤ c ∧ c ≤ '9' ∨ c = '_' ∨ c = '.'

instance : DecidablePred IsWordChar :=
  fun c => inferInstanceAs (Decidable ('a' ≤ c ∧ c ≤ 'z' ∨ _))

theorem is_name_char_iff (c : Char) : isNameChar c = true ↔ IsWordChar c := by
  have hkinds : isNameChar c =
      (((c.isUpper || c.isLower) || c.isDigit) || c == '_' || c == '.') := rfl
  have hupper : c.isUpper = true ↔ 'A' ≤ c ∧ c ≤ 'Z' := decide_eq_true_iff
  have hrange : ∀ first last : Char,
      (decide (first ≤ c) && decide (c ≤ last)) = true ↔ first ≤ c ∧ c ≤ last := by
    simp
  have hlower : c.isLower = true ↔ 'a' ≤ c ∧ c ≤ 'z' := hrange 'a' 'z'
  have hdigit : c.isDigit = true ↔ '0' ≤ c ∧ c ≤ '9' := hrange '0' '9'
  simp only [hkinds, Bool.or_eq_true, hupper, hlower, hdigit, beq_iff_eq, or_assoc]
  exact or_left_comm

/-- A name is cleaned to its word characters, of which it must have one. -/
theorem sanitize_iff {raw column : String} : sanitize raw = .ok column ↔
    (∃ c ∈ raw.toList, IsWordChar c) ∧
      column = String.ofList (raw.toList.filter fun c => IsWordChar c) := by
  have hkeep : keep raw.toList = raw.toList.filter fun c => IsWordChar c :=
    List.filter_congr fun c _ => by simp only [← is_name_char_iff, Bool.decide_eq_true]
  have hempty : (keep raw.toList).isEmpty = false ↔ ∃ c ∈ raw.toList, IsWordChar c := by
    simp only [← is_name_char_iff, List.isEmpty_eq_false_iff_exists_mem, keep, List.mem_filter]
  rw [← hempty, ← hkeep, sanitize]
  cases hkept : (keep raw.toList).isEmpty <;> simp [eq_comm]

theorem sanitize_of_list {column : List Char} (h : ∃ c ∈ column, IsWordChar c) :
    sanitize (String.ofList column) =
      .ok (String.ofList (column.filter fun c => IsWordChar c)) := by
  rw [sanitize_iff, String.toList_ofList]
  exact ⟨h, rfl⟩

end Identifier

namespace Text

/-- A text without the blanks at its ends. -/
structure Trims (s trimmed : List Char) : Prop where
  ends : ∃ lead trail, s = lead ++ (trimmed ++ trail) ∧ (∀ c ∈ lead, isBlank c = true) ∧
    ∀ c ∈ trail, isBlank c = true
  first : ∀ c, trimmed.head? = some c → isBlank c = false
  last : ∀ c, trimmed.getLast? = some c → isBlank c = false

/-- What satisfies a property is dropped, up to the first that does not. -/
theorem drop_while_append {p : Char → Bool} {lead rest : List Char} (hlead : ∀ c ∈ lead, p c = true)
    (hrest : ∀ c, rest.head? = some c → p c = false) : (lead ++ rest).dropWhile p = rest := by
  rw [List.dropWhile_append_of_pos hlead]
  cases rest with
  | nil => rfl
  | cons c rest => exact List.dropWhile_cons_of_neg (by simp [hrest c rfl])

/-- The first that is left does not satisfy the property. -/
theorem head_drop_while {p : Char → Bool} {s : List Char} {c : Char}
    (h : (s.dropWhile p).head? = some c) : p c = false := by
  have hfirst := List.head?_dropWhile_not p s
  rwa [h] at hfirst

/-- What stands in front of the first of these characters. -/
theorem take_until {c : Char} {before after : List Char} (h : c ∉ before) :
    (before ++ c :: after).takeWhile (· ≠ c) = before := by
  have hne : ∀ d ∈ before, decide (d ≠ c) = true :=
    fun d hd => decide_eq_true fun heq => h (heq ▸ hd)
  rw [List.takeWhile_append_of_pos hne, List.takeWhile_cons_of_neg (by simp), List.append_nil]

/-- The first of these characters, and what follows it. -/
theorem drop_until {c : Char} {before after : List Char} (h : c ∉ before) :
    (before ++ c :: after).dropWhile (· ≠ c) = c :: after := by
  refine drop_while_append (fun d hd => decide_eq_true fun heq => h (heq ▸ hd)) fun d hd => ?_
  cases hd
  simp

/-- What is no blank is not among blanks. -/
theorem not_mem_blanks {blanks : List Char} (h : ∀ c ∈ blanks, isBlank c = true) {c : Char}
    (hc : isBlank c = false) : c ∉ blanks :=
  fun hmem => Bool.eq_false_iff.mp hc (h c hmem)

theorem Trims.of_trim_chars (s : List Char) : Trims s (trimChars s) := by
  have hstart : s.takeWhile isBlank ++ trimStart s = s := List.takeWhile_append_dropWhile
  have hend : trimChars s ++ ((trimStart s).reverse.takeWhile isBlank).reverse = trimStart s := by
    rw [trimChars, trimEnd, ← List.reverse_append, List.takeWhile_append_dropWhile,
      List.reverse_reverse]
  refine ⟨⟨_, _, by rw [hend, hstart], fun _ => List.mem_takeWhile_imp, fun c hc => ?_⟩, ?_, ?_⟩
  · exact List.mem_takeWhile_imp (List.mem_reverse.mp hc)
  · intro c hc
    have hfirst : (trimStart s).head? = some c := by
      rw [← hend, List.head?_append, hc, Option.some_or]
    exact head_drop_while hfirst
  · intro c hc
    rw [trimChars, trimEnd, List.getLast?_reverse] at hc
    exact head_drop_while hc

theorem Trims.trim_chars {s trimmed : List Char} (h : Trims s trimmed) : trimChars s = trimmed := by
  obtain ⟨⟨lead, trail, rfl, hlead, htrail⟩, hfirst, hlast⟩ := h
  have hend : trimEnd (trimmed ++ trail) = trimmed := by
    have hblank : ∀ c ∈ trail.reverse, isBlank c = true :=
      fun c hc => htrail c (List.mem_reverse.mp hc)
    rw [trimEnd, List.reverse_append, drop_while_append hblank, List.reverse_reverse]
    rwa [List.head?_reverse]
  cases trimmed with
  | nil =>
      have hblank : trimStart (lead ++ trail) = [] :=
        List.dropWhile_eq_nil_iff.mpr (List.forall_mem_append.mpr ⟨hlead, htrail⟩)
      rw [List.nil_append, trimChars, hblank]
      rfl
  | cons c rest =>
      have hstart : trimStart (lead ++ (c :: rest ++ trail)) = c :: rest ++ trail :=
        drop_while_append hlead hfirst
      rw [trimChars, hstart, hend]

end Text

namespace Comparison

/-- The suffixes that name a comparison. -/
def suffixes : List (List Char × Comparison) :=
  [(['!'], .ne), (['>'], .gt), (['>', '='], .ge), (['<'], .lt), (['<', '='], .le), (['~'], .like)]

/-- The comparison that a suffix asks for: the one that it names, or equality if it names none. -/
def AsksFor (suffix : List Char) (op : Comparison) : Prop :=
  (suffix, op) ∈ suffixes ∨ op = .eq ∧ ∀ op', (suffix, op') ∉ suffixes

theorem of_suffix_iff {suffix : List Char} {op : Comparison} :
    ofSuffix? suffix = some op ↔ (suffix, op) ∈ suffixes := by
  constructor
  · intro h
    unfold ofSuffix? at h
    split at h <;> cases h <;> simp [suffixes]
  · intro h
    simp only [suffixes, List.mem_cons, Prod.mk.injEq, List.not_mem_nil, or_false] at h
    rcases h with ⟨rfl, rfl⟩ | ⟨rfl, rfl⟩ | ⟨rfl, rfl⟩ | ⟨rfl, rfl⟩ | ⟨rfl, rfl⟩ | ⟨rfl, rfl⟩
    all_goals rfl

theorem asks_for_iff {suffix : List Char} {op : Comparison} :
    AsksFor suffix op ↔ (ofSuffix? suffix).getD .eq = op := by
  unfold AsksFor
  simp only [← of_suffix_iff]
  cases ofSuffix? suffix with
  | none => simp [eq_comm]
  | some named => simp

/-- A key falls into its column part and the comparison that it asks for. A suffix in brackets is
cut off from the last opening bracket on. -/
inductive Splits (key : List Char) : List Char → Comparison → Prop where
  | suffixed {column suffix : List Char} {op : Comparison}
      (htrims : Text.Trims key (column ++ '[' :: (suffix ++ [']']))) (hlast : '[' ∉ suffix)
      (hop : AsksFor suffix op) : Splits key column op
  | plain {column : List Char} (htrims : Text.Trims key column)
      (hplain : ∀ before suffix, column ≠ before ++ '[' :: (suffix ++ [']'])) :
      Splits key column .eq

theorem cut_of_free {s : List Char} (h : '[' ∉ s) : cutAtBracket? s = none := by
  induction s with
  | nil => rfl
  | cons c rest ih =>
      rw [List.mem_cons, not_or] at h
      rw [cutAtBracket?, ih h.2]
      exact if_neg (Ne.symm h.1)

/-- The bracket at which a text is cut is the last one. -/
theorem cut_append {suffix : List Char} (h : '[' ∉ suffix) (column : List Char) :
    cutAtBracket? (column ++ '[' :: suffix) = some (column, suffix) := by
  induction column with
  | nil =>
      rw [List.nil_append, cutAtBracket?, cut_of_free h]
      rfl
  | cons c column ih =>
      rw [List.cons_append, cutAtBracket?, ih]

/-- A text with a bracket has a last one. -/
theorem exists_last_bracket {s : List Char} (h : '[' ∈ s) :
    ∃ column suffix, s = column ++ '[' :: suffix ∧ '[' ∉ suffix := by
  obtain ⟨before, after, hs, hbefore⟩ := List.eq_append_cons_of_mem (List.mem_reverse.mpr h)
  refine ⟨after.reverse, before.reverse, ?_, fun hmem => hbefore (List.mem_reverse.mp hmem)⟩
  rw [← List.reverse_reverse s, hs]
  simp

theorem Splits.split_chars {key column : List Char} {op : Comparison} (h : Splits key column op) :
    splitChars key = (column, op) := by
  unfold splitChars
  cases h with
  | @suffixed suffix _ htrims hlast hop =>
      have hbody : column ++ '[' :: (suffix ++ [']']) = (column ++ '[' :: suffix) ++ [']'] := by
        simp
      rw [htrims.trim_chars, hbody]
      simp only [List.getLast?_concat, List.dropLast_concat, if_true]
      rw [cut_append hlast]
      exact congrArg (column, ·) (asks_for_iff.mp hop)
  | plain htrims hplain =>
      rw [htrims.trim_chars]
      by_cases hclosed : column.getLast? = some ']'
      · obtain ⟨body, rfl⟩ := List.getLast?_eq_some_iff.mp hclosed
        have hfree : '[' ∉ body := by
          intro hbracket
          obtain ⟨before, suffix, rfl, -⟩ := exists_last_bracket hbracket
          exact hplain before suffix (by simp)
        simp only [List.getLast?_concat, List.dropLast_concat, if_true]
        rw [cut_of_free hfree]
      · exact if_neg hclosed

theorem Splits.split_key {key : String} {column : List Char} {op : Comparison}
    (h : Splits key.toList column op) : splitKey key = (String.ofList column, op) := by
  rw [splitKey, h.split_chars]

/-- Every key falls into parts. -/
theorem exists_splits (key : List Char) : ∃ column op, Splits key column op := by
  have htrims := Text.Trims.of_trim_chars key
  by_cases h : ∃ before suffix, Text.trimChars key = before ++ '[' :: (suffix ++ [']'])
  · obtain ⟨before, suffix, hkey⟩ := h
    have hbracket : '[' ∈ before ++ '[' :: suffix := List.mem_append_right _ List.mem_cons_self
    obtain ⟨column, suffix', hcut, hlast⟩ := exists_last_bracket hbracket
    refine ⟨column, (ofSuffix? suffix').getD .eq, .suffixed ?_ hlast (asks_for_iff.mpr rfl)⟩
    rwa [hkey, ← List.cons_append, ← List.append_assoc, hcut, List.append_assoc,
      List.cons_append] at htrims
  · refine ⟨_, .eq, .plain htrims fun before suffix hkey => h ⟨before, suffix, hkey⟩⟩

end Comparison

namespace Json

/-- The value is a text or a number. -/
def IsScalar : Json → Prop
  | .text _ | .integer _ | .real _ => True
  | _ => False

/-- The value is a text or a number, or an array of texts and numbers. -/
def IsOperand (v : Json) : Prop :=
  v.IsScalar ∨ ∃ items, v = .array items ∧ ∀ item ∈ items, item.IsScalar

end Json

namespace Scalar

/-- The scalar that a text or a number of a document is. An integer beyond the signed range of 64
bits is the nearest double. -/
inductive Denotes : Json → Scalar → Prop where
  | text (s : String) : Denotes (.text s) (.text s)
  | integer (n : Int64) : Denotes (.integer n.toInt) (.int n)
  | beyond {i : Int} (h : ∀ n : Int64, n.toInt ≠ i) :
      Denotes (.integer i) (.float (Binary64.ofInt i))
  | real (x : Binary64) : Denotes (.real x) (.float x)

theorem of_json_integer (n : Int64) : ofJson (.integer n.toInt) = .ok (.int n) := by
  have hrange : -int64Half ≤ n.toInt ∧ n.toInt < int64Half := ⟨n.le_toInt, n.toInt_lt⟩
  simp [ofJson, int64?, hrange]

theorem of_json_beyond {i : Int} (h : ∀ n : Int64, n.toInt ≠ i) :
    ofJson (.integer i) = .ok (.float (Binary64.ofInt i)) := by
  have hrange : ¬ (-int64Half ≤ i ∧ i < int64Half) := by
    rintro ⟨hlow, hhigh⟩
    exact h (.ofInt i) (Int64.toInt_ofInt_of_le hlow hhigh)
  simp [ofJson, int64?, hrange]

theorem denotes_iff {v : Json} {s : Scalar} : Denotes v s ↔ ofJson v = .ok s := by
  constructor
  · rintro (s | n | h | x)
    · rfl
    · exact of_json_integer n
    · exact of_json_beyond h
    · rfl
  · intro h
    cases v with
    | integer i =>
        by_cases hwithin : ∃ n : Int64, n.toInt = i
        · obtain ⟨n, rfl⟩ := hwithin
          rw [of_json_integer] at h
          cases h
          exact .integer n
        · have hbeyond := not_exists.mp hwithin
          rw [of_json_beyond hbeyond] at h
          cases h
          exact .beyond hbeyond
    | text s =>
        cases h
        exact .text s
    | real x =>
        cases h
        exact .real x
    | _ => cases h

/-- The texts and numbers of documents are just what scalars are made of. -/
theorem exists_denotes {v : Json} : (∃ s, Denotes v s) ↔ v.IsScalar := by
  constructor
  · rintro ⟨_, s | n | h | x⟩ <;> trivial
  · intro h
    simp only [denotes_iff]
    cases v with
    | text s => exact ⟨.text s, rfl⟩
    | real x => exact ⟨.float x, rfl⟩
    | integer i =>
        rw [ofJson]
        cases int64? i with
        | some n => exact ⟨.int n, rfl⟩
        | none => exact ⟨.float (Binary64.ofInt i), rfl⟩
    | _ => cases h

end Scalar

/-- The operand that a value of a document is: one scalar, or an array of them in order. -/
inductive Operand.Denotes : Json → Operand → Prop where
  | one {v : Json} {s : Scalar} (h : Scalar.Denotes v s) : Denotes v (.one s)
  | anyOf {items : List Json} {values : List Scalar}
      (h : List.Forall₂ Scalar.Denotes items values) :
      Denotes (.array items) (.anyOf values)

/-- What is related to something, one by one, is related to a list. -/
theorem exists_forall₂_iff {α β : Type} {R : α → β → Prop} {items : List α} :
    (∃ results, List.Forall₂ R items results) ↔ ∀ item ∈ items, ∃ result, R item result := by
  induction items with
  | nil => exact ⟨fun _ => List.forall_mem_nil _, fun _ => ⟨[], .nil⟩⟩
  | cons item rest ih =>
      rw [List.forall_mem_cons, ← ih]
      constructor
      · rintro ⟨_, h⟩
        cases h with
        | cons hitem hrest => exact ⟨⟨_, hitem⟩, _, hrest⟩
      · rintro ⟨⟨result, hitem⟩, results, hrest⟩
        exact ⟨result :: results, .cons hitem hrest⟩

/-- The values that operands are made of. -/
theorem Operand.exists_denotes {v : Json} : (∃ operand, Denotes v operand) ↔ v.IsOperand := by
  unfold Json.IsOperand
  simp only [← Scalar.exists_denotes, ← exists_forall₂_iff]
  constructor
  · rintro ⟨_, h | h⟩
    · exact .inl ⟨_, h⟩
    · exact .inr ⟨_, rfl, _, h⟩
  · rintro (⟨s, h⟩ | ⟨items, rfl, values, h⟩)
    · exact ⟨.one s, .one h⟩
    · exact ⟨.anyOf values, .anyOf h⟩

namespace Filter

theorem scalars_of_json_iff {items : List Json} {values : List Scalar} :
    scalarsOfJson items = .ok values ↔ List.Forall₂ Scalar.Denotes items values := by
  induction items generalizing values with
  | nil =>
      rw [List.forall₂_nil_left_iff]
      exact ⟨fun h => by cases h; rfl, by rintro rfl; rfl⟩
  | cons item rest ih =>
      rw [scalarsOfJson, except_bind_ok_iff, List.forall₂_cons_left_iff]
      constructor
      · rintro ⟨value, hvalue, h⟩
        obtain ⟨values', hvalues, hend⟩ := except_bind_ok_iff.mp h
        cases hend
        exact ⟨value, values', Scalar.denotes_iff.mpr hvalue, ih.mp hvalues, rfl⟩
      · rintro ⟨value, values', hvalue, hvalues, rfl⟩
        refine ⟨value, Scalar.denotes_iff.mp hvalue, except_bind_ok_iff.mpr ⟨values', ?_, rfl⟩⟩
        exact ih.mpr hvalues

/-- A value that is no object is read as an operand or not at all. -/
theorem operand_of_json_iff {v : Json} {operand : Operand} : Operand.Denotes v operand ↔
    ∃ value, valueOfJson v = .ok value ∧ value.operand? = some operand := by
  constructor
  · rintro (@⟨_, s, h⟩ | h)
    · refine ⟨.one s, ?_, rfl⟩
      have hscalar := Scalar.denotes_iff.mp h
      cases h <;> simp [valueOfJson, hscalar]
    · exact ⟨.anyOf _, by rw [valueOfJson, scalars_of_json_iff.mpr h]; rfl, rfl⟩
  · rintro ⟨value, hvalue, hoperand⟩
    cases v with
    | object members =>
        rw [valueOfJson] at hvalue
        obtain ⟨entries, -, hend⟩ := except_bind_ok_iff.mp hvalue
        cases hend
        cases hoperand
    | array items =>
        rw [valueOfJson] at hvalue
        obtain ⟨values, hvalues, hend⟩ := except_bind_ok_iff.mp hvalue
        cases hend
        cases hoperand
        exact .anyOf (scalars_of_json_iff.mp hvalues)
    | null | bool | integer | real | text =>
        simp only [valueOfJson] at hvalue
        obtain ⟨s, hs, hend⟩ := except_bind_ok_iff.mp hvalue
        cases hend
        cases hoperand
        exact .one (Scalar.denotes_iff.mpr hs)

/-- What is read of a value that is no object is no group. -/
theorem operand_of_value {v : Json} {value : FilterValue} (h : valueOfJson v = .ok value)
    (hv : ∀ members, v ≠ .object members) : ∃ operand, value.operand? = some operand := by
  cases v with
  | object members => exact absurd rfl (hv members)
  | array | null | bool | integer | real | text =>
      simp only [valueOfJson] at h
      obtain ⟨_, -, hend⟩ := except_bind_ok_iff.mp h
      cases hend
      exact ⟨_, rfl⟩

/-- The member may stand in a filter: it nests another filter under a conjunction, or it compares a
column that has a name with values. -/
inductive Admits : String → Json → Prop where
  | group {key : String} {members : List (String × Json)} (hkey : key = "AND" ∨ key = "OR")
      (hmembers : ∀ member ∈ members, Admits member.1 member.2) : Admits key (.object members)
  | column {key : String} {value : Json} {column : List Char} {op : Comparison}
      (hand : key ≠ "AND") (hor : key ≠ "OR") (hsplits : Comparison.Splits key.toList column op)
      (hname : ∃ c ∈ column, Identifier.IsWordChar c) (hvalue : value.IsOperand) :
      Admits key value

/-- The document is a filter: an object all of whose members may stand in one. -/
def IsFilter (v : Json) : Prop :=
  ∃ members, v = .object members ∧ ∀ member ∈ members, Admits member.1 member.2

end Filter

namespace ConditionTree

mutual

/-- The node that a member of a filter stands for. -/
inductive Describes : String → Json → ConditionTree → Prop where
  | group {members : List (String × Json)} {children : List ConditionTree}
      (conjunction : Conjunction) (hmembers : DescribesAll members children) :
      Describes conjunction.keyword (.object members) (.group conjunction children)
  | condition {key : String} {value : Json} {column : List Char} {op : Comparison}
      {operand : Operand} (hand : key ≠ "AND") (hor : key ≠ "OR")
      (hsplits : Comparison.Splits key.toList column op)
      (hname : ∃ c ∈ column, Identifier.IsWordChar c) (hvalue : Operand.Denotes value operand) :
      Describes key value
        (.condition (String.ofList (column.filter fun c => Identifier.IsWordChar c)) op operand)

/-- The nodes that the members of a filter stand for, one for each in their order. -/
inductive DescribesAll : List (String × Json) → List ConditionTree → Prop where
  | nil : DescribesAll [] []
  | cons {key : String} {value : Json} {rest : List (String × Json)} {node : ConditionTree}
      {nodes : List ConditionTree} (hnode : Describes key value node)
      (hrest : DescribesAll rest nodes) :
      DescribesAll ((key, value) :: rest) (node :: nodes)

end

theorem of_key_keyword (c : Conjunction) : Conjunction.ofKey? c.keyword = some c := by
  cases c <;> rfl

theorem keyword_of_key {key : String} {c : Conjunction} (h : Conjunction.ofKey? key = some c) :
    key = c.keyword := by
  unfold Conjunction.ofKey? at h
  split_ifs at h <;> cases h <;> assumption

theorem of_key_none_iff {key : String} :
    Conjunction.ofKey? key = none ↔ key ≠ "AND" ∧ key ≠ "OR" := by
  unfold Conjunction.ofKey?
  split_ifs <;> simp [*]

mutual

/-- A member that stands for a node is read as this node. -/
theorem Describes.read {key : String} {value : Json} {node : ConditionTree}
    (h : Describes key value node) :
    (Filter.valueOfJson value >>= ofEntry key) = .ok node := by
  cases h with
  | group conjunction hmembers =>
      obtain ⟨entries, hentries, hchildren⟩ := except_bind_ok_iff.mp hmembers.read
      refine except_bind_ok_iff.mpr ⟨.group entries, ?_, ?_⟩
      · rw [Filter.valueOfJson, hentries]
        rfl
      · rw [of_entry_group (of_key_keyword conjunction), hchildren]
        rfl
  | condition hand hor hsplits hname hvalue =>
      obtain ⟨filterValue, hread, hoperand⟩ := Filter.operand_of_json_iff.mp hvalue
      refine except_bind_ok_iff.mpr ⟨filterValue, hread, ?_⟩
      rw [of_entry_column (of_key_none_iff.mpr ⟨hand, hor⟩), hoperand, hsplits.split_key,
        Identifier.sanitize_of_list hname]
      rfl

/-- Members that stand for nodes are read as these. -/
theorem DescribesAll.read {members : List (String × Json)} {children : List ConditionTree}
    (h : DescribesAll members children) :
    (Filter.entriesOfJson members >>= ofEntries) = .ok children := by
  cases h with
  | nil => rfl
  | cons hnode hrest =>
      obtain ⟨value, hvalue, hnode⟩ := except_bind_ok_iff.mp hnode.read
      obtain ⟨entries, hentries, hnodes⟩ := except_bind_ok_iff.mp hrest.read
      rw [Filter.entriesOfJson, hvalue, hentries]
      show ofEntries ((_, value) :: entries) = _
      rw [ofEntries, hnode, hnodes]
      rfl

end

mutual

/-- A member is read only as a node that it stands for. -/
theorem describes_of_read {key : String} {value : Json} {node : ConditionTree}
    (h : (Filter.valueOfJson value >>= ofEntry key) = .ok node) : Describes key value node := by
  obtain ⟨filterValue, hvalue, hnode⟩ := except_bind_ok_iff.mp h
  cases hkey : Conjunction.ofKey? key with
  | some conjunction =>
      obtain rfl := keyword_of_key hkey
      cases value with
      | object members =>
          rw [Filter.valueOfJson] at hvalue
          obtain ⟨entries, hentries, hend⟩ := except_bind_ok_iff.mp hvalue
          cases hend
          rw [of_entry_group hkey] at hnode
          cases hchildren : ofEntries entries with
          | error e => rw [hchildren] at hnode; cases hnode
          | ok children =>
              rw [hchildren] at hnode
              cases hnode
              exact .group conjunction
                (describes_all_of_read (except_bind_ok_iff.mpr ⟨entries, hentries, hchildren⟩))
      | array | null | bool | integer | real | text =>
          obtain ⟨operand, hoperand⟩ := Filter.operand_of_value hvalue nofun
          rw [of_entry_misplaced hkey hoperand] at hnode
          cases hnode
  | none =>
      obtain ⟨column, op, hsplits⟩ := Comparison.exists_splits key.toList
      rw [of_entry_column hkey, hsplits.split_key] at hnode
      obtain ⟨name, hname, hnode⟩ := except_bind_ok_iff.mp hnode
      obtain ⟨hword, rfl⟩ := Identifier.sanitize_iff.mp hname
      cases hoperand : filterValue.operand? with
      | none => rw [hoperand] at hnode; cases hnode
      | some operand =>
          rw [hoperand] at hnode
          cases hnode
          obtain ⟨hand, hor⟩ := of_key_none_iff.mp hkey
          rw [String.toList_ofList] at hword ⊢
          exact .condition hand hor hsplits hword
            (Filter.operand_of_json_iff.mpr ⟨filterValue, hvalue, hoperand⟩)

theorem describes_all_of_read {members : List (String × Json)} {children : List ConditionTree}
    (h : (Filter.entriesOfJson members >>= ofEntries) = .ok children) :
    DescribesAll members children := by
  cases members with
  | nil =>
      cases h
      exact .nil
  | cons member rest =>
      obtain ⟨key, value⟩ := member
      obtain ⟨_, hall, hnodes⟩ := except_bind_ok_iff.mp h
      rw [Filter.entriesOfJson] at hall
      obtain ⟨filterValue, hvalue, hrest⟩ := except_bind_ok_iff.mp hall
      obtain ⟨entries, hentries, hend⟩ := except_bind_ok_iff.mp hrest
      cases hend
      obtain ⟨node, nodes, hnode, hothers, rfl⟩ := of_entries_cons_ok hnodes
      exact .cons (describes_of_read (except_bind_ok_iff.mpr ⟨filterValue, hvalue, hnode⟩))
        (describes_all_of_read (except_bind_ok_iff.mpr ⟨entries, hentries, hothers⟩))

end

mutual

theorem Describes.admits {key : String} {value : Json} {node : ConditionTree}
    (h : Describes key value node) : Filter.Admits key value := by
  cases h with
  | group conjunction hmembers =>
      refine .group ?_ hmembers.admits
      cases conjunction
      · exact .inl rfl
      · exact .inr rfl
  | condition hand hor hsplits hname hvalue =>
      exact .column hand hor hsplits hname (Operand.exists_denotes.mp ⟨_, hvalue⟩)

theorem DescribesAll.admits {members : List (String × Json)} {children : List ConditionTree}
    (h : DescribesAll members children) : ∀ member ∈ members, Filter.Admits member.1 member.2 := by
  cases h with
  | nil => exact List.forall_mem_nil _
  | cons hnode hrest => exact List.forall_mem_cons.mpr ⟨hnode.admits, hrest.admits⟩

end

/-- Members all of which stand for nodes stand for them together. -/
theorem exists_describes_all {members : List (String × Json)}
    (h : ∀ member ∈ members, ∃ node, Describes member.1 member.2 node) :
    ∃ children, DescribesAll members children := by
  induction members with
  | nil => exact ⟨[], .nil⟩
  | cons member rest ih =>
      obtain ⟨⟨node, hnode⟩, hrest⟩ := List.forall_mem_cons.mp h
      obtain ⟨nodes, hnodes⟩ := ih hrest
      exact ⟨node :: nodes, .cons hnode hnodes⟩

/-- A member that a filter may have stands for a node. -/
theorem exists_describes {key : String} {value : Json} (h : Filter.Admits key value) :
    ∃ node, Describes key value node := by
  induction h with
  | group hkey _ ih =>
      obtain ⟨children, hchildren⟩ := exists_describes_all ih
      rcases hkey with rfl | rfl
      · exact ⟨_, .group .and hchildren⟩
      · exact ⟨_, .group .or hchildren⟩
  | column hand hor hsplits hname hvalue =>
      obtain ⟨operand, hoperand⟩ := Operand.exists_denotes.mpr hvalue
      exact ⟨_, .condition hand hor hsplits hname hoperand⟩

end ConditionTree

/-- If this fails, then for a value that does not have the shape that it should, or for a column of
which cleaning leaves nothing. -/
def FailsAsFilter {α : Type} (r : Except BuildError α) : Prop :=
  ∀ e, r = .error e → (∃ fault, e = .valueShape fault) ∨ ∃ raw, e = .emptyIdentifier raw

namespace FailsAsFilter

variable {α β : Type} {r : Except BuildError α} {f : α → Except BuildError β}

protected theorem pure (a : α) : FailsAsFilter (pure a : Except BuildError α) := nofun

theorem of_shape (fault : ValueFault) :
    FailsAsFilter (.error (.valueShape fault) : Except BuildError α) := by
  rintro _ ⟨⟩
  exact .inl ⟨fault, rfl⟩

protected theorem bind (hr : FailsAsFilter r) (hf : ∀ a, FailsAsFilter (f a)) :
    FailsAsFilter (r >>= f) := by
  cases r with
  | error e =>
      rintro _ ⟨⟩
      exact hr e rfl
  | ok a => exact hf a

theorem sanitize (raw : String) : FailsAsFilter (Identifier.sanitize raw) := by
  intro e h
  unfold Identifier.sanitize at h
  dsimp only at h
  split at h <;> cases h
  exact .inr ⟨raw, rfl⟩

theorem scalar (v : Json) : FailsAsFilter (Scalar.ofJson v) := by
  cases v with
  | text | real => exact .pure _
  | integer i =>
      rw [Scalar.ofJson]
      cases int64? i <;> exact .pure _
  | _ => exact of_shape _

theorem scalars (items : List Json) : FailsAsFilter (Filter.scalarsOfJson items) := by
  induction items with
  | nil => exact .pure _
  | cons item rest ih => exact (scalar item).bind fun _ => ih.bind fun _ => .pure _

mutual

theorem value : ∀ v : Json, FailsAsFilter (Filter.valueOfJson v)
  | .object members => by
      rw [Filter.valueOfJson]
      exact (entries members).bind fun _ => .pure _
  | .array items => by
      rw [Filter.valueOfJson]
      exact (scalars items).bind fun _ => .pure _
  | .null | .bool _ | .integer _ | .real _ | .text _ => by
      simp only [Filter.valueOfJson]
      exact (scalar _).bind fun _ => .pure _

theorem entries : ∀ members : List (String × Json), FailsAsFilter (Filter.entriesOfJson members)
  | [] => .pure _
  | (_, v) :: rest => by
      rw [Filter.entriesOfJson]
      exact (value v).bind fun _ => (entries rest).bind fun _ => .pure _

end

/-- A value that compares a column is misplaced under a conjunction; otherwise only the name of the
column can fail. -/
theorem comparison (key : String) {value : FilterValue} {operand : Operand}
    (h : value.operand? = some operand) : FailsAsFilter (ConditionTree.ofEntry key value) := by
  cases hkey : Conjunction.ofKey? key with
  | some c =>
      rw [ConditionTree.of_entry_misplaced hkey h]
      exact of_shape _
  | none =>
      rw [ConditionTree.of_entry_column hkey, h]
      exact (sanitize _).bind fun _ => .pure _

mutual

theorem node (key : String) : ∀ value : FilterValue, FailsAsFilter (ConditionTree.ofEntry key value)
  | .group members => by
      cases hkey : Conjunction.ofKey? key with
      | some c =>
          unfold ConditionTree.ofEntry
          rw [hkey]
          exact (nodes members).bind fun _ => .pure _
      | none =>
          rw [ConditionTree.of_entry_column hkey]
          exact (sanitize _).bind fun _ => of_shape _
  | .one v => comparison key rfl
  | .anyOf vs => comparison key rfl

theorem nodes : ∀ members : List (String × FilterValue),
    FailsAsFilter (ConditionTree.ofEntries members)
  | [] => .pure _
  | (key, v) :: rest => by
      rw [ConditionTree.ofEntries]
      exact (node key v).bind fun _ => (nodes rest).bind fun _ => .pure _

end

end FailsAsFilter

namespace Filter

variable {v : Json} {c : Conjunction}

/-- The tree of a document is the one that its members describe. -/
theorem tree_iff {tree : ConditionTree} :
    (ofJson v >>= ConditionTree.ofFilter c) = .ok tree ↔
      ∃ members children, v = .object members ∧ tree = .group c children ∧
        ConditionTree.DescribesAll members children := by
  constructor
  · intro h
    obtain ⟨f, hf, htree⟩ := except_bind_ok_iff.mp h
    obtain ⟨children, hchildren, hend⟩ := except_bind_ok_iff.mp htree
    cases hend
    cases v with
    | object members =>
        obtain ⟨entries, hentries, hend⟩ := except_bind_ok_iff.mp hf
        cases hend
        exact ⟨members, children, rfl, rfl, ConditionTree.describes_all_of_read
          (except_bind_ok_iff.mpr ⟨entries, hentries, hchildren⟩)⟩
    | _ => cases hf
  · rintro ⟨members, children, rfl, rfl, h⟩
    obtain ⟨entries, hentries, hchildren⟩ := except_bind_ok_iff.mp h.read
    refine except_bind_ok_iff.mpr ⟨⟨entries⟩, ?_, ?_⟩
    · exact except_bind_ok_iff.mpr ⟨entries, hentries, rfl⟩
    · exact except_bind_ok_iff.mpr ⟨children, hchildren, rfl⟩

/-- Documents are accepted as filters exactly by the grammar. The two passes together succeed if and
only if the document is a filter; the tree that they then build is a group under the conjunction
asked for, with the nodes that the members stand for in their order; and they fail only for a value
of the wrong shape or for a column without a name. -/
theorem accepted_by_grammar (v : Json) (c : Conjunction) :
    ((∃ tree, (ofJson v >>= ConditionTree.ofFilter c) = .ok tree) ↔ IsFilter v) ∧
      (∀ tree, (ofJson v >>= ConditionTree.ofFilter c) = .ok tree ↔
        ∃ members children, v = .object members ∧ tree = .group c children ∧
          ConditionTree.DescribesAll members children) ∧
      FailsAsFilter (ofJson v >>= ConditionTree.ofFilter c) := by
  refine ⟨?_, fun tree => tree_iff, ?_⟩
  · constructor
    · rintro ⟨tree, htree⟩
      obtain ⟨members, children, hv, -, hall⟩ := tree_iff.mp htree
      exact ⟨members, hv, hall.admits⟩
    · rintro ⟨members, hv, hadmits⟩
      obtain ⟨children, hall⟩ := ConditionTree.exists_describes_all
        fun member hmember => ConditionTree.exists_describes (hadmits member hmember)
      exact ⟨.group c children, tree_iff.mpr ⟨members, children, hv, rfl, hall⟩⟩
  · have hread : FailsAsFilter (ofJson v) := by
      cases v with
      | object members => exact (FailsAsFilter.entries members).bind fun _ => .pure _
      | _ => exact .of_shape _
    exact hread.bind fun f => (FailsAsFilter.nodes f.entries).bind fun _ => .pure _

end Filter

end SchemaKeeper
