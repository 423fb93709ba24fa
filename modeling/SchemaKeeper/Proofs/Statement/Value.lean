import SchemaKeeper.Proofs.Statement.Lexeme

/-!
# Names and values in statements

A clean name is lexed as one word, and the literal of a text as one literal with the text in it,
whatever the text is. `Dialect.literal_reads` and `Dialect.pattern_reads` say what the values of
comparisons and assignments are lexed as.
-/

namespace SchemaKeeper

namespace Lexeme

theorem name_char_is_word_char {c : Char} (h : Identifier.isNameChar c) : isWordChar c := by
  simp [isWordChar, h]

/-- Words and blanks have no character in common. -/
theorem word_char_not_blank {c : Char} (h : isWordChar c) : isBlank c = false := by
  cases hblank : isBlank c with
  | false => rfl
  | true =>
      simp only [isBlank, Bool.or_eq_true, beq_iff_eq] at hblank
      rcases hblank with ((((rfl | rfl) | rfl) | rfl) | rfl) | rfl <;> revert h <;> decide

/-- A word ends where a delimiter follows. -/
theorem delimited_head {rest : List Char} (h : Dialect.Delimited rest) :
    rest.takeWhile isWordChar = [] ∧ rest.dropWhile isWordChar = rest := by
  cases rest with
  | nil => exact ⟨rfl, rfl⟩
  | cons c rest =>
      have hc := h c rfl
      have hword : isWordChar c = false := by
        simp only [Dialect.delimiters, List.mem_cons, List.not_mem_nil, or_false] at hc
        rcases hc with rfl | rfl | rfl | rfl <;> decide
      exact ⟨List.takeWhile_cons_of_neg (by simp [hword]),
        List.dropWhile_cons_of_neg (by simp [hword])⟩

end Lexeme

namespace Dialect

variable {d : Dialect}

/-- A run of word characters is lexed as one word. -/
theorem word_reads {word : String} (hne : word ≠ "")
    (hchars : ∀ c ∈ word.toList, Lexeme.isWordChar c) : d.Reads word [.word word] := by
  intro rest hrest
  cases hword : word.toList with
  | nil => exact absurd (String.toList_eq_nil_iff.mp hword) hne
  | cons c chars =>
      rw [hword] at hchars
      obtain ⟨hc, hall⟩ := List.forall_mem_cons.mp hchars
      obtain ⟨htake, hdrop⟩ := Lexeme.delimited_head hrest
      have hread : Lexeme.read d c (chars ++ rest) = (some (.word word), rest) := by
        unfold Lexeme.read
        rw [if_neg (by simp [Lexeme.word_char_not_blank hc]), if_pos hc,
          List.takeWhile_append_of_pos hall, List.dropWhile_append_of_pos hall, htake, hdrop,
          List.append_nil, ← hword, String.ofList_toList]
      rw [List.cons_append, lex_cons, hread]
      rfl

theorem name_reads {name : String} (h : Identifier.IsClean name) : d.Reads name [.word name] :=
  word_reads h.1 fun c hc => Lexeme.name_char_is_word_char (h.2 c hc)

section Literals

variable {escapes : Bool} {mark : Char}

/-- A character that means nothing special is read as it is, if something follows. -/
theorem read_quoted_plain {c : Char} {text : List Char} (hmark : c ≠ mark)
    (hescapes : (escapes && c == '\\') = false) (htext : text ≠ []) :
    readQuoted? escapes mark (c :: text)
      = (readQuoted? escapes mark text).map fun (s, after) => (c :: s, after) := by
  cases text with
  | nil => exact absurd rfl htext
  | cons next rest => rw [readQuoted?, if_neg hmark, if_neg (by simp [hescapes])]

/-- A backslash where it escapes is read with the character behind it. -/
theorem read_quoted_escape {c : Char} {text : List Char} (hmark : '\\' ≠ mark) :
    readQuoted? true mark ('\\' :: c :: text)
      = (readQuoted? true mark text).map fun (s, after) => (unescaped c ++ s, after) := by
  rw [readQuoted?, if_neg hmark]
  rfl

/-- A doubled mark is read as one. -/
theorem read_quoted_doubled {text : List Char} :
    readQuoted? escapes mark (mark :: mark :: text)
      = (readQuoted? escapes mark text).map fun (s, after) => (mark :: s, after) := by
  rw [readQuoted?, if_pos rfl, if_pos rfl]

/-- A mark that is not doubled ends the text. -/
theorem read_quoted_close {text : List Char} (h : text.head? ≠ some mark) :
    readQuoted? escapes mark (mark :: text) = some ([], text) := by
  cases text with
  | nil => exact if_pos rfl
  | cons next rest =>
      rw [readQuoted?, if_pos rfl, if_neg]
      rintro rfl
      exact h rfl

end Literals

/-- What a character is escaped to is read back as the character, if something follows. -/
theorem read_escaped_char (d : Dialect) (c : Char) {after : List Char} (hafter : after ≠ []) :
    readQuoted? d.escapes '\'' (d.escapeChar c ++ after)
      = (readQuoted? d.escapes '\'' after).map fun (s, rest) => (c :: s, rest) := by
  cases d with
  | sqlite =>
      by_cases hc : c = '\''
      · subst hc
        exact read_quoted_doubled
      · rw [show escapeChar .sqlite c = [c] from if_neg hc]
        exact read_quoted_plain hc rfl hafter
  | mysql =>
      by_cases hspecial : c ∈ ['\x00', '\n', '\x0d', '\\', '\'', '"', '\x1a']
      · simp only [List.mem_cons, List.not_mem_nil, or_false] at hspecial
        rcases hspecial with rfl | rfl | rfl | rfl | rfl | rfl | rfl
        -- A backslash stands in front of a character that is unescaped to the special one.
        all_goals exact read_quoted_escape (by decide)
      · have hplain : escapeChar .mysql c = [c] := by
          simp only [List.mem_cons, List.not_mem_nil, or_false, not_or] at hspecial
          simp [escapeChar, hspecial]
        simp only [List.mem_cons, List.not_mem_nil, or_false, not_or] at hspecial
        rw [hplain]
        exact read_quoted_plain hspecial.2.2.2.2.1 (by simp [hspecial]) hafter

/-- What a text is escaped to is read back as the text. -/
theorem read_literal_escape (text : List Char) {rest : List Char}
    (hrest : rest.head? ≠ some '\'') :
    d.readLiteral? (text.flatMap d.escapeChar ++ '\'' :: rest) = some (text, rest) := by
  unfold readLiteral?
  induction text with
  | nil => exact read_quoted_close hrest
  | cons c text ih =>
      rw [List.flatMap_cons, List.append_assoc, read_escaped_char d c (by simp), ih]
      rfl

/-- No delimiter is a quote. -/
theorem delimited_head_ne_quote {rest : List Char} (h : Delimited rest) :
    rest.head? ≠ some '\'' := by
  intro hquote
  exact absurd (h '\'' hquote) (by decide)

/-- The literal of a text is one literal with the text in it. -/
theorem quote_reads (d : Dialect) (text : String) : d.Reads (d.quote text) [.literal text] := by
  intro rest hrest
  have htext : (d.quote text).toList ++ rest
      = '\'' :: (text.toList.flatMap d.escapeChar ++ '\'' :: rest) := by
    simp [quote, escape]
  have hread : Lexeme.read d '\'' (text.toList.flatMap d.escapeChar ++ '\'' :: rest)
      = Lexeme.between .literal
        (d.readLiteral? (text.toList.flatMap d.escapeChar ++ '\'' :: rest)) := rfl
  -- No delimiter is a quote, so that the closing one is not taken for half of a doubled one.
  rw [htext, lex_cons, hread, read_literal_escape _ (delimited_head_ne_quote hrest)]
  simp [Lexeme.between]

/-- A pattern is the literal of the text with a percent sign on both sides. -/
theorem pattern_eq_quote (d : Dialect) (v : Scalar) :
    d.pattern v = d.quote ("%" ++ v.display ++ "%") := by
  have hpercent : d.escapeChar '%' = ['%'] := by cases d <;> rfl
  apply String.toList_inj.mp
  simp [pattern, quote, escape, hpercent]

end Dialect

namespace Number

/-- The characters of a number without its sign. -/
def IsUnsigned (digits : List Char) : Prop := digits ≠ [] ∧ ∀ c ∈ digits, c.isDigit ∨ c = '.'

instance (digits : List Char) : Decidable (IsUnsigned digits) :=
  @instDecidableAnd _ _ _ (List.decidableBAll (fun c => c.isDigit ∨ c = '.') digits)

theorem name_char_of_unsigned {c : Char} (h : c.isDigit ∨ c = '.') : Identifier.isNameChar c := by
  rcases h with h | rfl
  · simp [Identifier.isNameChar, Char.isAlphanum, h]
  · decide

theorem digits_of_unsigned (n : Nat) : IsUnsigned (digitsOf n) :=
  ⟨Nat.toDigits_ne_nil, fun _ hc => .inl (Nat.isDigit_of_mem_toDigits (by decide) (by decide) hc)⟩

/-- A decimal that is set positionally is made of digits and a point. -/
theorem plain_unsigned (d : Decimal) : IsUnsigned (plain sqlLayout d) := by
  obtain ⟨hne, hdigits⟩ := digits_of_unsigned d.digits
  have hzeros : ∀ n, ∀ c ∈ List.replicate n '0', c.isDigit ∨ c = '.' := fun n c hc =>
    .inl (by rw [List.eq_of_mem_replicate hc]; decide)
  unfold plain
  split
  · refine ⟨by simp [hne], fun c hc => ?_⟩
    rw [show (if sqlLayout.pointZero then ['.', '0'] else []) = [] from rfl, List.append_nil,
      List.mem_append] at hc
    exact hc.elim (hdigits c) (hzeros _ c)
  · dsimp only
    refine ⟨by simp, fun c hc => ?_⟩
    rw [List.mem_append, List.mem_cons] at hc
    have hpadded : ∀ c ∈ List.replicate ((-d.exponent).toNat + 1 - (digitsOf d.digits).length) '0'
        ++ digitsOf d.digits, c.isDigit ∨ c = '.' := fun c hc =>
      (List.mem_append.mp hc).elim (hzeros _ c) (hdigits c)
    rcases hc with hc | rfl | hc
    · exact hpadded c (List.mem_of_mem_take hc)
    · exact .inr rfl
    · exact hpadded c (List.mem_of_mem_drop hc)

theorem magnitude_text_unsigned (rank : Nat) : IsUnsigned (magnitudeText sqlLayout rank) := by
  unfold magnitudeText
  split
  · exact plain_unsigned _
  · exact plain_unsigned _

/-- An integer is written as its sign, if it has one, and its digits. -/
theorem to_string_int (i : Int) : toString i =
    String.ofList ((if decide (i < 0) then ['-'] else []) ++ digitsOf i.natAbs) := by
  rw [Int.toString_eq_repr, Int.repr_eq_if]
  by_cases h : i < 0
  · rw [if_neg (by omega), decide_eq_true h, if_pos rfl, Nat.repr_eq_ofList_toDigits,
      show (-i).toNat = i.natAbs by omega]
    apply String.toList_inj.mp
    simp [digitsOf]
  · rw [if_pos (by omega), decide_eq_false h, Nat.repr_eq_ofList_toDigits,
      show i.toNat = i.natAbs by omega]
    rfl

end Number

namespace Lexeme

/-- The lexemes of a number. -/
def signed (negative : Bool) (digits : List Char) : List Lexeme :=
  (if negative then [.symbol "-"] else []) ++ [.word (String.ofList digits)]

/-- A minus sign in front of a digit is no more than that. -/
theorem read_minus (d : Dialect) {c : Char} {rest : List Char} (h : c.isDigit ∨ c = '.') :
    read d '-' (c :: rest) = (some (.symbol "-"), c :: rest) := by
  -- A second dash would open a comment.
  have hne : c ≠ '-' := by
    rintro rfl
    revert h
    decide
  have hcomment : opensComment d '-' (c :: rest) = false := by
    unfold opensComment opensDashComment
    rw [if_pos rfl]
    split
    · next heq => exact absurd (List.cons.inj heq).1 hne
    · rfl
  have hpair : ('-', c) ∉ pairs := by simp [pairs]
  unfold read
  rw [hcomment]
  show (if ('-', c) ∈ pairs then (some (symbol (String.ofList ['-', c])), rest) else _) = _
  exact if_neg hpair

end Lexeme

/-- The lexemes of a value in a comparison or an assignment. -/
def Scalar.lexemes : Scalar → List Lexeme
  | .text s =>
    if s = "NOW()" then [.word "NOW", .symbol "(", .symbol ")"]
    else if s = "NULL" then [.word "NULL"]
    else [.literal s]
  | .int i => Lexeme.signed (i.toInt < 0) (Number.digitsOf i.toInt.natAbs)
  | .float (.finite negative rank) =>
    Lexeme.signed negative (Number.magnitudeText Number.sqlLayout rank)
  | .float _ => [.word "NULL"]

namespace Dialect

variable {d : Dialect}

/-- A number is read as its sign, if it has one, and its digits. -/
theorem signed_reads {negative : Bool} {digits : List Char} (h : Number.IsUnsigned digits) :
    d.Reads (String.ofList ((if negative then ['-'] else []) ++ digits))
      (Lexeme.signed negative digits) := by
  obtain ⟨hne, hchars⟩ := h
  have hword : d.Reads (String.ofList digits) [.word (String.ofList digits)] := by
    refine word_reads ?_ fun c hc => ?_
    · rwa [Ne, ← String.toList_eq_nil_iff, String.toList_ofList]
    · rw [String.toList_ofList] at hc
      exact Lexeme.name_char_is_word_char (Number.name_char_of_unsigned (hchars c hc))
  cases negative with
  | false => exact hword
  | true =>
      intro rest hrest
      have hread : Lexeme.read d '-' (digits ++ rest) = (some (.symbol "-"), digits ++ rest) := by
        cases digits with
        | nil => exact absurd rfl hne
        | cons c digits => exact Lexeme.read_minus d (hchars c List.mem_cons_self)
      have htail := hword rest hrest
      rw [String.toList_ofList] at htail ⊢
      rw [if_pos rfl, List.singleton_append, List.cons_append, lex_cons, hread, htail]
      rfl

/-- A value that stands in a comparison or an assignment. -/
theorem literal_reads (d : Dialect) (v : Scalar) : d.Reads (d.literal v) v.lexemes := by
  cases v with
  | text s =>
      -- The sentinels stand unquoted.
      by_cases hnow : s = "NOW()"
      · subst hnow
        show d.Reads "NOW()" [.word "NOW", .symbol "(", .symbol ")"]
        exact (closes_of_steps 3 fun _ rest => by cases rest <;> rfl).reads
      · by_cases hnull : s = "NULL"
        · subst hnull
          show d.Reads "NULL" [.word "NULL"]
          exact name_reads (by decide)
        · have hliteral : d.literal (.text s) = d.quote s :=
            if_neg (by simp [sentinels, hnow, hnull])
          have hlexemes : (Scalar.text s).lexemes = [.literal s] :=
            (if_neg hnow).trans (if_neg hnull)
          rw [hliteral, hlexemes]
          exact quote_reads d s
  | int i =>
      have hdisplay : (Scalar.int i).display = String.ofList
          ((if decide (i.toInt < 0) then ['-'] else []) ++ Number.digitsOf i.toInt.natAbs) :=
        Number.to_string_int i.toInt
      show d.Reads (Scalar.int i).display _
      rw [hdisplay]
      exact signed_reads (Number.digits_of_unsigned _)
  | float x =>
      cases x with
      | nan | infinite =>
          show d.Reads "NULL" [.word "NULL"]
          exact name_reads (by decide)
      | finite negative rank => exact signed_reads (Number.magnitude_text_unsigned _)

/-- A pattern is one literal. -/
theorem pattern_reads (d : Dialect) (v : Scalar) :
    d.Reads (d.pattern v) [.literal ("%" ++ v.display ++ "%")] := by
  rw [pattern_eq_quote]
  exact quote_reads d _

end Dialect

end SchemaKeeper
