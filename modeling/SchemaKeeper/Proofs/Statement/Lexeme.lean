import Mathlib.Data.List.Forall2
import SchemaKeeper.Dialect
import SchemaKeeper.Identifier

/-!
# Lexing statements

How the lexer of a dialect cuts the text of a statement into lexemes, with text literals decoded.
`Dialect.lex` goes through a text one lexeme at a time; `Dialect.lex_cons` is its equation. A text
that `Reads` as some lexemes does so in front of anything that begins with a delimiter, and one that
`Closes` does so in front of anything at all, so that a statement can be read part by part.
-/

namespace SchemaKeeper

/-- A piece of a statement that means something on its own. -/
inductive Lexeme where
  /-- A keyword, a name with its qualifiers, or a number without its sign. -/
  | word (text : String)
  /-- A text literal, decoded. -/
  | literal (contents : String)
  /-- A name between marks. -/
  | quotedName (name : String)
  /-- An operator or a punctuation mark. -/
  | symbol (text : String)
  | comment
  /-- A literal or a name whose closing mark is missing. -/
  | unclosed
  deriving DecidableEq, Repr

namespace Lexeme

/-- The characters between lexemes. -/
def isBlank (c : Char) : Bool :=
  c == ' ' || c == '\t' || c == '\n' || c == '\x0b' || c == '\x0c' || c == '\x0d'

/-- The characters that words are made of. -/
def isWordChar (c : Char) : Bool := Identifier.isNameChar c || c == '$' || 0x80 ≤ c.toNat

/-- The operators of two characters. -/
def pairs : List (Char × Char) :=
  [('!', '='), ('<', '='), ('>', '='), ('<', '>'), ('=', '='), ('|', '|'), ('&', '&'), ('<', '<'),
    ('>', '>'), (':', '=')]

/-- Two dashes open a comment; in MySQL only with a blank, or the end, behind them. -/
def opensDashComment (d : Dialect) : List Char → Bool
  | '-' :: rest =>
    match d with
    | .mysql => rest.head?.all fun c => c.toNat ≤ 0x20
    | .sqlite => true
  | _ => false

/-- A comment begins here. -/
def opensComment (d : Dialect) (c : Char) (rest : List Char) : Bool :=
  if c = '-' then opensDashComment d rest
  else if c = '/' then rest.head? == some '*'
  else if c = '#' then d = .mysql
  else false

/-- What follows the end of a bracketed comment. -/
def afterComment : List Char → List Char
  | '*' :: '/' :: rest => rest
  | _ :: rest => afterComment rest
  | [] => []

/-- A lexeme between marks, and what follows it. -/
def between (make : String → Lexeme) :
    Option (List Char × List Char) → Option Lexeme × List Char
  | some (contents, after) => (some (make (String.ofList contents)), after)
  | none => (some .unclosed, [])

/-- The name between brackets of SQLite, and what follows it. -/
def readBracketed? (rest : List Char) : Option (List Char × List Char) :=
  match rest.dropWhile (· ≠ ']') with
  | [] => none
  | _ :: after => some (rest.takeWhile (· ≠ ']'), after)

/-- Take one step at a character: the lexeme that begins there, if it is no blank, and what
follows. -/
def read (d : Dialect) (c : Char) (rest : List Char) : Option Lexeme × List Char :=
  if isBlank c then (none, rest)
  else if isWordChar c then
    (some (.word (String.ofList (c :: rest.takeWhile isWordChar))), rest.dropWhile isWordChar)
  else if c = '\'' then between .literal (d.readLiteral? rest)
  else if c = '"' then
    match d with
    | .mysql => between .literal (Dialect.readQuoted? true '"' rest)
    | .sqlite => between .quotedName (Dialect.readQuoted? false '"' rest)
  else if c = '\x60' then between .quotedName (Dialect.readQuoted? false '\x60' rest)
  else if c = '[' ∧ d = .sqlite then between .quotedName (readBracketed? rest)
  else if opensComment d c rest then
    (some .comment, if c = '/' then afterComment (rest.drop 1) else rest.dropWhile (· ≠ '\n'))
  else
    match rest with
    | next :: after =>
      if (c, next) ∈ pairs then (some (.symbol (String.ofList [c, next])), after)
      else (some (.symbol (String.ofList [c])), rest)
    | [] => (some (.symbol (String.ofList [c])), [])

end Lexeme

namespace Dialect

/-- The lexemes of a text, at most as many steps as the fuel allows. -/
def lexSteps (d : Dialect) : Nat → List Char → List Lexeme
  | 0, _ => []
  | _, [] => []
  | fuel + 1, c :: rest =>
    (Lexeme.read d c rest).1.toList ++ lexSteps d fuel (Lexeme.read d c rest).2

/-- The lexemes of a text. -/
def lex (d : Dialect) (text : List Char) : List Lexeme := d.lexSteps text.length text

end Dialect

namespace Lexeme

theorem length_drop_while_le (p : Char → Bool) (text : List Char) :
    (text.dropWhile p).length ≤ text.length :=
  (List.dropWhile_suffix p).length_le

theorem read_quoted_length {escapes : Bool} {mark : Char} {text contents after : List Char}
    (h : Dialect.readQuoted? escapes mark text = some (contents, after)) :
    after.length ≤ text.length := by
  fun_induction Dialect.readQuoted? escapes mark text generalizing contents after with
  | case1 => cases h
  | case2 => cases h; simp
  | case3 => cases h
  | case4 rest ih =>
      obtain ⟨⟨s, a⟩, hread, heq⟩ := Option.map_eq_some_iff.mp h
      cases heq
      have := ih hread
      simp only [List.length_cons]
      omega
  | case5 next rest hne =>
      cases h
      simp
  | case6 | case7 =>
      rename_i ih
      obtain ⟨⟨s, a⟩, hread, heq⟩ := Option.map_eq_some_iff.mp h
      cases heq
      have := ih hread
      simp only [List.length_cons] at this ⊢
      omega

theorem after_comment_length (text : List Char) : (afterComment text).length ≤ text.length := by
  fun_induction afterComment text <;> simp only [List.length_cons, List.length_nil] at * <;> omega

theorem between_length {make : String → Lexeme} {r : Option (List Char × List Char)} {n : Nat}
    (h : ∀ contents after, r = some (contents, after) → after.length ≤ n) :
    (between make r).2.length ≤ n := by
  cases r with
  | none => exact Nat.zero_le n
  | some p => exact h p.1 p.2 rfl

/-- A step goes forward. -/
theorem read_length (d : Dialect) (c : Char) (rest : List Char) :
    (read d c rest).2.length ≤ rest.length := by
  unfold read
  split
  · exact Nat.le_refl _
  split
  · exact length_drop_while_le _ _
  split
  · exact between_length fun _ _ h => read_quoted_length h
  split
  · cases d with
    | mysql | sqlite => exact between_length fun _ _ h => read_quoted_length h
  split
  · exact between_length fun _ _ h => read_quoted_length h
  split
  · refine between_length fun contents after h => ?_
    have hdrop := length_drop_while_le (fun c => decide (c ≠ ']')) rest
    unfold readBracketed? at h
    split at h
    · cases h
    · next heq =>
        cases h
        rw [heq] at hdrop
        simp only [List.length_cons] at hdrop
        omega
  split
  · dsimp only
    split
    · exact Nat.le_trans (after_comment_length _) (by simp)
    · exact length_drop_while_le _ _
  split
  · split <;> simp
  · exact Nat.le_refl _

end Lexeme

namespace Dialect

variable {d : Dialect}

/-- Fuel beyond the length of a text makes no difference. -/
theorem lex_steps_congr {n m : Nat} {text : List Char} (hn : text.length ≤ n)
    (hm : text.length ≤ m) : d.lexSteps n text = d.lexSteps m text := by
  -- On the fuel, for every text: one step may read many characters.
  induction n generalizing m text with
  | zero =>
      obtain rfl := List.eq_nil_of_length_eq_zero (Nat.le_zero.mp hn)
      cases m <;> rfl
  | succ n ih =>
      cases text with
      | nil => cases m <;> rfl
      | cons c rest =>
          cases m with
          | zero => cases hm
          | succ m =>
              have hread := Lexeme.read_length d c rest
              simp only [List.length_cons] at hn hm
              rw [lexSteps, lexSteps]
              exact congrArg _ (ih (by omega) (by omega))

theorem lex_steps_eq {n : Nat} {text : List Char} (h : text.length ≤ n) :
    d.lexSteps n text = d.lex text :=
  lex_steps_congr h (Nat.le_refl _)

@[simp] theorem lex_nil : d.lex [] = [] := rfl

/-- A text is lexed step by step. -/
theorem lex_cons (c : Char) (rest : List Char) :
    d.lex (c :: rest) =
      (Lexeme.read d c rest).1.toList ++ d.lex (Lexeme.read d c rest).2 := by
  rw [lex, List.length_cons, lexSteps, lex_steps_eq (Lexeme.read_length d c rest)]

/-- What may follow a part of a statement without becoming a part of its last lexeme. -/
def delimiters : List Char := [' ', ',', '(', ')']

/-- The text is empty or begins with a delimiter. -/
def Delimited (text : List Char) : Prop := ∀ c ∈ text.head?, c ∈ delimiters

/-- The text is lexed as these lexemes in front of whatever begins with a delimiter. -/
def Reads (d : Dialect) (text : String) (lexemes : List Lexeme) : Prop :=
  ∀ rest, Delimited rest → d.lex (text.toList ++ rest) = lexemes ++ d.lex rest

/-- The text is lexed as these lexemes in front of anything. -/
def Closes (d : Dialect) (text : String) (lexemes : List Lexeme) : Prop :=
  ∀ rest, d.lex (text.toList ++ rest) = lexemes ++ d.lex rest

/-- A text that is not empty and begins with a delimiter does so in front of anything. -/
def Opens (text : String) : Prop := ∃ c ∈ delimiters, text.toList.head? = some c

instance (text : List Char) : Decidable (Delimited text) :=
  Option.decidableForallMem text.head?

instance (text : String) : Decidable (Opens text) :=
  List.decidableBEx (fun c => text.toList.head? = some c) delimiters

theorem Delimited.append {text rest : List Char} (h : Delimited text) (hrest : Delimited rest) :
    Delimited (text ++ rest) := by
  cases text with
  | nil => exact hrest
  | cons c text => exact h

theorem Opens.append {s t : String} (h : Opens s) : Opens (s ++ t) := by
  obtain ⟨c, hc, hhead⟩ := h
  refine ⟨c, hc, ?_⟩
  rw [String.toList_append, List.head?_append, hhead]
  rfl

theorem Opens.delimited {text : String} (h : Opens text) (rest : List Char) :
    Delimited (text.toList ++ rest) := by
  obtain ⟨c, hc, hhead⟩ := h
  intro c' hc'
  rw [List.head?_append, hhead] at hc'
  cases hc'
  exact hc

variable {s t : String} {x y : List Lexeme}

theorem Closes.reads (h : d.Closes s x) : d.Reads s x := fun rest _ => h rest

theorem Closes.append_reads (h : d.Closes s x) (h' : d.Reads t y) :
    d.Reads (s ++ t) (x ++ y) := by
  intro rest hrest
  rw [String.toList_append, List.append_assoc, h, h' rest hrest, List.append_assoc]

/-- A part that is read may be followed by one that is empty or begins with a delimiter. -/
theorem Reads.append (h : d.Reads s x) (h' : d.Reads t y) (ht : Delimited t.toList) :
    d.Reads (s ++ t) (x ++ y) := by
  intro rest hrest
  rw [String.toList_append, List.append_assoc, h _ (ht.append hrest), h' rest hrest,
    List.append_assoc]

theorem Reads.append_closes (h : d.Reads s x) (h' : d.Closes t y) (ht : Opens t) :
    d.Closes (s ++ t) (x ++ y) := by
  intro rest
  rw [String.toList_append, List.append_assoc, h _ (ht.delimited rest), h' rest,
    List.append_assoc]

/-- Parts that are read are read one after another with a separator between them. -/
theorem reads_intercalate (hs : d.Closes s x) (hopens : Opens s) {parts : List String}
    {lexemes : List (List Lexeme)} (h : List.Forall₂ d.Reads parts lexemes) :
    d.Reads (s.intercalate parts) (x.intercalate lexemes) := by
  induction h with
  | nil => exact fun rest _ => rfl
  | @cons part lexeme parts lexemes hpart hparts ih =>
      cases hparts with
      | nil =>
          rw [String.intercalate_singleton, List.intercalate_singleton]
          exact hpart
      | cons hnext hparts =>
          rw [String.intercalate_cons_cons, List.intercalate_cons_cons]
          exact (hpart.append_closes hs hopens).append_reads ih

/-- Where nothing follows, the lexemes of a part are those of the whole text. -/
theorem Reads.lex_eq (h : d.Reads s x) : d.lex s.toList = x := by
  have hall := h [] (fun _ hc => nomatch hc)
  rwa [List.append_nil, lex_nil, List.append_nil] at hall

/-- A fixed text closes if a number of steps takes the lexer to its end whatever follows. -/
theorem closes_of_steps (steps : Nat)
    (h : ∀ n rest, d.lexSteps (n + steps) (s.toList ++ rest) = x ++ d.lexSteps n rest) :
    d.Closes s x := by
  intro rest
  -- So much fuel is enough on both sides.
  have hsteps := h (s.toList.length + rest.length) rest
  rwa [lex_steps_eq (by rw [List.length_append]; exact Nat.le_add_right _ _),
    lex_steps_eq (Nat.le_add_left _ _)] at hsteps

end Dialect

end SchemaKeeper
