import SchemaKeeper.Proofs.Schema.Defaults
import SchemaKeeper.Proofs.Schema.Grammar
import SchemaKeeper.Proofs.Statement.Quotation

/-!
# Text defaults in SQLite

SQLite reports the default of a column by the text that was written, and what is read from it is a
text in every case: the contents of a literal, and any other text as it is. A default that was
declared as a text survives this, as `Column.text_default_read_back` says: the literal that it is
written as is read as the text again, and the words for the current time are told from all others in
the same way on both sides.
-/

namespace SchemaKeeper

namespace SqlToken

variable {body contents : List Char}

/-- A character that is no quote is not halved. -/
theorem halve_cons {c : Char} (h : c ≠ '\'') : halve '\'' (c :: body) = c :: halve '\'' body := by
  cases body with
  | nil => rfl
  | cons d rest =>
      rw [halve]
      exact if_neg fun hquotes => h hquotes.1

theorem halve_doubled : halve '\'' ('\'' :: '\'' :: body) = '\'' :: halve '\'' body := by
  rw [halve]
  exact if_pos ⟨rfl, rfl⟩

/-- Halving leaves a quote of every two, and all of a single one. -/
theorem quote_mem_halve : '\'' ∈ halve '\'' ('\'' :: body) := by
  cases body with
  | nil => exact List.mem_cons_self
  | cons d rest =>
      rw [halve]
      split
      · exact List.mem_cons_self
      · exact List.mem_cons_self

/-- Halving the doubled quotes of a spelling gives what it spells. -/
theorem halve_spells (h : Dialect.sqlite.Spells body contents) : halve '\'' body = contents := by
  induction h with
  | nil => rfl
  | plain hquote _ _ ih => rw [halve_cons hquote, ih]
  | doubled _ ih => rw [halve_doubled, ih]
  | escaped hd => cases hd

/-- What is left without a quote was spelled. -/
theorem spells_of_halve (h : '\'' ∉ halve '\'' body) :
    Dialect.sqlite.Spells body (halve '\'' body) := by
  induction body with
  | nil => exact .nil
  | cons c rest ih =>
      by_cases hquote : c = '\''
      · subst hquote
        exact absurd quote_mem_halve h
      · rw [halve_cons hquote] at h ⊢
        exact .plain hquote nofun (ih fun hrest => h (List.mem_cons_of_mem c hrest))

end SqlToken

namespace Dialect

variable {text contents : List Char}

/-- The whole text is one literal of these contents. -/
def IsTextLiteral (text contents : List Char) : Prop := sqlite.IsLiteral text contents []

/-- The words for the current time. -/
def timeWords : List (List Char) := ["current_timestamp".toList, "now()".toList]

/-- The text asks for the current time: blanks around it and the case of its letters aside, it is
one of the words for it. -/
def AsksForTime (text : List Char) : Prop :=
  ∃ word, Text.Trims text word ∧ word.map Char.toLower ∈ timeWords

theorem is_timestamp_keyword_iff {s : String} :
    isTimestampKeyword s = true ↔ AsksForTime s.toList := by
  have hstamp : Text.asciiLower "CURRENT_TIMESTAMP" = String.ofList "current_timestamp".toList := by
    decide
  have hnow : Text.asciiLower "NOW()" = String.ofList "now()".toList := by decide
  have hwords : isTimestampKeyword s = true ↔
      (Text.trimChars s.toList).map Char.toLower ∈ timeWords := by
    unfold isTimestampKeyword timeWords
    dsimp only
    rw [Bool.or_eq_true, Text.sameIgnoringCase, Text.sameIgnoringCase, beq_iff_eq, beq_iff_eq,
      hstamp, hnow, Text.asciiLower, Text.trim, String.ofList_inj, String.ofList_inj,
      String.toList_ofList, List.mem_cons, List.mem_singleton]
  rw [hwords]
  constructor
  · exact fun h => ⟨_, Text.Trims.of_trim_chars s.toList, h⟩
  · rintro ⟨word, htrims, h⟩
    rwa [htrims.trim_chars]

/-- What asks for the time has no quotes. -/
theorem AsksForTime.no_quote (h : AsksForTime text) : '\'' ∉ text := by
  obtain ⟨word, ⟨⟨lead, trail, rfl, hlead, htrail⟩, -, -⟩, hword⟩ := h
  intro hquote
  rcases List.mem_append.mp hquote with hquote | hquote
  · exact absurd (hlead _ hquote) (by decide)
  · rcases List.mem_append.mp hquote with hquote | hquote
    · have hlower : '\'' ∈ word.map Char.toLower := List.mem_map_of_mem hquote
      have hnone : ∀ w ∈ timeWords, '\'' ∉ w := by decide
      exact hnone _ hword hlower
    · exact absurd (htrail _ hquote) (by decide)

/-- A literal begins and ends with a quote. -/
theorem IsTextLiteral.trims (h : IsTextLiteral text contents) : Text.Trims text text := by
  obtain ⟨body, rfl, -, -⟩ := h
  refine ⟨⟨[], [], by simp, List.forall_mem_nil _, List.forall_mem_nil _⟩, ?_, ?_⟩
  · rintro c ⟨⟩
    decide
  · intro c hc
    rw [← List.cons_append, List.getLast?_concat] at hc
    cases hc
    decide

theorem quote_is_literal (s : String) : IsTextLiteral (sqlite.quote s).toList s.toList := by
  have htext : (sqlite.quote s).toList =
      '\'' :: (s.toList.flatMap sqlite.escapeChar ++ ['\'']) := by
    simp [quote, escape]
  unfold IsTextLiteral
  rw [htext, ← read_literal_iff]
  exact read_literal_escape s.toList (by decide)

/-- A literal begins with a quote. -/
theorem IsTextLiteral.head (h : IsTextLiteral text contents) : text.head? = some '\'' := by
  obtain ⟨body, rfl, -⟩ := h
  rfl

/-- What asks for the time is written as the word for it, and every other text as a literal. -/
theorem default_literal_cases (s : String) :
    AsksForTime s.toList ∧ sqlite.defaultLiteral (.text s) = "CURRENT_TIMESTAMP" ∨
      ¬ AsksForTime s.toList ∧ sqlite.defaultLiteral (.text s) = sqlite.quote s := by
  unfold defaultLiteral
  dsimp only
  split
  · next hword => exact .inl ⟨is_timestamp_keyword_iff.mp hword, rfl⟩
  · next hword => exact .inr ⟨fun hasks => hword (is_timestamp_keyword_iff.mpr hasks), rfl⟩

end Dialect

namespace PragmaRows

open Dialect

variable {reported : String} {core contents : List Char}

/-- What is read from a reported text that has no blanks around it. -/
def contentsOf (core : List Char) : List Char := (unquoted? core).getD core

/-- The contents of a literal are what is between its quotes. -/
theorem contents_of_literal (h : IsTextLiteral core contents) : contentsOf core = contents := by
  obtain ⟨body, rfl, hspells, -⟩ := h
  change (if (body ++ ['\'']).getLast? = some '\'' then
    some (SqlToken.halve '\'' (body ++ ['\'']).dropLast) else none).getD _ = contents
  rw [List.getLast?_concat, if_pos rfl, List.dropLast_concat, SqlToken.halve_spells hspells]
  rfl

/-- A text that does not begin with a quote is read as it is. -/
theorem contents_of_bare (h : core.head? ≠ some '\'') : contentsOf core = core := by
  have hread : unquoted? core = none := by
    unfold unquoted?
    split
    · exact absurd rfl h
    · rfl
  rw [contentsOf, hread]
  rfl

/-- What contents are read from stands between two quotes. -/
theorem between_quotes (h : unquoted? core = some contents) :
    ∃ body, core = '\'' :: (body ++ ['\'']) ∧ SqlToken.halve '\'' body = contents := by
  unfold unquoted? at h
  split at h
  · next rest =>
    split at h
    · next hlast =>
      cases h
      exact ⟨rest.dropLast, by rw [List.dropLast_append_getLast? _ hlast], rfl⟩
    · cases h
  · cases h

/-- The default is read from the reported text without the blanks around it. -/
theorem default_of_core (htrims : Text.Trims reported.toList core)
    (hnull : core.map Char.toLower ≠ "null".toList) :
    defaultOf (some reported) = some (.text (String.ofList (contentsOf core))) := by
  have hword : Text.asciiLower "NULL" = String.ofList "null".toList := by decide
  have hsame : Text.sameIgnoringCase (String.ofList core) "NULL" = false := by
    rw [Text.sameIgnoringCase, beq_eq_false_iff_ne, hword, Text.asciiLower, Ne, String.ofList_inj,
      String.toList_ofList]
    exact hnull
  unfold defaultOf
  dsimp only
  rw [htrims.trim_chars, hsame]
  rfl

/-- A literal is read as its contents. -/
theorem default_of_literal (htrims : Text.Trims reported.toList core)
    (h : IsTextLiteral core contents) :
    defaultOf (some reported) = some (.text (String.ofList contents)) := by
  have hnull : core.map Char.toLower ≠ "null".toList := by
    intro hnull
    have hhead := congrArg List.head? hnull
    rw [List.head?_map, h.head] at hhead
    exact absurd hhead (by decide)
  rw [default_of_core htrims hnull, contents_of_literal h]

theorem default_of_quote (s : String) : defaultOf (some (sqlite.quote s)) = some (.text s) := by
  have hliteral := quote_is_literal s
  rw [default_of_literal hliteral.trims hliteral, String.ofList_toList]

theorem default_of_current_time :
    defaultOf (some "CURRENT_TIMESTAMP") = some (.text "CURRENT_TIMESTAMP") := by
  decide +kernel

/-- What is read asks for the time just if the text does, or if it is a literal whose contents
do. -/
theorem contents_ask_iff : AsksForTime (contentsOf core) ↔
    AsksForTime core ∨ ∃ contents, IsTextLiteral core contents ∧ AsksForTime contents := by
  constructor
  · intro h
    cases hread : unquoted? core with
    | none =>
        rw [contentsOf, hread] at h
        exact .inl h
    | some contents =>
        rw [contentsOf, hread] at h
        -- Words without quotes between two quotes are a literal.
        obtain ⟨body, hcore, rfl⟩ := between_quotes hread
        exact .inr ⟨_, ⟨body, hcore, SqlToken.spells_of_halve h.no_quote, by decide⟩, h⟩
  · rintro (h | ⟨contents, hliteral, h⟩)
    · rw [contents_of_bare fun hhead => h.no_quote (List.mem_of_mem_head? hhead)]
      exact h
    · rw [contents_of_literal hliteral]
      exact h

/-- SQLite describes the column in this row, with the default as the definition has it. -/
structure Describes (row : Row) (c : Column) : Prop where
  name : row.text? "name" = some c.name
  type : row.text? "type" = some c.engineType
  notNull : row.int? "notnull" = some (if c.nullable then 0 else 1)
  default : row.text? "dflt_value" = c.default.map sqlite.defaultLiteral

/-- A row that describes a column is read as the column, but for its default. -/
theorem Describes.column {row : Row} {c : Column} (h : Describes row c)
    (indexes : List ColumnIndex) : ∃ live, column? indexes row = some live ∧
      live.name = c.name ∧ live.spec.engineType = c.engineType ∧
      live.spec.nullable = c.nullable ∧
      live.spec.default = defaultOf (c.default.map sqlite.defaultLiteral) := by
  have hnullable : decide (row.int? "notnull" ≠ some 1) = c.nullable := by
    rw [h.notNull]
    cases c.nullable <;> decide
  unfold column?
  rw [h.name, h.type, h.default, hnullable]
  refine ⟨_, rfl, ?_⟩
  simp only [LiveColumn.name, Column.of_type_eq, Option.getD_some, and_self]

end PragmaRows

namespace Column

open Dialect

/-- Defaults that ask for the time are the same. -/
theorem normalized_of_asks {s : String} (h : AsksForTime s.toList) :
    normalizedDefault (some (.text s)) = some "current_timestamp" := by
  obtain ⟨word, htrims, hword⟩ := h
  have hlower : Text.asciiLower (Text.trim s) = String.ofList (word.map Char.toLower) := by
    rw [Text.asciiLower, Text.trim, htrims.trim_chars, String.toList_ofList]
  unfold normalizedDefault evenedDefault
  rw [Option.map_some]
  dsimp only
  rw [hlower]
  simp only [timeWords, List.mem_cons, List.not_mem_nil, or_false] at hword
  rcases hword with hword | hword
  all_goals
    rw [hword]
    decide +kernel

/-- A text default is the same when it is read back from what was written. -/
theorem normalized_read_back (s : String) :
    normalizedDefault (PragmaRows.defaultOf (some (sqlite.defaultLiteral (.text s)))) =
      normalizedDefault (some (.text s)) := by
  rcases default_literal_cases s with ⟨hasks, hwritten⟩ | ⟨-, hwritten⟩
  · rw [hwritten, PragmaRows.default_of_current_time, normalized_of_asks hasks]
    decide +kernel
  · rw [hwritten, PragmaRows.default_of_quote]

/-- Columns of one definition do not differ. -/
theorem not_differs {a b : Column} (htype : a.engineType = b.engineType)
    (hnullable : a.nullable = b.nullable)
    (hdefault : normalizedDefault a.default = normalizedDefault b.default) :
    a.definitionDiffers b = false := by
  simp [definitionDiffers, htype, hnullable, hdefault]

/-- A text default is written into a definition as a literal, or as the word for the current time if
it asks for the time. From what is written SQLite's description is read as the default itself, or as
this word, so that the column does not differ from the one that is described. -/
theorem text_default_read_back (s : String) :
    (AsksForTime s.toList → PragmaRows.defaultOf (some (sqlite.defaultLiteral (.text s))) =
      some (.text "CURRENT_TIMESTAMP")) ∧
    (¬ AsksForTime s.toList → PragmaRows.defaultOf (some (sqlite.defaultLiteral (.text s))) =
      some (.text s)) ∧
    ∀ (declared : Column) (indexes : List PragmaRows.ColumnIndex) (row : Row),
      declared.default = some (.text s) → PragmaRows.Describes row declared →
        sqlite.columnDefinition declared = declared.name ++ " " ++ declared.engineType ++ " "
          ++ nullText declared.nullable ++ " DEFAULT " ++ sqlite.defaultLiteral (.text s) ∧
        ∃ live, PragmaRows.column? indexes row = some live ∧ live.name = declared.name ∧
          declared.definitionDiffers live.spec = false ∧
          live.spec.definitionDiffers declared = false := by
  refine ⟨fun hasks => ?_, fun hasks => ?_, fun declared indexes row hdefault hrow => ⟨?_, ?_⟩⟩
  · rcases default_literal_cases s with ⟨-, hwritten⟩ | ⟨hno, -⟩
    · rw [hwritten, PragmaRows.default_of_current_time]
    · exact absurd hasks hno
  · rcases default_literal_cases s with ⟨hyes, -⟩ | ⟨-, hwritten⟩
    · exact absurd hyes hasks
    · rw [hwritten, PragmaRows.default_of_quote]
  · rw [columnDefinition, columnAttributes, hdefault]
    simp only [String.append_assoc]
  · obtain ⟨live, hcolumn, hname, htype, hnullable, hread⟩ := hrow.column indexes
    have hsame : normalizedDefault live.spec.default = normalizedDefault declared.default := by
      rw [hread, hdefault]
      exact normalized_read_back s
    exact ⟨live, hcolumn, hname, not_differs htype.symm hnullable.symm hsame.symm,
      not_differs htype hnullable hsame⟩

/-- A text with quotes and the word null in it. -/
def noteColumn : Column := .ofType "note" "TEXT" false (some (.text "it's 'null'")) .none

/-- The row in which SQLite describes it. -/
def noteRow : Row :=
  ⟨[("name", some (.text "note")), ("type", some (.text "TEXT")), ("notnull", some (.int 1)),
    ("dflt_value", some (.text "'it''s ''null'''"))]⟩

/-- The statement above has instances of both kinds. -/
theorem note_default_read_back : PragmaRows.Describes noteRow noteColumn ∧
    (∃ live, PragmaRows.column? [] noteRow = some live ∧ live.name = "note" ∧
      noteColumn.definitionDiffers live.spec = false ∧
      live.spec.definitionDiffers noteColumn = false) ∧
    PragmaRows.defaultOf (some (sqlite.defaultLiteral (.text "\tNow() "))) =
      some (.text "CURRENT_TIMESTAMP") := by
  have hrow : PragmaRows.Describes noteRow noteColumn :=
    ⟨by decide +kernel, by decide +kernel, by decide +kernel, by decide +kernel⟩
  have hnow : AsksForTime "\tNow() ".toList := is_timestamp_keyword_iff.mp (by decide +kernel)
  obtain ⟨-, -, hnote⟩ := text_default_read_back "it's 'null'"
  obtain ⟨htime, -, -⟩ := text_default_read_back "\tNow() "
  exact ⟨hrow, (hnote noteColumn [] noteRow (of_type_default _ _ _ _ _) hrow).2, htime hnow⟩

end Column

end SchemaKeeper
