import SchemaKeeper.Proofs.Schema.TextDefaults
import SchemaKeeper.Proofs.Synchronization.Statements

/-!
# Defaults that a rebuild writes again

A rebuild creates the table anew, and writes the default of each column from what was read of it.
What is read is a text, whatever SQLite reported, so that kinds of defaults are merged:
`Column.reported_default_rewritten` says what a reported default becomes. A literal stays a literal
of the same contents, and a word for the current time stays one, but numbers, other keywords and
expressions become literals, and a literal that spells a word for the time becomes the word.
-/

namespace SchemaKeeper

namespace Dialect

variable {text contents : List Char}

/-- The whole text is a literal. -/
def IsQuoted (text : List Char) : Prop := ∃ contents, IsTextLiteral text contents

theorem not_quoted_of_head (h : text.head? ≠ some '\'') : ¬ IsQuoted text :=
  fun ⟨_, hliteral⟩ => h hliteral.head

theorem IsTextLiteral.contents_eq {other : List Char} (h : IsTextLiteral text contents)
    (hother : IsTextLiteral text other) : contents = other :=
  (PragmaRows.contents_of_literal h).symm.trans (PragmaRows.contents_of_literal hother)

/-- What asks for the time is written as the word for it. -/
theorem written_of_asks (h : AsksForTime contents) :
    sqlite.defaultLiteral (.text (String.ofList contents)) = "CURRENT_TIMESTAMP" := by
  rcases default_literal_cases (String.ofList contents) with ⟨-, hwritten⟩ | ⟨hasks, -⟩
  · exact hwritten
  · rw [String.toList_ofList] at hasks
    exact absurd h hasks

/-- Every other text is written as the literal of it. -/
theorem written_of_not_asks (h : ¬ AsksForTime contents) :
    IsTextLiteral (sqlite.defaultLiteral (.text (String.ofList contents))).toList contents := by
  have hliteral := quote_is_literal (String.ofList contents)
  rcases default_literal_cases (String.ofList contents) with ⟨hasks, -⟩ | ⟨-, hwritten⟩
  · rw [String.toList_ofList] at hasks
    exact absurd hasks h
  · rwa [← hwritten, String.toList_ofList] at hliteral

theorem written_quoted_iff :
    IsQuoted (sqlite.defaultLiteral (.text (String.ofList contents))).toList ↔
      ¬ AsksForTime contents := by
  refine ⟨fun hquoted hasks => ?_, fun h => ⟨_, written_of_not_asks h⟩⟩
  rw [written_of_asks hasks] at hquoted
  exact not_quoted_of_head (by decide) hquoted

/-- The definition of every column stands in the definition of the table. -/
theorem definition_in_table {c : Column} {columns : List Column} (hc : c ∈ columns)
    (table : String) : ∃ front back,
      sqlite.createTableText table columns =
        front ++ ", " ++ sqlite.columnDefinition c ++ ", " ++ back := by
  obtain ⟨before, after, rfl⟩ := List.append_of_mem hc
  refine ⟨"CREATE TABLE " ++ table ++ " (" ++ sqlite.reservedDefinitions
    ++ String.join (before.map fun c => ", " ++ sqlite.columnDefinition c), ?_⟩
  unfold createTableText
  rw [List.map_append, String.join_append]
  cases after with
  | nil => exact ⟨"PRIMARY KEY (id))", by simp [String.append_assoc]⟩
  | cons next rest =>
      exact ⟨sqlite.columnDefinition next
        ++ String.join (rest.map fun c => ", " ++ sqlite.columnDefinition c)
        ++ ", PRIMARY KEY (id))", by simp [String.append_assoc]⟩

/-- A modification writes the definition of every listed column into the scratch table. -/
theorem definition_in_rebuild {c : Column} {columns : List Column} (hc : c ∈ columns)
    (table : String) (column : Column) : ∃ front back rest,
      sqlite.changeSql (.modifyColumn table column columns) =
        (front ++ ", " ++ sqlite.columnDefinition c ++ ", " ++ back) :: rest := by
  obtain ⟨front, back, hcreate⟩ := definition_in_table hc (scratchName table)
  exact ⟨front, back, (rebuild table columns).tail.map (Ddl.text .sqlite),
    congrArg (· :: _) hcreate⟩

end Dialect

namespace PragmaRows

open Dialect

variable {core : List Char}

/-- What is written from what was read is a literal just if the reported text is one, for literals
that do not ask for the time and for words that do, and for nothing else. -/
theorem quoted_kept_iff :
    (IsQuoted (sqlite.defaultLiteral (.text (String.ofList (contentsOf core)))).toList ↔
      IsQuoted core) ↔
        AsksForTime core ∨ ∃ contents, IsTextLiteral core contents ∧ ¬ AsksForTime contents := by
  rw [written_quoted_iff, contents_ask_iff]
  by_cases hquoted : IsQuoted core
  · obtain ⟨contents, hliteral⟩ := hquoted
    have hword : ¬ AsksForTime core :=
      fun h => h.no_quote (List.mem_of_mem_head? hliteral.head)
    have honly : ∀ p : List Char → Prop, (∃ c, IsTextLiteral core c ∧ p c) ↔ p contents :=
      fun p => ⟨fun ⟨c, hc, h⟩ => hc.contents_eq hliteral ▸ h, fun h => ⟨contents, hliteral, h⟩⟩
    have hquoted : IsQuoted core := ⟨contents, hliteral⟩
    simp only [honly, hword, hquoted, false_or, iff_true]
  · have hnone : ∀ p : List Char → Prop, ¬ ∃ c, IsTextLiteral core c ∧ p c :=
      fun p ⟨c, hc, _⟩ => hquoted ⟨c, hc⟩
    simp only [hnone, hquoted, or_false, iff_false, not_not]

end PragmaRows

namespace Column

open Dialect

/-- What a default that SQLite reports for a column becomes when the modification of a column
rebuilds the table. What asks for the current time, be it a word or a literal, becomes the word for
it. Everything else becomes a literal: a literal one of the same contents, and a number, another
keyword or an expression one of its own text. So a literal is written just where one was reported,
if that is a literal that does not ask for the time or a word that does, and only then. Either way
the next description is read as the same default. -/
theorem reported_default_rewritten {indexes : List PragmaRows.ColumnIndex} {row : Row}
    {live : LiveColumn} {reported : String} {core : List Char}
    (hcolumn : PragmaRows.column? indexes row = some live)
    (hdefault : row.text? "dflt_value" = some reported)
    (hcore : Text.Trims reported.toList core) (hnull : core.map Char.toLower ≠ "null".toList) :
    ∃ written, live.spec.default.map sqlite.defaultLiteral = some written ∧
      (∀ table column columns, live.spec ∈ columns → ∃ front back rest,
        sqlite.changeSql (.modifyColumn table column columns) =
          (front ++ ", " ++ live.name ++ " " ++ live.spec.engineType ++ " "
            ++ nullText live.spec.nullable ++ " DEFAULT " ++ written ++ ", " ++ back) :: rest) ∧
      (∀ contents, IsTextLiteral core contents → ¬ AsksForTime contents →
        IsTextLiteral written.toList contents) ∧
      (core.head? ≠ some '\'' → ¬ AsksForTime core → IsTextLiteral written.toList core) ∧
      (AsksForTime core ∨ (∃ contents, IsTextLiteral core contents ∧ AsksForTime contents) →
        written = "CURRENT_TIMESTAMP") ∧
      ((IsQuoted written.toList ↔ IsQuoted core) ↔
        AsksForTime core ∨ ∃ contents, IsTextLiteral core contents ∧ ¬ AsksForTime contents) ∧
      normalizedDefault (PragmaRows.defaultOf (some written)) =
        normalizedDefault live.spec.default := by
  have hread : live.spec.default =
      some (.text (String.ofList (PragmaRows.contentsOf core))) := by
    obtain ⟨name, -, rfl⟩ := Option.map_eq_some_iff.mp hcolumn
    rw [of_type_default, hdefault, PragmaRows.default_of_core hcore hnull]
  rw [hread]
  refine ⟨_, rfl, fun table column columns hlisted => ?_, fun contents hliteral hasks => ?_,
    fun hhead hasks => ?_, fun hasks => written_of_asks (PragmaRows.contents_ask_iff.mpr hasks),
    PragmaRows.quoted_kept_iff, normalized_read_back _⟩
  · obtain ⟨front, back, rest, hsql⟩ := definition_in_rebuild hlisted table column
    refine ⟨front, back, rest, hsql.trans ?_⟩
    rw [columnDefinition, columnAttributes, hread]
    simp only [String.append_assoc]
    rfl
  · rw [PragmaRows.contents_of_literal hliteral]
    exact written_of_not_asks hasks
  · rw [PragmaRows.contents_of_bare hhead]
    exact written_of_not_asks hasks

/-- The row of a column of texts with this default. -/
def dayRow (reported : String) : Row :=
  ⟨[("name", some (.text "day")), ("type", some (.text "TEXT")), ("notnull", some (.int 0)),
    ("dflt_value", some (.text reported))]⟩

/-- The column that is read from it. -/
def dayColumn (contents : String) : LiveColumn :=
  ⟨.ofType "day" "TEXT" true (some (.text contents)) .none, none⟩

/-- The statement above has instances in which a literal with a quote in it is kept, and a keyword
is made a literal. -/
theorem day_defaults_rewritten :
    PragmaRows.column? [] (dayRow " 'o''clock'") = some (dayColumn "o'clock") ∧
      PragmaRows.column? [] (dayRow "CURRENT_DATE") = some (dayColumn "CURRENT_DATE") ∧
      IsTextLiteral (sqlite.defaultLiteral (.text "o'clock")).toList "o'clock".toList ∧
      IsTextLiteral (sqlite.defaultLiteral (.text "CURRENT_DATE")).toList
        "CURRENT_DATE".toList := by
  have hclock : PragmaRows.column? [] (dayRow " 'o''clock'") = some (dayColumn "o'clock") := by
    decide +kernel
  have hdate : PragmaRows.column? [] (dayRow "CURRENT_DATE") = some (dayColumn "CURRENT_DATE") := by
    decide +kernel
  have hliteral : IsTextLiteral "'o''clock'".toList "o'clock".toList := by
    have hquote : sqlite.quote "o'clock" = "'o''clock'" := by decide +kernel
    exact hquote ▸ quote_is_literal "o'clock"
  have htime : ∀ s : String, isTimestampKeyword s = false → ¬ AsksForTime s.toList :=
    fun s hno hasks => Bool.false_ne_true (hno.symm.trans (is_timestamp_keyword_iff.mpr hasks))
  have hreported : ∀ s, (dayRow s).text? "dflt_value" = some s := fun _ => rfl
  have htrims : Text.Trims " 'o''clock'".toList "'o''clock'".toList := Text.Trims.of_trim_chars _
  have hword : Text.Trims "CURRENT_DATE".toList "CURRENT_DATE".toList := Text.Trims.of_trim_chars _
  refine ⟨hclock, hdate, ?_, ?_⟩
  · obtain ⟨written, hwritten, -, hkept, -⟩ :=
      reported_default_rewritten hclock (hreported _) htrims (by decide)
    cases hwritten
    exact hkept _ hliteral (htime _ (by decide +kernel))
  · obtain ⟨written, hwritten, -, -, hmade, -⟩ :=
      reported_default_rewritten hdate (hreported _) hword (by decide)
    cases hwritten
    exact hmade (by decide) (htime _ (by decide +kernel))

/-- A keyword and a number are reported without quotes and written as literals, and a literal that
spells a word for the time is written as the word. -/
theorem bare_defaults_quoted :
    PragmaRows.column? [] (dayRow "CURRENT_DATE") = some (dayColumn "CURRENT_DATE") ∧
      PragmaRows.column? [] (dayRow "5") = some (dayColumn "5") ∧
      PragmaRows.column? [] (dayRow "'now()'") = some (dayColumn "now()") ∧
      ¬ IsQuoted "CURRENT_DATE".toList ∧ ¬ IsQuoted "5".toList ∧ IsQuoted "'now()'".toList ∧
      (dayColumn "CURRENT_DATE").spec.default.map sqlite.defaultLiteral =
        some "'CURRENT_DATE'" ∧
      (dayColumn "5").spec.default.map sqlite.defaultLiteral = some "'5'" ∧
      (dayColumn "now()").spec.default.map sqlite.defaultLiteral = some "CURRENT_TIMESTAMP" ∧
      IsQuoted "'CURRENT_DATE'".toList ∧ IsQuoted "'5'".toList ∧
      ¬ IsQuoted "CURRENT_TIMESTAMP".toList := by
  have hquoted : ∀ s text : String, sqlite.quote s = text → IsQuoted text.toList :=
    fun s text h => h ▸ ⟨_, quote_is_literal s⟩
  exact ⟨by decide +kernel, by decide +kernel, by decide +kernel, not_quoted_of_head (by decide),
    not_quoted_of_head (by decide), hquoted "now()" _ (by decide +kernel), by decide +kernel,
    by decide +kernel, by decide +kernel, hquoted "CURRENT_DATE" _ (by decide +kernel),
    hquoted "5" _ (by decide +kernel), not_quoted_of_head (by decide)⟩

end Column

end SchemaKeeper
