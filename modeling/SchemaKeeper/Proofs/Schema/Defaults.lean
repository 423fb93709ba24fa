import SchemaKeeper.Engine.PragmaRows
import SchemaKeeper.Engine.ShowRows
import SchemaKeeper.Proofs.Number.Integers
import SchemaKeeper.Proofs.Statement.Grammar

/-!
# Integer defaults that are read back

A column that was declared with an integer default is compared with what an engine reports, and both
engines report the default as text. The declared side of the comparison has the digits of the
integer, but the reported one goes through the double nearest to it:
`Column.integer_default_read_back` says for which integers this comes to the same.
-/

namespace SchemaKeeper

namespace Column

open Number

theorem of_type_default (name engineType : String) (nullable : Bool) (default : Option Scalar)
    (index : IndexKind) : (ofType name engineType nullable default index).default = default := by
  unfold ofType
  generalize SemanticType.classify engineType = meaning
  rfl

/-- A number is no word that defaults are folded by. -/
theorem normalized_of_numeric {v : Scalar} (h : IsNumeric (evenedDefault v).toList) :
    normalizedDefault (some v) = some (evenedDefault v) := by
  have hword : ∀ word : String, (∃ c ∈ word.toList, ¬ ((c.isDigit ∨ c = '.') ∨ c = '-')) →
      evenedDefault v ≠ word := by
    rintro _ ⟨c, hc, hletter⟩ rfl
    exact hletter (h c hc)
  unfold normalizedDefault
  rw [Option.map_some]
  dsimp only
  rw [if_neg (hword "null" ⟨'n', by decide⟩), if_neg (not_or.mpr
    ⟨hword "now()" ⟨'n', by decide⟩, hword "current_timestamp()" ⟨'c', by decide⟩⟩)]

theorem digit_not_blank {c : Char} (h : c.isDigit = true) : Text.isBlank c = false := by
  have hrange := digit_range h
  unfold Text.isBlank
  simp only [Bool.or_eq_false_iff, Bool.and_eq_false_iff, decide_eq_false_iff_not,
    beq_eq_false_iff_ne]
  omega

/-- A number has no blanks to trim. -/
theorem trim_of_numeric {s : List Char} (h : IsNumeric s) : Text.trimChars s = s := by
  have hblank : ∀ c ∈ s, Text.isBlank c = false := by
    intro c hc
    rcases h c hc with (hdigit | rfl) | rfl
    · exact digit_not_blank hdigit
    · decide
    · decide
  have hends : s = [] ++ (s ++ []) := by rw [List.nil_append, List.append_nil]
  refine Text.Trims.trim_chars ⟨⟨[], [], hends, List.forall_mem_nil _, List.forall_mem_nil _⟩,
    fun c hc => ?_, fun c hc => ?_⟩
  · exact hblank c (List.mem_of_head? hc)
  · exact hblank c (List.mem_of_getLast? hc)

theorem nat_abs_lt (i : Int64) : i.toInt.natAbs < 2 ^ 64 := by
  have hlow := Int64.le_toInt i
  have hhigh := Int64.toInt_lt i
  omega

/-- The double nearest to an integer of 64 bits is finite. -/
theorem finite_of_int (i : Int64) :
    ∃ rank, Binary64.ofInt i.toInt = .finite (i.toInt < 0) rank := by
  rcases Nat.eq_zero_or_pos i.toInt.natAbs with hzero | hpos
  · rw [Int.natAbs_eq_zero.mp hzero]
    exact ⟨_, rfl⟩
  · obtain ⟨rank, hround, -⟩ := Binary64.round_natural (i.toInt < 0) (Nat.ne_of_gt hpos)
      (Binary64.below_threshold (nat_abs_lt i))
    exact ⟨rank, hround⟩

/-- The text of an integer is evened out to that of the nearest double. -/
theorem evened_to_string (i : Int64) :
    evenedDefault (.text (toString i.toInt)) = (Binary64.ofInt i.toInt).display := by
  have hnumeric := to_string_numeric i.toInt
  have hlower : Text.asciiLower (Text.trim (toString i.toInt)) = toString i.toInt := by
    rw [Text.asciiLower, Text.trim, trim_of_numeric hnumeric, String.ofList_toList,
      lower_of_numeric hnumeric, String.ofList_toList]
  obtain ⟨rank, hfinite⟩ := finite_of_int i
  unfold evenedDefault
  dsimp only
  rw [hlower, read_to_string, hfinite]
  rfl

/-- An integer and its text are equal as defaults just if the double nearest to the integer is
written as the integer. -/
theorem normalized_int_eq_iff (i : Int64) :
    normalizedDefault (some (.int i)) = normalizedDefault (some (.text (toString i.toInt))) ↔
      (Binary64.ofInt i.toInt).display = toString i.toInt := by
  obtain ⟨rank, hfinite⟩ := finite_of_int i
  have hint : normalizedDefault (some (.int i)) = some (toString i.toInt) :=
    normalized_of_numeric (to_string_numeric i.toInt)
  have htext : normalizedDefault (some (.text (toString i.toInt))) =
      some (Binary64.ofInt i.toInt).display := by
    rw [normalized_of_numeric, evened_to_string]
    rw [evened_to_string, hfinite]
    exact display_numeric _ rank
  rw [hint, htext, Option.some_inj, eq_comm]

end Column

namespace LiveColumn

open Number

/-- An engine reports this text as the default of a live column, in a row of SHOW or of PRAGMA. -/
inductive ReportsDefault (live : LiveColumn) (text : String) : Prop where
  | ofShow {indexes : List Row} {row : Row} (hcolumn : ShowRows.column? indexes row = some live)
      (hdefault : (row.get? "Default").map Scalar.display = some text) : ReportsDefault live text
  | ofPragma {indexes : List PragmaRows.ColumnIndex} {row : Row}
      (hcolumn : PragmaRows.column? indexes row = some live)
      (hdefault : row.text? "dflt_value" = some text) : ReportsDefault live text

/-- A number that is reported without quotes is a default as it stands. -/
theorem default_of_numeric {text : String} (h : IsNumeric text.toList) :
    PragmaRows.defaultOf (some text) = some (.text text) := by
  have hnull : Text.sameIgnoringCase text "NULL" = false := by
    refine beq_eq_false_iff_ne.mpr fun heq => ?_
    rw [Text.asciiLower, lower_of_numeric h, String.ofList_toList] at heq
    rw [heq] at h
    exact absurd (h 'n' (by decide +kernel)) (by decide)
  have hquote : PragmaRows.unquoted? text.toList = none := by
    unfold PragmaRows.unquoted?
    split
    · next hmark =>
      rw [hmark] at h
      exact absurd (h _ List.mem_cons_self) (by decide)
    · rfl
  unfold PragmaRows.defaultOf
  dsimp only
  rw [Column.trim_of_numeric h, String.ofList_toList, hnull, hquote]
  exact congrArg (fun s => some (Scalar.text s)) String.ofList_toList

/-- A number that is reported is the default of the column. -/
theorem ReportsDefault.default {text : String} {live : LiveColumn} (h : live.ReportsDefault text)
    (hnumeric : IsNumeric text.toList) : live.spec.default = some (.text text) := by
  cases h with
  | ofShow hcolumn hdefault =>
      obtain ⟨value, hvalue, rfl⟩ := Option.map_eq_some_iff.mp hdefault
      obtain ⟨name, -, hlive⟩ := Option.map_eq_some_iff.mp hcolumn
      rw [← hlive, Column.of_type_default, hvalue, Option.map_some]
  | ofPragma hcolumn hdefault =>
      obtain ⟨name, -, hlive⟩ := Option.map_eq_some_iff.mp hcolumn
      rw [← hlive, Column.of_type_default, hdefault, default_of_numeric hnumeric]

end LiveColumn

namespace Column

open Number

/-- A column that is declared with an integer default does not differ from the live column whose
default is reported as the text of the integer, just if the double nearest to the integer is written
as the integer. This is so for all integers up to `2 ^ 53`, and beyond them it is so at most for
those that are doubles or end in a zero. All others differ from their own text for ever. -/
theorem integer_default_read_back (i : Int64) {declared : Column} {live : LiveColumn}
    (hdeclared : declared.default = some (.int i))
    (hlive : live.ReportsDefault (toString i.toInt))
    (htype : normalizedType live.spec.engineType = normalizedType declared.engineType)
    (hnullable : live.spec.nullable = declared.nullable) :
    (normalizedDefault (some (.int i)) = normalizedDefault (some (.text (toString i.toInt))) ↔
      (Binary64.ofInt i.toInt).display = toString i.toInt) ∧
    (declared.definitionDiffers live.spec = false ↔
      (Binary64.ofInt i.toInt).display = toString i.toInt) ∧
    (i.toInt.natAbs ≤ 2 ^ 53 → declared.definitionDiffers live.spec = false) ∧
    (declared.definitionDiffers live.spec = false →
      (Binary64.ofInt i.toInt).toInt? = some i.toInt ∨ 10 ∣ i.toInt) := by
  have hdefault := hlive.default (to_string_numeric i.toInt)
  have hequal := normalized_int_eq_iff i
  have hdiffers : declared.definitionDiffers live.spec = false ↔
      (Binary64.ofInt i.toInt).display = toString i.toInt := by
    unfold definitionDiffers
    rw [htype, hnullable, hdeclared, hdefault, bne_self_eq_false, bne_self_eq_false, Bool.false_or,
      Bool.false_or, bne_eq_false_iff_eq]
    exact hequal
  refine ⟨hequal, hdiffers, fun h => ?_, fun h => ?_⟩
  · exact hdiffers.mpr (Binary64.display_of_small h)
  · exact Binary64.to_int_or_dvd (nat_abs_lt i) (hdiffers.mp h)

/-- A column of integers with this default. -/
def integerColumn (default : Int64) : Column :=
  .ofType "age" "INT" false (some (.int default)) .none

/-- A server reports a column of integers with this default. -/
def shownColumn (default : Int64) : LiveColumn :=
  ⟨.ofType "age" "int(11)" false (some (.text (toString default.toInt))) .none, none⟩

/-- The row in which the server does so. -/
def shownRow (default : Int64) : Row :=
  ⟨[("Field", some (.text "age")), ("Type", some (.text "int(11)")), ("Null", some (.text "NO")),
    ("Default", some (.text (toString default.toInt)))]⟩

/-- Seventeen stays what it is. -/
theorem seventeen_read_back : (shownColumn 17).ReportsDefault "17" ∧
    (integerColumn 17).definitionDiffers (shownColumn 17).spec = false := by
  have hcolumn : ShowRows.column? [] (shownRow 17) = some (shownColumn 17) := by decide +kernel
  have hreports : (shownColumn 17).ReportsDefault (toString (17 : Int64).toInt) :=
    .ofShow hcolumn (by decide +kernel)
  have htype : normalizedType (shownColumn 17).spec.engineType =
      normalizedType (integerColumn 17).engineType := by decide +kernel
  have hdefault : (integerColumn 17).default = some (.int 17) := of_type_default _ _ _ _ _
  obtain ⟨-, -, hsmall, -⟩ := integer_default_read_back 17 hdefault hreports htype
    (by decide +kernel)
  exact ⟨hreports, hsmall (by decide)⟩

/-- Beyond `2 ^ 53` an integer may differ from the column that reports it. -/
theorem beyond_doubles_not_read_back :
    (integerColumn 9007199254740993).default = some (.int 9007199254740993) ∧
      (shownColumn 9007199254740993).ReportsDefault "9007199254740993" ∧
      normalizedType (shownColumn 9007199254740993).spec.engineType =
        normalizedType (integerColumn 9007199254740993).engineType ∧
      (shownColumn 9007199254740993).spec.nullable =
        (integerColumn 9007199254740993).nullable ∧
      normalizedDefault (some (.int 9007199254740993)) = some "9007199254740993" ∧
      normalizedDefault (some (.text "9007199254740993")) = some "9007199254740992" ∧
      (integerColumn 9007199254740993).definitionDiffers (shownColumn 9007199254740993).spec =
        true := by
  have hcolumn : ShowRows.column? [] (shownRow 9007199254740993) =
      some (shownColumn 9007199254740993) := by decide +kernel
  exact ⟨of_type_default _ _ _ _ _, .ofShow hcolumn (by decide +kernel), by decide +kernel⟩

end Column

end SchemaKeeper
