import SchemaKeeper.Engine.Server
import SchemaKeeper.Proofs.Schema.Defaults

/-!
# Integers that are read from text

A server delivers integers as decimal texts. One that fits into 64 bits is read exactly. Any other
one is read as a double, and the integer that this double is saturates at the ends of the range, so
that the value is there but is another one; only from the overflow threshold of doubles on there is
none. `Scalar.decimal_read` says so of the decimal of every integer, and of every row that a server
delivers it in.
-/

namespace SchemaKeeper

namespace Number

theorem read_digits_of (n : Nat) : readDigits? (digitsOf n) = some n := by
  have hdigits : ∀ c ∈ digitsOf n, c.isDigit = true := fun c => digits_of_digit
  have hne : (digitsOf n).isEmpty = false := List.isEmpty_eq_false_iff.mpr Nat.toDigits_ne_nil
  unfold readDigits?
  rw [hne, List.all_eq_true.mpr hdigits, digits_value_digits_of]
  rfl

/-- The decimal of an integer of any size is read as this integer. -/
theorem read_int_to_string (i : Int) : readInt? (toString i).toList = some i := by
  rw [to_string_int, String.toList_ofList, readInt?, split_sign_digits]
  dsimp only
  rw [read_digits_of]
  exact congrArg some (signed_nat_abs i)

end Number

section Clamp

variable {i : Int}

/-- An integer of the range is its own nearest one. -/
theorem clamp_of_fits (hlow : -int64Half ≤ i) (hhigh : i < int64Half) :
    clampInt64 i = Int64.ofInt i := by
  unfold clampInt64
  rw [Int.min_eq_right (by omega), Int.max_eq_right hlow]

theorem clamp_above (h : int64Half ≤ i) : clampInt64 i = Int64.maxValue := by
  have hhalf := int64_half_eq
  unfold clampInt64
  rw [Int.min_eq_left (by omega), Int.max_eq_right (by omega)]
  rfl

theorem clamp_below (h : i ≤ -int64Half) : clampInt64 i = Int64.minValue := by
  have hhalf := int64_half_eq
  unfold clampInt64
  rw [Int.min_eq_right (by omega), Int.max_eq_left h]
  rfl

end Clamp

namespace Binary64

variable {i : Int}

theorem below_of_fits (hlow : -int64Half ≤ i) (hhigh : i < int64Half) :
    i.natAbs < overflowThreshold := by
  have hhalf := int64_half_eq
  exact below_threshold (by omega)

/-- An integer beyond the range and the double nearest to it are clamped to the same end. -/
theorem clamp_of_int (hout : ¬ (-int64Half ≤ i ∧ i < int64Half))
    (hbound : i.natAbs < overflowThreshold) :
    (ofInt i).toInt?.map clampInt64 = some (clampInt64 i) := by
  have hhalf := int64_half_eq
  have hne : i.natAbs ≠ 0 := by omega
  obtain ⟨rank, nearest, hround, hleast, hnumerator⟩ := round_integer (i < 0) hne hbound
  have hlog : 2 ^ 63 ≤ nearest :=
    Nat.le_trans (Nat.pow_le_pow_right Nat.two_pos ((Nat.le_log2 hne).mpr (by omega))) hleast
  rw [ofInt, hround, to_int_of_numerator _ hnumerator, Option.map_some, Option.some_inj]
  split
  · next hnegative =>
    have := of_decide_eq_true hnegative
    rw [clamp_below (by omega), clamp_below (by omega)]
  · next hpositive =>
    have := of_decide_eq_false (Bool.eq_false_iff.mpr hpositive)
    rw [clamp_above (by omega), clamp_above (by omega)]

end Binary64

namespace Scalar

open Binary64 Number

/-- The decimal of an integer is read as the integer, or else as the nearest double. -/
theorem to_int_of_text (i : Int) : (Scalar.text (toString i)).toInt? =
    match int64? i with
    | some n => some n
    | none => (ofInt i).toInt?.map clampInt64 := by
  unfold toInt? textToInt?
  dsimp only
  rw [Column.trim_of_numeric (to_string_numeric i), read_int_to_string, read_to_string]
  rfl

/-- So it is read as the nearest integer of the range, unless the double on the way is infinite. -/
theorem to_int_of_decimal (i : Int) : (Scalar.text (toString i)).toInt? =
    if i.natAbs < overflowThreshold then some (clampInt64 i) else none := by
  rw [to_int_of_text]
  by_cases hfits : -int64Half ≤ i ∧ i < int64Half
  · obtain ⟨hlow, hhigh⟩ := hfits
    rw [int64_of_fits hlow hhigh, clamp_of_fits hlow hhigh, if_pos (below_of_fits hlow hhigh)]
  · have hnone : int64? i = none := if_neg hfits
    rw [hnone]
    dsimp only
    split
    · next hbound => exact clamp_of_int hfits hbound
    · next hbound =>
      rw [ofInt, round_overflow _ (Nat.not_lt.mp hbound)]
      rfl

/-- An integer that is kept as one where it fits, and as its text otherwise, is read like the
text. -/
theorem to_int_of_kept (i : Int) :
    (((int64? i).map Scalar.int).getD (.text (toString i))).toInt? =
      (Scalar.text (toString i)).toInt? := by
  cases hfits : int64? i with
  | none => rfl
  | some n =>
      rw [to_int_of_text, hfits]
      rfl

end Scalar

namespace Text

variable {s : List Char}

/-- The bytes of a text of ASCII characters. -/
def asciiBytes (s : List Char) : List Nat := s.map Char.toNat

theorem utf8_steps_ascii (h : ∀ c ∈ s, c.toNat < 0x80) :
    utf8Steps s.length (asciiBytes s) = s.map some := by
  induction s with
  | nil => rfl
  | cons c rest ih =>
      have hlead : Utf8Lead.ofByte c.toNat = .single c := by
        unfold Utf8Lead.ofByte
        rw [if_pos (h c List.mem_cons_self), Char.ofNat_toNat]
      have hnext : nextUtf8 c.toNat (asciiBytes rest) = (some c, asciiBytes rest) := by
        unfold nextUtf8
        rw [hlead]
      change utf8Steps (rest.length + 1) (c.toNat :: asciiBytes rest) = some c :: rest.map some
      rw [utf8Steps, hnext]
      exact congrArg (some c :: ·) (ih fun d hd => h d (List.mem_cons_of_mem c hd))

/-- ASCII bytes are read as the characters that they are of. -/
theorem decode_ascii (h : ∀ c ∈ s, c.toNat < 0x80) :
    decodeLossy (asciiBytes s) = String.ofList s := by
  have hlength : (asciiBytes s).length = s.length := List.length_map _
  unfold decodeLossy
  rw [hlength, utf8_steps_ascii h, List.map_map]
  exact congrArg String.ofList (List.map_id s)

end Text

namespace Server

/-- The types whose values are read as integers. -/
def IsIntegerType (type : String) : Prop :=
  Text.contains "INT".toList (Text.asciiUpper type).toList ∨
    Text.asciiUpper type = "BOOLEAN" ∨ Text.asciiUpper type = "YEAR"

instance (type : String) : Decidable (IsIntegerType type) := inferInstanceAs (Decidable (_ ∨ _))

/-- The bytes in which a server sends an integer. -/
def decimalBytes (i : Int) : List Nat := Text.asciiBytes (toString i).toList

theorem decode_decimal (i : Int) : Text.decodeLossy (decimalBytes i) = toString i := by
  rw [decimalBytes, Text.decode_ascii (Number.ascii_of_numeric (Number.to_string_numeric i)),
    String.ofList_toList]

/-- In a column of integers the decimal of an integer is kept as the integer or as the text of
it. -/
theorem cell_of_decimal {type : String} (htype : IsIntegerType type) (i : Int) :
    cellValue type (some (decimalBytes i)) =
      some (((int64? i).map Scalar.int).getD (.text (toString i))) := by
  have hdates : ∀ date ∈ dateTypes, ¬ IsIntegerType date := by decide
  have hdate : isZeroDate type (decimalBytes i) = false := by
    unfold isZeroDate
    rw [Bool.and_eq_false_imp]
    intro hmem
    exact absurd htype (hdates type (List.contains_iff_mem.mp hmem))
  have hinteger : (Text.contains "INT".toList (Text.asciiUpper type).toList
      || Text.asciiUpper type == "BOOLEAN" || Text.asciiUpper type == "YEAR") = true := by
    rw [Bool.or_eq_true, Bool.or_eq_true, beq_iff_eq, beq_iff_eq, or_assoc]
    exact htype
  unfold cellValue typedScalar
  dsimp only
  rw [hdate, if_neg Bool.false_ne_true, decode_decimal, if_pos hinteger,
    Column.trim_of_numeric (Number.to_string_numeric i), Number.read_int_to_string,
    Option.bind_some]
  cases int64? i <;> rfl

/-- A row has the value of the first cell of the name. -/
theorem get_of_row {columns : List (String × String)} {cells : List (Option (List Nat))}
    {name type : String} {cell : Option (List Nat)}
    (h : (columns.zip cells).find? (·.1.1 == name) = some ((name, type), cell)) :
    (rowOf columns cells).get? name = cellValue type cell := by
  induction columns generalizing cells with
  | nil => cases h
  | cons column columns ih =>
      obtain ⟨first, firstType⟩ := column
      cases cells with
      | nil => cases h
      | cons firstCell cells =>
          rw [List.zip_cons_cons, List.find?_cons] at h
          unfold rowOf Row.get? at ih ⊢
          rw [List.zipWith_cons_cons, List.lookup_cons]
          split at h
          · next hname =>
            cases h
            rw [BEq.rfl]
            rfl
          · next hname =>
            have hother : (name == first) = false := by rwa [BEq.comm]
            rw [hother]
            exact ih h

end Server

namespace Scalar

open Binary64

/-- What the decimal of an integer is read as: the integer itself if it is one of 64 bits, else the
end of the range on its side, and nothing from the overflow threshold on. A row that a server
delivers it in, in a column of integers of any type, gives the same. -/
theorem decimal_read (i : Int) :
    (-int64Half ≤ i → i < int64Half →
      ∃ n : Int64, (Scalar.text (toString i)).toInt? = some n ∧ n.toInt = i) ∧
    (int64Half ≤ i → i.natAbs < overflowThreshold →
      (Scalar.text (toString i)).toInt? = some Int64.maxValue) ∧
    (i < -int64Half → i.natAbs < overflowThreshold →
      (Scalar.text (toString i)).toInt? = some Int64.minValue) ∧
    (overflowThreshold ≤ i.natAbs → (Scalar.text (toString i)).toInt? = none) ∧
    ∀ (columns : List (String × String)) (cells : List (Option (List Nat))) (name type : String),
      Server.IsIntegerType type →
      (columns.zip cells).find? (·.1.1 == name) =
        some ((name, type), some (Server.decimalBytes i)) →
      (Server.rowOf columns cells).int? name = (Scalar.text (toString i)).toInt? := by
  have hread := to_int_of_decimal i
  refine ⟨fun hlow hhigh => ?_, fun habove hbound => ?_, fun hbelow hbound => ?_, fun hbound => ?_,
    fun columns cells name type htype hcell => ?_⟩
  · rw [if_pos (below_of_fits hlow hhigh), clamp_of_fits hlow hhigh] at hread
    exact ⟨_, hread, Int64.toInt_ofInt_of_le hlow hhigh⟩
  · rw [hread, if_pos hbound, clamp_above habove]
  · rw [hread, if_pos hbound, clamp_below (Int.le_of_lt hbelow)]
  · rw [hread, if_neg (Nat.not_lt.mpr hbound)]
  · rw [Row.int?, Server.get_of_row hcell, Server.cell_of_decimal htype, Option.bind_some,
      to_int_of_kept]

/-- The row of an unsigned column with this value. -/
def unsignedRow (i : Int) : Row :=
  Server.rowOf [("n", "BIGINT UNSIGNED")] [some (Server.decimalBytes i)]

/-- The statement above has instances of every kind. -/
theorem decimals_read :
    (∃ n : Int64, (Scalar.text (toString (-42 : Int))).toInt? = some n ∧ n.toInt = -42) ∧
    (Scalar.text (toString (9223372036854775808 : Int))).toInt? = some Int64.maxValue ∧
    (Scalar.text (toString (-9223372036854775809 : Int))).toInt? = some Int64.minValue ∧
    (Scalar.text (toString (overflowThreshold : Int))).toInt? = none ∧
    (unsignedRow 42).int? "n" = (Scalar.text (toString (42 : Int))).toInt? := by
  obtain ⟨hexact, -⟩ := decimal_read (-42)
  obtain ⟨-, habove, -⟩ := decimal_read 9223372036854775808
  obtain ⟨-, -, hbelow, -⟩ := decimal_read (-9223372036854775809)
  obtain ⟨-, -, -, hnone, -⟩ := decimal_read overflowThreshold
  obtain ⟨-, -, -, -, hrow⟩ := decimal_read 42
  exact ⟨hexact (by decide) (by decide), habove (by decide) (below_threshold (by decide)),
    hbelow (by decide) (below_threshold (by decide)), hnone (Nat.le_refl _),
    hrow _ _ _ _ (by decide) rfl⟩

/-- Texts of integers beyond the range are read as other integers, also from an unsigned column that
kept the text. -/
theorem saturated_reads :
    (Scalar.text "9223372036854775808").toInt? = some 9223372036854775807 ∧
      (Scalar.text "-9223372036854775809").toInt? = some (-9223372036854775808) ∧
      (unsignedRow 18446744073709551615).get? "n" = some (.text "18446744073709551615") ∧
      (unsignedRow 18446744073709551615).int? "n" = some 9223372036854775807 := by
  decide +kernel

end Scalar

end SchemaKeeper
