import SchemaKeeper.Proofs.Json.Integers
import SchemaKeeper.Proofs.Statement.Grammar
import SchemaKeeper.Query.Statement

/-!
# Integers of documents in statements

The integers that a JSON document can have are those of 64 bits, signed or unsigned, and scalars
have the signed ones only. `Scalar.document_integer_written` says what is written of an integer: up
to `2 ^ 63` its decimal, and from there on the text of the nearest double, which is an integer that
ends in a zero. None of them is refused.
-/

namespace SchemaKeeper

open Number

theorem Number.to_string_nat (n : Nat) : toString n = String.ofList (digitsOf n) :=
  Nat.repr_eq_ofList_toDigits

/-- A natural number and an integer of one decimal are the same. -/
theorem Number.nat_abs_of_text {n : Nat} {i : Int} (h : toString n = toString i) (hi : 0 ≤ i) :
    i = n := by
  have hpositive : decide (i < 0) = false := decide_eq_false (Int.not_lt.mpr hi)
  rw [to_string_nat, to_string_int, hpositive, String.ofList_inj] at h
  have := digits_of_inj h
  omega

namespace Binary64

/-- The double nearest to an integer of nineteen digits or more is written as an integer that ends
in a zero. -/
theorem display_of_large {i : Int} (hlow : int64Half ≤ i) (hhigh : i < Json.wordBound) :
    (ofInt i).isFinite = true ∧ ∃ written : Nat, (ofInt i).display = toString written ∧
      10 ∣ written := by
  have hhalf := int64_half_eq
  have hword : (Json.wordBound : Int) = 2 ^ 64 := rfl
  have hne : i.natAbs ≠ 0 := by omega
  obtain ⟨rank, nearest, hround, hleast, hnumerator⟩ :=
    round_integer (i < 0) hne (below_threshold (by omega))
  have hlarge : 10 ^ 18 ≤ nearest := by
    have hlog : 2 ^ 63 ≤ 2 ^ i.natAbs.log2 :=
      Nat.pow_le_pow_right Nat.two_pos ((Nat.le_log2 hne).mpr (by omega))
    omega
  obtain ⟨written, hwritten, htens⟩ := magnitude_of_large hlarge hnumerator
  have hpositive : decide (i < 0) = false := decide_eq_false (by omega)
  refine ⟨by rw [ofInt, hround]; rfl, written, ?_, htens⟩
  rw [ofInt, hround, hpositive, to_string_nat, ← hwritten]
  rfl

end Binary64

namespace Scalar

/-- An integer of a document is written into a statement as its decimal if it is one of the signed
integers of 64 bits. The unsigned ones beyond them are accepted too, and are written as the double
nearest to them, which ends in a zero: so an integer of them that does not is written as another
one. -/
theorem document_integer_written (d : Dialect) {i : Int} (hlow : -int64Half ≤ i)
    (hhigh : i < Json.wordBound) :
    Json.parse? (toString i) = some (.integer i) ∧
    ∃ v, Scalar.ofJson (.integer i) = .ok v ∧
      (i < int64Half → d.literal v = toString i) ∧
      (int64Half ≤ i → d.literal v = (Binary64.ofInt i).display ∧
        ∃ written : Nat, d.literal v = toString written ∧ 10 ∣ written) ∧
      (d.literal v = toString i ↔ i < int64Half ∨ (Binary64.ofInt i).display = toString i) ∧
      (d.literal v = toString i → i < int64Half ∨ 10 ∣ i) := by
  refine ⟨Json.parse_integer hlow hhigh, ?_⟩
  rcases Int.lt_or_le i int64Half with hsigned | hbeyond
  · have hvalue : (Int64.ofInt i).toInt = i := Int64.toInt_ofInt_of_le hlow hsigned
    have hread : ofJson (.integer i) = .ok (.int (Int64.ofInt i)) := by
      rw [← of_json_integer, hvalue]
    have hliteral : d.literal (.int (Int64.ofInt i)) = toString i := congrArg toString hvalue
    exact ⟨_, hread, fun _ => hliteral, fun hbeyond => absurd hsigned (Int.not_lt.mpr hbeyond),
      iff_of_true hliteral (.inl hsigned), fun _ => .inl hsigned⟩
  · have hread : ofJson (.integer i) = .ok (.float (Binary64.ofInt i)) :=
      of_json_beyond fun n hn => Int.not_lt.mpr hbeyond (hn ▸ n.toInt_lt)
    obtain ⟨hfinite, written, hwritten, htens⟩ := Binary64.display_of_large hbeyond hhigh
    have hliteral : d.literal (.float (Binary64.ofInt i)) = (Binary64.ofInt i).display :=
      if_pos hfinite
    have hnot : ¬ i < int64Half := Int.not_lt.mpr hbeyond
    refine ⟨_, hread, fun hsigned => absurd hsigned hnot,
      fun _ => ⟨hliteral, written, hliteral.trans hwritten, htens⟩, ?_, fun hsame => .inr ?_⟩
    · rw [hliteral, or_iff_right hnot]
    · have hhalf := int64_half_eq
      rw [hliteral, hwritten] at hsame
      rw [Number.nat_abs_of_text hsame (by omega)]
      exact Int.natCast_dvd_natCast.mpr htens

/-- The statement above has instances on both sides of `2 ^ 63`. -/
theorem ends_written :
    (∃ v, ofJson (.integer (-9223372036854775808)) = .ok v ∧
      Dialect.sqlite.literal v = toString (-9223372036854775808 : Int)) ∧
    ∃ v, ofJson (.integer 18446744073709551610) = .ok v ∧
      ∃ written : Nat, Dialect.mysql.literal v = toString written ∧ 10 ∣ written := by
  obtain ⟨-, v, hv, hsigned, -⟩ :=
    document_integer_written .sqlite (show -int64Half ≤ -9223372036854775808 by decide) (by decide)
  obtain ⟨-, w, hw, -, hbeyond, -⟩ :=
    document_integer_written .mysql (show -int64Half ≤ 18446744073709551610 by decide) (by decide)
  exact ⟨⟨v, hv, hsigned (by decide)⟩, w, hw, (hbeyond (by decide)).2⟩

/-- The rows with the greatest unsigned integer are asked for, and those with another one are
deleted. -/
theorem greatest_unsigned_changed :
    ofJson (.integer 18446744073709551615) =
        .ok (.float (Binary64.ofInt 18446744073709551615)) ∧
      Dialect.mysql.literal (.float (Binary64.ofInt 18446744073709551615)) =
        "18446744073709552000" ∧
      Dialect.sqlite.literal (.float (Binary64.ofInt 18446744073709551615)) =
        "18446744073709552000" ∧
      (Filter.ofJson (.object [("id", .integer 18446744073709551615)])).bind
          (deleteSql "users" · .mysql) =
        .ok "DELETE FROM users WHERE id = 18446744073709552000" :=
  ⟨rfl, by decide +kernel, by decide +kernel, by decide +kernel⟩

end Scalar

end SchemaKeeper
