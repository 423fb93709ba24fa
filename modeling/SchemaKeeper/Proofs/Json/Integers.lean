import SchemaKeeper.Json.Reader
import SchemaKeeper.Proofs.Number.Integers

/-!
# Integers in JSON documents

An integer of 64 bits, signed or unsigned, is read from its decimal wherever a document has it,
`Json.take_value_integer`: the digits fit into the significand one by one, and nothing behind them
belongs to the literal.
-/

namespace SchemaKeeper

namespace Number

/-- One more digit behind a number. -/
def addDigit (n : Nat) (c : Char) : Nat := 10 * n + (c.toNat - '0'.toNat)

/-- Digits do not make a number smaller. -/
theorem le_foldl_digits (s : List Char) (read : Nat) : read ≤ s.foldl addDigit read := by
  induction s generalizing read with
  | nil => exact Nat.le_refl read
  | cons c rest ih =>
      have hnext : read ≤ addDigit read c := by
        unfold addDigit
        omega
      exact Nat.le_trans hnext (ih _)

/-- A run of digits has a value below the power of ten of its length. -/
theorem foldl_digits_lt {s : List Char} (h : ∀ c ∈ s, c.isDigit = true) (read : Nat) :
    s.foldl addDigit read < (read + 1) * 10 ^ s.length := by
  induction s generalizing read with
  | nil => exact (Nat.mul_one (read + 1)).symm ▸ Nat.lt_succ_self read
  | cons c rest ih =>
      have hnext : addDigit read c + 1 ≤ (read + 1) * 10 := by
        have hdigit := digit_range (h c List.mem_cons_self)
        have hzero : '0'.toNat = 48 := rfl
        unfold addDigit
        omega
      calc rest.foldl addDigit (addDigit read c)
          < (addDigit read c + 1) * 10 ^ rest.length :=
            ih (fun d hd => h d (List.mem_cons_of_mem c hd)) _
        _ ≤ (read + 1) * 10 * 10 ^ rest.length := Nat.mul_le_mul_right _ hnext
        _ = (read + 1) * 10 ^ (c :: rest).length := by
            rw [List.length_cons, Nat.pow_succ', Nat.mul_assoc]

theorem digits_of_cons (n : Nat) : ∃ c rest, digitsOf n = c :: rest ∧ c.isDigit = true := by
  obtain ⟨c, rest, hdigits⟩ :=
    List.exists_cons_of_ne_nil (show digitsOf n ≠ [] from Nat.toDigits_ne_nil)
  exact ⟨c, rest, hdigits, digits_of_digit (hdigits ▸ List.mem_cons_self)⟩

/-- Only a single digit may be a zero in front. -/
theorem head_of_digits {n : Nat} (h : (digitsOf n).length > 1) : (digitsOf n).head? ≠ some '0' := by
  intro hhead
  obtain ⟨c, rest, hrest, -⟩ := digits_of_cons n
  rw [hrest] at hhead
  cases hhead
  -- The other digits would be enough for the number.
  have hvalue : digitsValue rest < 10 ^ rest.length := by
    have := foldl_digits_lt (fun c hc => digits_of_digit (hrest ▸ List.mem_cons_of_mem '0' hc)) 0
    rwa [Nat.zero_add, Nat.one_mul] at this
  have hsame : digitsValue rest = n := by
    have := digits_value_digits_of n
    rwa [hrest] at this
  rw [hsame] at hvalue
  rw [hrest, List.length_cons] at h
  have hlength : (digitsOf n).length ≤ rest.length :=
    (Nat.length_toDigits_le_iff (by decide) (by omega)).mpr hvalue
  rw [hrest, List.length_cons] at hlength
  omega

end Number

namespace Json

open Number

/-- Digits whose value fits are gathered to this value. -/
theorem gather_whole {s : List Char} {read : Nat} (h : s.foldl addDigit read < wordBound) :
    gatherWhole read s = (s.foldl addDigit read, 0) := by
  induction s generalizing read with
  | nil => rfl
  | cons c rest ih =>
      have hnext : addDigit read c < wordBound := Nat.lt_of_le_of_lt (le_foldl_digits rest _) h
      unfold gatherWhole
      dsimp only
      rw [Nat.mul_comm read 10]
      exact (if_pos hnext).trans (ih h)

/-- What follows a literal in a document does not continue it. -/
def EndsNumber (rest : List Char) : Prop :=
  ∀ c ∈ rest.head?, c.isDigit = false ∧ c ≠ '.' ∧ c ≠ 'e' ∧ c ≠ 'E'

theorem take_digits {rest : List Char} (h : EndsNumber rest) (n : Nat) :
    takeDigits? (digitsOf n ++ rest) = some (digitsOf n, rest) := by
  have hdigits : ∀ c ∈ digitsOf n, c.isDigit = true := fun c => digits_of_digit
  have hne : (digitsOf n).isEmpty = false := List.isEmpty_eq_false_iff.mpr Nat.toDigits_ne_nil
  have hstop : rest.takeWhile Char.isDigit = [] ∧ rest.dropWhile Char.isDigit = rest := by
    cases rest with
    | nil => exact ⟨rfl, rfl⟩
    | cons c rest =>
        have hc := (h c rfl).1
        rw [List.takeWhile_cons_of_neg (by simp [hc]), List.dropWhile_cons_of_neg (by simp [hc])]
        exact ⟨rfl, rfl⟩
  unfold takeDigits?
  rw [List.takeWhile_append_of_pos hdigits, List.dropWhile_append_of_pos hdigits, hstop.1, hstop.2,
    List.append_nil]
  dsimp only
  rw [hne]
  rfl

/-- The literal of an integer is its sign and its digits. -/
theorem take_literal_digits {rest : List Char} (h : EndsNumber rest) (negative : Bool) (n : Nat) :
    takeLiteral? ((if negative then ['-'] else []) ++ digitsOf n ++ rest) =
      some (⟨negative, digitsOf n, none, none⟩, rest) := by
  have hzero : ¬ ((digitsOf n).length > 1 ∧ (digitsOf n).head? = some '0') :=
    fun ⟨hlength, hhead⟩ => head_of_digits hlength hhead
  -- Digits alone leave the case of a minus out.
  have hsign : ∀ s, digitsOf n ++ rest ≠ '-' :: s := by
    intro s hs
    obtain ⟨c, digits, hdigits, hc⟩ := digits_of_cons n
    rw [hdigits] at hs
    cases hs
    exact absurd hc (by decide)
  unfold takeLiteral?
  cases negative
  all_goals
    simp only [Bool.false_eq_true, if_true, if_false, List.cons_append, List.nil_append,
      take_digits h, Option.bind_eq_bind, Option.bind_some, hzero]
    cases rest with
    | nil => rfl
    | cons c rest =>
      obtain ⟨-, hpoint, hlower, hupper⟩ := h c rfl
      simp [hpoint, hlower, hupper]

/-- Without a fraction and an exponent the literal is an integer of 64 bits, if it fits. -/
theorem value_of_integer {i : Int} (hlow : -int64Half ≤ i) (hhigh : i < wordBound) :
    (Literal.mk (decide (i < 0)) (digitsOf i.natAbs) none none).value? = some (.integer i) := by
  have hhalf := int64_half_eq
  have hpow : Nat.pow 2 63 = 2 ^ 63 := rfl
  have hword : (wordBound : Int) = 2 ^ 64 := rfl
  have hvalue : (digitsOf i.natAbs).foldl addDigit 0 = i.natAbs := digits_value_digits_of _
  have hgather : gatherWhole 0 (digitsOf i.natAbs) = (i.natAbs, 0) := by
    rw [gather_whole (by omega), hvalue]
  unfold Literal.value?
  dsimp only
  rw [hgather]
  dsimp only
  rw [if_pos (by decide)]
  by_cases hnegative : i < 0
  · rw [decide_eq_true hnegative, if_neg (by decide), if_neg (by omega), Option.some_inj]
    exact congrArg Json.integer (by omega)
  · rw [decide_eq_false hnegative, if_pos (by decide), Option.some_inj]
    exact congrArg Json.integer (by omega)

/-- The characters that begin blanks and values other than numbers. -/
def otherHeads : List Char := [' ', '\n', '\t', '\x0d', 'n', 't', 'f', '"', '[', '\x7b']

/-- Numbers begin with none of them. -/
theorem head_of_integer (i : Int) :
    ∃ c s, (toString i).toList = c :: s ∧ ∀ d ∈ otherHeads, c ≠ d := by
  have hother : otherHeads.any (fun d => d.isDigit || d == '-') = false := by decide
  obtain ⟨c, digits, hdigits, hc⟩ := digits_of_cons i.natAbs
  rw [to_string_int, String.toList_ofList, hdigits]
  cases decide (i < 0) with
  | true =>
      refine ⟨'-', c :: digits, rfl, ?_⟩
      rintro d hd rfl
      exact List.any_eq_false.mp hother '-' hd rfl
  | false =>
      refine ⟨c, digits, rfl, ?_⟩
      rintro d hd rfl
      exact List.any_eq_false.mp hother c hd (Bool.or_eq_true_iff.mpr (.inl hc))

/-- Wherever a value may stand, an integer is read from its decimal. -/
theorem take_value_integer {i : Int} (hlow : -int64Half ≤ i) (hhigh : i < wordBound)
    {rest : List Char} (h : EndsNumber rest) (fuel depth : Nat) :
    takeValue? (fuel + 1) depth ((toString i).toList ++ rest) = some (.integer i, rest) := by
  have hliteral : takeLiteral? ((toString i).toList ++ rest) =
      some (⟨decide (i < 0), digitsOf i.natAbs, none, none⟩, rest) := by
    rw [to_string_int, String.toList_ofList]
    exact take_literal_digits h (decide (i < 0)) i.natAbs
  obtain ⟨c, s, hs, hother⟩ := head_of_integer i
  rw [hs, List.cons_append] at hliteral ⊢
  simp only [otherHeads, List.forall_mem_cons] at hother
  obtain ⟨hblank, hline, htab, hreturn, hn, ht, hf, hquote, hbracket, hbrace, -⟩ := hother
  have hspace : skipSpace (c :: (s ++ rest)) = c :: (s ++ rest) :=
    List.dropWhile_cons_of_neg (by simp [isSpace, hblank, hline, htab, hreturn])
  unfold takeValue?
  rw [hspace]
  simp [hn, ht, hf, hquote, hbracket, hbrace, hliteral, value_of_integer hlow hhigh]

/-- So the decimal is a document with this integer. -/
theorem parse_integer {i : Int} (hlow : -int64Half ≤ i) (hhigh : i < wordBound) :
    parse? (toString i) = some (.integer i) := by
  have hend : EndsNumber [] := nofun
  have hread := take_value_integer hlow hhigh hend (2 * (toString i).toList.length + 1) depthLimit
  rw [List.append_nil] at hread
  change takeValue? (2 * (toString i).toList.length + 2) depthLimit _ = _ at hread
  unfold parse?
  dsimp only
  rw [hread]
  rfl

end Json

end SchemaKeeper
