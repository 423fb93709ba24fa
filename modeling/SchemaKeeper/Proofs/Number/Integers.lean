import Mathlib.Data.List.TakeWhile
import SchemaKeeper.Proofs.Number.Nearest
import SchemaKeeper.Proofs.Statement.Value

/-!
# Integers written as doubles

What becomes of an integer that goes through a double and back to text. The text of a double that is
an integer has the digits of the shortest decimal that reads back, filled up with zeros,
`Number.Decimal.Denotes.set`. Up to `2 ^ 53` this is the integer that went in,
`Binary64.display_of_small`. Beyond it, only an integer that is a double, or that ends in a zero,
comes back, `Binary64.to_int_or_dvd`, and from nineteen digits on only one that ends in a zero,
`Number.magnitude_of_large`.
-/

namespace SchemaKeeper

theorem int64_half_eq : int64Half = 9223372036854775808 := rfl

theorem int64_of_fits {i : Int} (hlow : -int64Half ≤ i) (hhigh : i < int64Half) :
    int64? i = some (Int64.ofInt i) :=
  if_pos ⟨hlow, hhigh⟩

/-- A sign and an absolute value make the integer. -/
theorem signed_nat_abs (i : Int) :
    (if decide (i < 0) = true then -(i.natAbs : Int) else i.natAbs) = i := by
  by_cases h : i < 0
  · rw [decide_eq_true h, if_pos rfl]
    omega
  · rw [decide_eq_false h, if_neg Bool.false_ne_true]
    omega

namespace Number

theorem digits_value_digits_of (n : Nat) : digitsValue (digitsOf n) = n :=
  Nat.ofDigitChars_toDigits (by decide) (by decide)

theorem digits_of_inj {m n : Nat} (h : digitsOf m = digitsOf n) : m = n := by
  rw [← digits_value_digits_of m, h, digits_value_digits_of]

/-- Zeros behind the digits of a number are powers of ten. -/
theorem digits_of_mul_pow {n : Nat} (h : n ≠ 0) (zeros : Nat) :
    digitsOf n ++ List.replicate zeros '0' = digitsOf (n * 10 ^ zeros) := by
  induction zeros with
  | zero => simp
  | succ zeros ih =>
      have hpos : 0 < n * 10 ^ zeros := Nat.mul_pos (Nat.pos_of_ne_zero h) (Nat.pow_pos (by decide))
      have hnext := Nat.toDigits_append_toDigits (b := 10) (by decide) hpos (show 0 < 10 by decide)
      rw [List.replicate_succ', ← List.append_assoc, ih, Nat.pow_succ, ← Nat.mul_assoc,
        Nat.mul_comm _ 10]
      exact hnext

namespace Decimal

/-- The decimal is this positive natural number, written without a point. -/
structure Denotes (d : Decimal) (value : Nat) : Prop where
  whole : 0 ≤ d.exponent
  digits : d.digits ≠ 0
  value : d.digits * 10 ^ d.exponent.toNat = value

namespace Denotes

variable {d : Decimal} {value : Nat}

/-- Taking trailing zeros into the exponent does not change the number. -/
theorem strip (h : d.Denotes value) (fuel : Nat) : (d.strip fuel).Denotes value := by
  induction fuel generalizing d with
  | zero => exact h
  | succ fuel ih =>
      unfold Decimal.strip
      split
      · next hzero =>
        obtain ⟨digits, exponent⟩ := d
        obtain ⟨places, rfl⟩ := Int.eq_ofNat_of_zero_le h.whole
        refine ih ⟨Int.natCast_nonneg (places + 1), Nat.div_ne_zero_iff.mpr (by omega), ?_⟩
        rw [← h.value]
        change digits / 10 * 10 ^ (places + 1) = digits * 10 ^ places
        rw [Nat.pow_succ', ← Nat.mul_assoc, Nat.div_mul_cancel (Nat.dvd_of_mod_eq_zero hzero.2)]
      · exact h

/-- The number is written with its own digits. -/
theorem set (h : d.Denotes value) : d.set sqlLayout = digitsOf value := by
  change plain sqlLayout d = _
  unfold plain
  rw [if_pos h.whole, ← h.value, ← digits_of_mul_pow h.digits]
  exact List.append_nil _

end Denotes

end Decimal

namespace Interval

open Binary64

variable {tie : Tie} {i : Interval} {n : Nat}

/-- The interval lies around this positive integer. -/
structure Around (i : Interval) (n : Nat) : Prop where
  pos : 0 < n
  value : i.value = n * (4 * denominator)
  low : i.low < i.value
  high : i.value < i.high

/-- The ends of an interval are at most half a unit away from the double. -/
theorem ends_of_rank (rank : Nat) :
    4 * numerator rank ≤ (ofRank rank).low + 2 * Nat.pow 2 (unitShift rank) ∧
      (ofRank rank).high = 4 * numerator rank + 2 * Nat.pow 2 (unitShift rank) := by
  have hbelow : (if significand rank = Nat.pow 2 52 ∧ unitShift rank ≠ 0 then 1 else 2) ≤ 2 := by
    split <;> decide
  have hscaled := Nat.mul_le_mul_right (Nat.pow 2 (unitShift rank)) hbelow
  unfold ofRank numerator
  dsimp only
  rw [Nat.sub_mul, Nat.add_mul, Nat.mul_assoc 4]
  omega

/-- The reals that round to the double of an integer lie around it. -/
theorem around_of_rank {rank : Nat} (hpos : 0 < n) (h : numerator rank = n * denominator) :
    (ofRank rank).Around n := by
  have hproduct : 0 < numerator rank := h ▸ Nat.mul_pos hpos denominator_pos
  have hsignificand : 0 < significand rank := Nat.pos_of_mul_pos_right hproduct
  have hunit : 0 < Nat.pow 2 (unitShift rank) := Nat.pow_pos (by decide)
  refine ⟨hpos, ?_, ?_, ?_⟩
  · change 4 * significand rank * Nat.pow 2 (unitShift rank) = n * (4 * denominator)
    rw [Nat.mul_left_comm, ← h, Nat.mul_assoc]
    rfl
  · refine Nat.mul_lt_mul_of_pos_right (Nat.sub_lt (by omega) ?_) hunit
    split <;> decide
  · exact Nat.mul_lt_mul_of_pos_right (Nat.lt_add_of_pos_right (by decide)) hunit

/-- An integer is in the interval if it lies between the ends. -/
theorem holds_of_between {k : Nat} (hlow : i.low < k * (4 * denominator))
    (hhigh : k * (4 * denominator) < i.high) : i.holds ⟨k, 0⟩ = true := by
  unfold holds
  change (if i.closed then _ else _) = true
  simp [Int.toNat_zero, hlow, hhigh, Nat.le_of_lt]

theorem Around.quotient (h : i.Around n) : i.value / (4 * denominator) = n := by
  rw [h.value]
  exact Nat.mul_div_cancel n (Nat.mul_pos (by decide) denominator_pos)

/-- On the grid of the integers the interval has this one. -/
theorem Around.on_grid (h : i.Around n) : i.onGrid tie 0 = some ⟨n, 0⟩ := by
  have hself : i.holds ⟨n, 0⟩ = true := holds_of_between (h.value ▸ h.low) (h.value ▸ h.high)
  have hround : roundDiv tie i.value (4 * denominator) = n := by
    rw [h.value]
    exact round_div_mul tie n (Nat.mul_pos (by decide) denominator_pos)
  have hne : (n != 0) = true := bne_iff_ne.mpr (Nat.ne_of_gt h.pos)
  have hscale : Nat.pow 10 (0 : Int).toNat = 1 := rfl
  have hscale' : Nat.pow 10 (-(0 : Int)).toNat = 1 := rfl
  unfold onGrid
  dsimp only
  rw [hscale, hscale', Nat.mul_one, Nat.mul_one, h.quotient, hround, hself, hne]
  cases i.holds ⟨n + 1, 0⟩ <;> rfl

/-- A decimal that is found on a grid has its exponent, is not zero, and reads back. -/
theorem on_grid_some {exponent : Int} {d : Decimal} (h : i.onGrid tie exponent = some d) :
    d.exponent = exponent ∧ d.digits ≠ 0 ∧ i.holds d = true := by
  unfold onGrid at h
  dsimp only at h
  have hround := round_div_or tie (i.value * Nat.pow 10 (-exponent).toNat)
    (4 * denominator * Nat.pow 10 exponent.toNat)
  generalize i.value * Nat.pow 10 (-exponent).toNat = num at h hround
  generalize 4 * denominator * Nat.pow 10 exponent.toNat = den at h hround
  generalize roundDiv tie num den = nearest at h hround
  generalize num / den = q at h hround
  -- The nearest of two decimals that read back is one of them.
  split at h
  · next hlower hupper =>
    cases h
    rw [Bool.and_eq_true, bne_iff_ne] at hlower
    rcases hround with hround | hround
    · exact ⟨rfl, hround ▸ hlower.1, hround ▸ hlower.2⟩
    · exact ⟨rfl, hround ▸ Nat.succ_ne_zero q, hround ▸ hupper⟩
  · next hlower hupper =>
    cases h
    rw [Bool.and_eq_true, bne_iff_ne] at hlower
    exact ⟨rfl, hlower⟩
  · next hlower hupper =>
    cases h
    exact ⟨rfl, Nat.succ_ne_zero q, hupper⟩
  · cases h

/-- A whole decimal that reads back lies between the ends of the interval. -/
theorem between_of_holds {d : Decimal} {e : Nat} (he : d.exponent = e) (h : i.holds d = true) :
    i.low ≤ d.digits * 10 ^ e * (4 * denominator) ∧
      d.digits * 10 ^ e * (4 * denominator) ≤ i.high := by
  have hplaces : d.exponent.toNat = e := by rw [he, Int.toNat_natCast]
  have hscale : Nat.pow 10 (-d.exponent).toNat = 1 := by rw [he, Int.toNat_neg_natCast]
  unfold holds at h
  dsimp only at h
  rw [hplaces, hscale, Nat.mul_one, Nat.mul_one] at h
  split at h
  · rw [Bool.and_eq_true, decide_eq_true_eq, decide_eq_true_eq] at h
    exact h
  · rw [Bool.and_eq_true, decide_eq_true_eq, decide_eq_true_eq] at h
    exact ⟨Nat.le_of_lt h.1, Nat.le_of_lt h.2⟩

/-- What holds of all decimals that are found on grids from a power of ten down to the integers, or
to where the search is given up, and of what is taken then, holds of the decimal that the search
ends with. -/
theorem search_of_grid {P : Decimal → Prop} (hzero : (i.onGrid tie 0).isSome) {fuel start : Nat}
    (hgrid : ∀ (e : Nat) d, start < e + fuel → i.onGrid tie e = some d → P d)
    (hend : ∀ e : Nat, start = e + fuel → P ⟨i.value / (4 * denominator), e⟩) :
    P (i.search tie fuel start) := by
  induction fuel generalizing start with
  | zero => exact hend start rfl
  | succ fuel ih =>
      unfold search
      cases hfound : i.onGrid tie start with
      | some d => exact hgrid start d (Nat.lt_add_of_pos_right (Nat.succ_pos fuel)) hfound
      | none =>
          cases start with
          | zero =>
              -- The search never gets below the integers, as one of them reads back.
              change i.onGrid tie 0 = none at hfound
              rw [hfound] at hzero
              cases hzero
          | succ start =>
              have hnext : ((start + 1 : Nat) : Int) - 1 = start := by omega
              rw [Option.getD_none, hnext]
              exact ih (fun e d he => hgrid e d (Nat.succ_lt_succ he))
                fun e he => hend e (congrArg Nat.succ he)

end Interval

open Binary64

variable {rank n : Nat}

/-- The search begins at the first digit of the integer. -/
theorem floor_log10_of_around {i : Interval} (h : i.Around n) :
    floorLog10 i.value (4 * denominator) = ((digitsOf n).length - 1 : Nat) := by
  have hle : 4 * denominator ≤ i.value := by
    rw [h.value]
    exact Nat.le_mul_of_pos_left _ h.pos
  have hlength : (digitsOf n).length ≠ 0 := fun hnil =>
    Nat.toDigits_ne_nil (List.length_eq_zero_iff.mp hnil)
  unfold floorLog10
  rw [if_pos hle, h.quotient]
  omega

/-- The double of a positive integer is written as an integer, and what holds of all integers that
the search may end with holds of this one. -/
theorem magnitude_of_integer {P : Nat → Prop} (hpos : 0 < n) (h : numerator rank = n * denominator)
    (hgrid : ∀ (e : Nat) d, (digitsOf n).length ≤ e + 17 →
      (Interval.ofRank rank).onGrid .up e = some d → P (d.digits * 10 ^ e))
    (hend : ∀ e, (digitsOf n).length = e + 18 → P (n * 10 ^ e)) :
    ∃ written, magnitudeText sqlLayout rank = digitsOf written ∧ P written := by
  have haround := Interval.around_of_rank hpos h
  have hfound : ∃ written, ((Interval.ofRank rank).search .up 17
      ((digitsOf n).length - 1 : Nat)).Denotes written ∧ P written := by
    refine Interval.search_of_grid (P := fun d => ∃ written, d.Denotes written ∧ P written)
      (haround.on_grid ▸ rfl) (fun e d he hd => ?_) fun e he => ?_
    · obtain ⟨hexponent, hdigits, -⟩ := Interval.on_grid_some hd
      have hplaces : d.exponent.toNat = e := by rw [hexponent, Int.toNat_natCast]
      exact ⟨_, ⟨hexponent ▸ Int.natCast_nonneg e, hdigits, rfl⟩,
        hplaces ▸ hgrid e d (by omega) hd⟩
    · rw [haround.quotient]
      exact ⟨n * 10 ^ e, ⟨Int.natCast_nonneg e, Nat.ne_of_gt hpos, rfl⟩, hend e (by omega)⟩
  obtain ⟨written, hdenotes, hwritten⟩ := hfound
  have hrank : rank ≠ 0 := by
    rintro rfl
    rw [numerator, significand, if_pos (by decide), Nat.zero_mul] at h
    exact Nat.ne_of_gt (Nat.mul_pos hpos denominator_pos) h.symm
  refine ⟨written, ?_, hwritten⟩
  unfold magnitudeText shortest
  rw [if_neg hrank]
  dsimp only
  rw [floor_log10_of_around haround]
  exact (hdenotes.strip 20).set

theorem ten_dvd_mul_pow (digits e : Nat) : 10 ∣ digits * 10 ^ (e + 1) :=
  Nat.dvd_mul_left_of_dvd (Nat.pow_succ' ▸ Nat.dvd_mul_right 10 (10 ^ e)) digits

/-- If the double of a positive integer is written as another integer, then this one ends in a
zero. -/
theorem magnitude_eq_or_dvd (hpos : 0 < n) (h : numerator rank = n * denominator) :
    ∃ written, magnitudeText sqlLayout rank = digitsOf written ∧ (written = n ∨ 10 ∣ written) := by
  refine magnitude_of_integer hpos h (fun e d _ hd => ?_) fun e _ => ?_
  · cases e with
    | zero =>
        have hgrid : (Interval.ofRank rank).onGrid .up 0 = some ⟨n, 0⟩ :=
          (Interval.around_of_rank hpos h).on_grid
        cases hgrid.symm.trans hd
        exact .inl (Nat.mul_one n)
    | succ e => exact .inr (ten_dvd_mul_pow d.digits e)
  · cases e with
    | zero => exact .inl (Nat.mul_one n)
    | succ e => exact .inr (ten_dvd_mul_pow n e)

/-- Seventeen digits do not reach the last place of so long an integer, so that its double is
written as an integer that ends in a zero. -/
theorem magnitude_of_large (hbound : 10 ^ 18 ≤ n) (h : numerator rank = n * denominator) :
    ∃ written, magnitudeText sqlLayout rank = digitsOf written ∧ 10 ∣ written := by
  have hlength : 18 < (digitsOf n).length := by
    refine Nat.lt_of_not_le fun hshort => Nat.not_lt.mpr hbound ?_
    exact (Nat.length_toDigits_le_iff (by decide) (by decide)).mp hshort
  have hpos : 0 < n := Nat.lt_of_lt_of_le (by decide) hbound
  refine magnitude_of_integer hpos h (fun e d he _ => ?_) fun e he => ?_
  · obtain ⟨e, rfl⟩ := Nat.exists_eq_succ_of_ne_zero (show e ≠ 0 by omega)
    exact ten_dvd_mul_pow d.digits e
  · obtain ⟨e, rfl⟩ := Nat.exists_eq_succ_of_ne_zero (show e ≠ 0 by omega)
    exact ten_dvd_mul_pow n e

/-- Where doubles stand no further apart than integers, only one integer is read as the double of
an integer. -/
theorem eq_of_between {k : Nat} (h : numerator rank = n * denominator)
    (hshift : unitShift rank ≤ 1074) (hlow : (Interval.ofRank rank).low ≤ k * (4 * denominator))
    (hhigh : k * (4 * denominator) ≤ (Interval.ofRank rank).high) : k = n := by
  have hunit : Nat.pow 2 (unitShift rank) ≤ denominator := by
    unfold denominator
    generalize 1074 = places at hshift ⊢
    exact Nat.pow_le_pow_right (by decide) hshift
  obtain ⟨hbelow, habove⟩ := Interval.ends_of_rank rank
  have hden := denominator_pos
  rw [h] at hbelow habove
  rw [Nat.mul_left_comm] at hlow hhigh
  -- Two multiples of a distance that are less than this distance apart are the same.
  have hless : k * denominator < (n + 1) * denominator := by
    rw [Nat.add_mul, Nat.one_mul]
    omega
  have hmore : n * denominator < (k + 1) * denominator := by
    rw [Nat.add_mul, Nat.one_mul]
    omega
  exact Nat.le_antisymm (Nat.lt_succ_iff.mp (Nat.lt_of_mul_lt_mul_right hless))
    (Nat.lt_succ_iff.mp (Nat.lt_of_mul_lt_mul_right hmore))

/-- There the double of an integer is written as this integer. -/
theorem magnitude_of_small (hpos : 0 < n) (hbound : n < 10 ^ 17)
    (h : numerator rank = n * denominator) (hshift : unitShift rank ≤ 1074) :
    magnitudeText sqlLayout rank = digitsOf n := by
  have hlength : (digitsOf n).length ≤ 17 :=
    (Nat.length_toDigits_le_iff (by decide) (by decide)).mpr hbound
  have hgrid : ∀ (e : Nat) d, (digitsOf n).length ≤ e + 17 →
      (Interval.ofRank rank).onGrid .up e = some d → d.digits * 10 ^ e = n := by
    intro e d _ hd
    obtain ⟨hexponent, -, hholds⟩ := Interval.on_grid_some hd
    obtain ⟨hlow, hhigh⟩ := Interval.between_of_holds hexponent hholds
    exact eq_of_between h hshift hlow hhigh
  obtain ⟨written, hwritten, rfl⟩ := magnitude_of_integer (P := (· = n)) hpos h hgrid
    fun e he => absurd he (by omega)
  exact hwritten

end Number

namespace Binary64

open Number

variable {i : Int}

/-- The double nearest to an integer is written as the integer just if its digits are. -/
theorem display_eq_iff {rank : Fin (2047 * Nat.pow 2 52)}
    (h : ofInt i = .finite (i < 0) rank) : (ofInt i).display = toString i ↔
      magnitudeText sqlLayout rank = digitsOf i.natAbs := by
  rw [h, to_string_int]
  unfold display
  rw [String.ofList_inj, List.append_cancel_left_eq]

/-- Up to `2 ^ 53` an integer is a double, and this double is written as the integer. -/
theorem display_of_small (h : i.natAbs ≤ 2 ^ 53) : (ofInt i).display = toString i := by
  rcases Nat.lt_or_eq_of_le h with hless | htop
  · rcases Nat.eq_zero_or_pos i.natAbs with hzero | hpos
    · rw [Int.natAbs_eq_zero.mp hzero]
      decide +kernel
    · obtain ⟨rank, hround, hnumerator, hshift⟩ := round_small (i < 0) (Nat.ne_of_gt hpos) hless
      rw [display_eq_iff hround]
      exact magnitude_of_small hpos (Nat.lt_trans hless (by decide)) hnumerator hshift
  · rcases Int.natAbs_eq_iff.mp htop with rfl | rfl
    all_goals decide +kernel

/-- A double that is an integer gives this integer. -/
theorem to_int_of_numerator (negative : Bool) {rank : Fin (2047 * Nat.pow 2 52)} {n : Nat}
    (h : numerator rank = n * denominator) :
    toInt? (.finite negative rank) = some (if negative then -(n : Int) else n) := by
  unfold toInt?
  dsimp only
  rw [h, Nat.mul_mod_left, if_pos rfl, Nat.mul_div_cancel n denominator_pos]

/-- An integer that its double is written as is this double, or ends in a zero. -/
theorem to_int_or_dvd (hbound : i.natAbs < 2 ^ 64) (h : (ofInt i).display = toString i) :
    (ofInt i).toInt? = some i ∨ 10 ∣ i := by
  rcases Nat.eq_zero_or_pos i.natAbs with hzero | hpos
  · exact .inr (Int.natAbs_eq_zero.mp hzero ▸ Int.dvd_zero 10)
  · obtain ⟨rank, nearest, hround, hnearest, hnumerator⟩ :=
      round_integer (i < 0) (Nat.ne_of_gt hpos) (below_threshold hbound)
    rw [display_eq_iff hround] at h
    obtain ⟨written, hwritten, hcases⟩ :=
      magnitude_eq_or_dvd (Nat.lt_of_lt_of_le (Nat.two_pow_pos _) hnearest) hnumerator
    cases digits_of_inj (hwritten.symm.trans h)
    rcases hcases with hsame | htens
    · left
      change (roundRatio (i < 0) i.natAbs 1).toInt? = some i
      rw [hround, to_int_of_numerator _ hnumerator, ← hsame, signed_nat_abs]
    · exact .inr (Int.ofNat_dvd_left.mpr htens)

end Binary64

namespace Number

open Binary64

/-- The characters of numbers. -/
def IsNumeric (s : List Char) : Prop := ∀ c ∈ s, (c.isDigit ∨ c = '.') ∨ c = '-'

theorem digits_of_digit {n : Nat} {c : Char} (h : c ∈ digitsOf n) : c.isDigit = true :=
  Nat.isDigit_of_mem_toDigits (by decide) (by decide) h

theorem signed_numeric (negative : Bool) {digits : List Char} (h : IsUnsigned digits) :
    IsNumeric ((if negative then ['-'] else []) ++ digits) := by
  intro c hc
  rcases List.mem_append.mp hc with hsign | hdigit
  · split at hsign
    · exact .inr (List.mem_singleton.mp hsign)
    · cases hsign
  · exact .inl (h.2 c hdigit)

theorem to_string_numeric (i : Int) : IsNumeric (toString i).toList := by
  rw [to_string_int, String.toList_ofList]
  exact signed_numeric _ (digits_of_unsigned i.natAbs)

theorem display_numeric (negative : Bool) (rank : Fin (2047 * Nat.pow 2 52)) :
    IsNumeric (Binary64.display (.finite negative rank)).toList := by
  rw [Binary64.display, String.toList_ofList]
  exact signed_numeric negative (magnitude_text_unsigned rank)

theorem digit_range {c : Char} (h : c.isDigit = true) : 48 ≤ c.toNat ∧ c.toNat ≤ 57 := by
  simpa [Char.isDigit, UInt32.le_iff_toNat_le] using h

/-- Numbers are written in ASCII. -/
theorem ascii_of_numeric {s : List Char} (h : IsNumeric s) : ∀ c ∈ s, c.toNat < 0x80 := by
  intro c hc
  rcases h c hc with (hdigit | rfl) | rfl
  · exact Nat.lt_of_le_of_lt (digit_range hdigit).2 (by decide)
  · decide
  · decide

/-- Numbers have no letters to lower. -/
theorem lower_of_numeric {s : List Char} (h : IsNumeric s) : s.map Char.toLower = s := by
  have hdigit : ∀ c : Char, c.isDigit = true → c.toLower = c := by
    intro c hc
    unfold Char.isDigit at hc
    unfold Char.toLower
    grind
  refine (List.map_congr_left fun c hc => ?_).trans (List.map_id s)
  rcases h c hc with (hc | rfl) | rfl
  · exact hdigit c hc
  · rfl
  · rfl

/-- A number without a sign is read from its digits. -/
theorem read_decimal_digits (n : Nat) : readDecimal? (digitsOf n) = some (n, 0) := by
  have hdigits : ∀ c ∈ digitsOf n, c.isDigit = true := fun c => digits_of_digit
  have hwhole : (digitsOf n).takeWhile Char.isDigit = digitsOf n :=
    List.takeWhile_eq_self_iff.mpr hdigits
  have hrest : (digitsOf n).dropWhile Char.isDigit = [] := List.dropWhile_eq_nil_iff.mpr hdigits
  have hne : (digitsOf n).isEmpty = false := List.isEmpty_eq_false_iff.mpr Nat.toDigits_ne_nil
  unfold readDecimal?
  rw [hwhole, hrest]
  simp [hne, readExponent?, digits_value_digits_of]

/-- A sign in front of digits is split off. -/
theorem split_sign_digits (negative : Bool) (n : Nat) :
    splitSign ((if negative then ['-'] else []) ++ digitsOf n) = (negative, digitsOf n) := by
  cases negative with
  | true => rfl
  | false =>
      have hdigits : ∀ c ∈ digitsOf n, c.isDigit = true := fun c => digits_of_digit
      change splitSign (digitsOf n) = _
      generalize digitsOf n = s at hdigits ⊢
      unfold splitSign
      split
      · exact absurd (hdigits _ List.mem_cons_self) (by decide)
      · exact absurd (hdigits _ List.mem_cons_self) (by decide)
      · rfl

/-- A number of this many digits is beyond the finite doubles. -/
theorem threshold_le_of_length {n : Nat} (h : decimalReach < (Nat.toDigits 10 n).length) :
    overflowThreshold ≤ n := by
  have hreach : decimalReach = (400 : Nat) := rfl
  rw [hreach, Int.ofNat_lt] at h
  obtain ⟨places, hplaces⟩ : ∃ places, places = 400 := ⟨_, rfl⟩
  have hpow : overflowThreshold ≤ 10 ^ places := by
    subst hplaces
    decide +kernel
  refine Nat.le_trans hpow (Nat.le_of_not_lt fun hless => ?_)
  have := (Nat.length_toDigits_le_iff (by decide) (by omega)).mpr hless
  omega

/-- A whole number gives the double nearest to it. -/
theorem of_decimal_whole (negative : Bool) (n : Nat) :
    ofDecimal .double negative n 0 = roundRatio negative n 1 := by
  have hreach : decimalReach = 400 := rfl
  unfold ofDecimal
  split
  · next hzero =>
    rw [hzero]
    rfl
  · dsimp only
    rw [Int.add_zero]
    split
    · next hlong => exact (round_overflow negative (threshold_le_of_length hlong)).symm
    · rw [if_neg (by omega)]
      exact congrArg (roundRatio negative · 1) (Nat.mul_one n)

/-- An integer that is read as a double gives the nearest one. -/
theorem read_to_string (i : Int) : readBinary64? (toString i).toList = some (ofInt i) := by
  have hdigits : IsNumeric (digitsOf i.natAbs) := fun c hc => .inl ((digits_of_unsigned _).2 c hc)
  have hword : ∀ word : String, (∃ c ∈ word.toList, c.isDigit = false) →
      String.ofList ((digitsOf i.natAbs).map Char.toLower) ≠ word := by
    rintro _ ⟨c, hc, hletter⟩ rfl
    rw [lower_of_numeric hdigits, String.toList_ofList] at hc
    rw [digits_of_digit hc] at hletter
    cases hletter
  have hinfinity : ¬ (String.ofList ((digitsOf i.natAbs).map Char.toLower) = "inf" ∨
      String.ofList ((digitsOf i.natAbs).map Char.toLower) = "infinity") :=
    not_or.mpr ⟨hword "inf" ⟨'i', by decide⟩, hword "infinity" ⟨'i', by decide⟩⟩
  rw [to_string_int, String.toList_ofList, readBinary64?, readReal?, split_sign_digits]
  dsimp only
  rw [if_neg hinfinity, if_neg (hword "nan" ⟨'n', by decide⟩), read_decimal_digits]
  exact congrArg some (of_decimal_whole _ _)

end Number

end SchemaKeeper
