import Mathlib.Algebra.Group.Nat.Defs
import SchemaKeeper.Number.Binary64

/-!
# The double nearest to an integer

The double nearest to a positive integer has a significand of full length,
`Binary64.round_natural`, and is infinite from the overflow threshold on. So a finite one is an
integer itself, of as many bits at least, `Binary64.round_integer`, and up to 53 bits it is the
integer that was rounded, `Binary64.round_small`.
-/

namespace SchemaKeeper

namespace Number

/-- Of the two neighbours of a quotient one is taken. -/
theorem round_div_or (tie : Tie) (num den : Nat) :
    roundDiv tie num den = num / den ∨ roundDiv tie num den = num / den + 1 := by
  have hparity := Nat.mod_two_eq_zero_or_one (num / den)
  unfold roundDiv
  dsimp only
  split
  · exact .inl rfl
  · split
    · exact .inr rfl
    · cases tie with
      | up => exact .inr rfl
      | toEven => exact hparity.imp (fun h => by rw [h]; rfl) fun h => by rw [h]

/-- A multiple of the divisor is not rounded. -/
theorem round_div_mul (tie : Tie) (n : Nat) {den : Nat} (h : 0 < den) :
    roundDiv tie (n * den) den = n := by
  unfold roundDiv
  dsimp only
  rw [Nat.mul_mod_left, Nat.mul_div_cancel n h]
  exact if_pos h

/-- A quotient is rounded to an odd number at most just if it is below the midpoint that follows
this number, as a tie goes to the even one. -/
theorem round_div_le_iff {num den m : Nat} (hden : 0 < den) (hodd : m % 2 = 1) :
    roundDiv .toEven num den ≤ m ↔ 2 * num < (2 * m + 1) * den := by
  have hremainder := Nat.mod_lt num hden
  have hquotient := Nat.div_add_mod num den
  have hmidpoint : (2 * m + 1) * den = 2 * (den * m) + den := by
    rw [Nat.add_mul, Nat.one_mul, Nat.mul_assoc, Nat.mul_comm m]
  rw [hmidpoint]
  rcases Nat.lt_trichotomy (num / den) m with hless | hsame | hmore
  · have hscaled : den * (num / den) + den ≤ den * m := Nat.mul_le_mul_left den hless
    refine iff_of_true ?_ (by omega)
    rcases round_div_or .toEven num den with hround | hround
    · exact hround ▸ Nat.le_of_lt hless
    · exact hround ▸ hless
  · rw [hsame] at hquotient
    unfold roundDiv
    dsimp only
    rw [hsame]
    split
    · exact iff_of_true (Nat.le_refl m) (by omega)
    · split
      · exact iff_of_false (by omega) (by omega)
      · exact iff_of_false (by omega) (by omega)
  · have hscaled : den * m + den ≤ den * (num / den) := Nat.mul_le_mul_left den hmore
    refine iff_of_false ?_ (by omega)
    rcases round_div_or .toEven num den with hround | hround
    · exact hround ▸ Nat.not_le_of_lt hmore
    · exact hround ▸ Nat.not_le_of_lt (Nat.lt_succ_of_lt hmore)

end Number

namespace Binary64

open Number

theorem denominator_pos : 0 < denominator := by decide +kernel

/-- Significands of full length follow one another at a unit. -/
theorem fields_of_units {k units : Nat} (hlow : 2 ^ 52 ≤ units) (hhigh : units < 2 ^ 53) :
    significand (k * 2 ^ 52 + units) = units ∧ unitShift (k * 2 ^ 52 + units) = k := by
  have hquotient : (k * 2 ^ 52 + units) / 2 ^ 52 = k + 1 := by omega
  have hremainder : (k * 2 ^ 52 + units) % 2 ^ 52 = units - 2 ^ 52 := by omega
  have hnormal : ¬ k * 2 ^ 52 + units < 2 ^ 52 := by omega
  constructor
  · change (if k * 2 ^ 52 + units < 2 ^ 52 then k * 2 ^ 52 + units
      else 2 ^ 52 + (k * 2 ^ 52 + units) % 2 ^ 52) = units
    rw [if_neg hnormal, hremainder]
    exact Nat.add_sub_cancel' hlow
  · change (k * 2 ^ 52 + units) / 2 ^ 52 - 1 = k
    rw [hquotient]
    rfl

/-- The power of two behind the significands of a unit is the first one at the next unit. -/
theorem numerator_of_units {k units : Nat} (hlow : 2 ^ 52 ≤ units) (hhigh : units ≤ 2 ^ 53) :
    numerator (k * 2 ^ 52 + units) = units * 2 ^ k := by
  unfold numerator
  rcases Nat.lt_or_eq_of_le hhigh with hless | rfl
  · obtain ⟨hsignificand, hshift⟩ := fields_of_units (k := k) hlow hless
    rw [hsignificand, hshift]
    rfl
  · have hnext : k * 2 ^ 52 + 2 ^ 53 = (k + 1) * 2 ^ 52 + 2 ^ 52 := by omega
    obtain ⟨hsignificand, hshift⟩ := fields_of_units (k := k + 1) (Nat.le_refl (2 ^ 52)) (by decide)
    rw [hnext, hsignificand, hshift]
    change 2 ^ 52 * 2 ^ (k + 1) = 2 ^ 53 * 2 ^ k
    rw [← Nat.pow_add, ← Nat.pow_add, ← Nat.add_assoc, Nat.add_right_comm]

/-- How many units of its last place a natural number has. -/
def unitsOf (n : Nat) : Nat := roundDiv .toEven (n * 2 ^ (52 - n.log2)) (2 ^ (n.log2 - 52))

/-- A number of at most 53 bits is a whole number of units. -/
theorem units_of_small {n : Nat} (h : n.log2 ≤ 52) : unitsOf n = n * 2 ^ (52 - n.log2) := by
  have hnone : n.log2 - 52 = 0 := Nat.sub_eq_zero_of_le h
  have hwhole := round_div_mul .toEven (n * 2 ^ (52 - n.log2)) Nat.one_pos
  rw [Nat.mul_one] at hwhole
  unfold unitsOf
  rw [hnone]
  exact hwhole

/-- The units fill the significand. -/
theorem units_of_bounds {n : Nat} (h : n ≠ 0) : 2 ^ 52 ≤ unitsOf n ∧ unitsOf n ≤ 2 ^ 53 := by
  have hunit : ∀ k, 2 ^ (52 + k) * 2 ^ (n.log2 - 52) = 2 ^ (n.log2 + k) * 2 ^ (52 - n.log2) := by
    intro k
    rw [← Nat.pow_add, ← Nat.pow_add]
    congr 1
    omega
  have hpos : 0 < 2 ^ (n.log2 - 52) := Nat.pow_pos (by decide)
  have hlow : 2 ^ 52 ≤ n * 2 ^ (52 - n.log2) / 2 ^ (n.log2 - 52) := by
    rw [Nat.le_div_iff_mul_le hpos]
    calc 2 ^ 52 * 2 ^ (n.log2 - 52) = 2 ^ n.log2 * 2 ^ (52 - n.log2) := hunit 0
      _ ≤ n * 2 ^ (52 - n.log2) := Nat.mul_le_mul_right _ (Nat.log2_self_le h)
  have hhigh : n * 2 ^ (52 - n.log2) / 2 ^ (n.log2 - 52) < 2 ^ 53 := by
    rw [Nat.div_lt_iff_lt_mul hpos]
    calc n * 2 ^ (52 - n.log2) < 2 ^ (n.log2 + 1) * 2 ^ (52 - n.log2) :=
          Nat.mul_lt_mul_of_pos_right Nat.lt_log2_self (Nat.pow_pos (by decide))
      _ = 2 ^ 53 * 2 ^ (n.log2 - 52) := (hunit 1).symm
  unfold unitsOf
  -- Rounding up may reach the next power of two.
  rcases round_div_or .toEven (n * 2 ^ (52 - n.log2)) (2 ^ (n.log2 - 52)) with hdown | hup
  · rw [hdown]
    exact ⟨hlow, Nat.le_of_lt hhigh⟩
  · rw [hup]
    exact ⟨Nat.le_succ_of_le hlow, hhigh⟩

/-- The double nearest to a natural number has the number's units as significand, unless its rank is
beyond those of the finite doubles. -/
theorem round_whole (negative : Bool) {n : Nat} (h : n ≠ 0) :
    roundRatio negative n 1 =
      if hfinite : (n.log2 + 1022) * 2 ^ 52 + unitsOf n < 2047 * 2 ^ 52 then
        .finite negative ⟨_, hfinite⟩
      else .infinite negative := by
  have hfloor : floorLog2 n 1 = n.log2 := by
    have hnot : ¬ n * Nat.pow 2 0 < 1 * Nat.pow 2 n.log2 := by
      change ¬ n * 1 < 1 * 2 ^ n.log2
      rw [Nat.mul_one, Nat.one_mul]
      exact Nat.not_lt.mpr (Nat.log2_self_le h)
    have hone : (n.log2 : Int) - Nat.log2 1 = n.log2 := Int.sub_zero _
    have hzero : (-(n.log2 : Int)).toNat = 0 := by omega
    unfold floorLog2
    rw [hone]
    dsimp only
    rw [hzero]
    exact if_neg hnot
  have hexponent : unitExponent 53 (-1074) n 1 = (n.log2 : Int) - 52 := by
    unfold unitExponent
    rw [hfloor]
    omega
  have hcount : countUnits n 1 ((n.log2 : Int) - 52) = unitsOf n := by
    have hbelow : (-((n.log2 : Int) - 52)).toNat = 52 - n.log2 := by omega
    have habove : ((n.log2 : Int) - 52).toNat = n.log2 - 52 := by omega
    unfold countUnits unitsOf
    rw [hbelow, habove, Nat.one_mul]
    rfl
  have hrank : ((n.log2 : Int) - 52 + 1074).toNat = n.log2 + 1022 := by omega
  unfold roundRatio
  rw [if_neg h, hexponent]
  dsimp only
  rw [hcount, hrank]
  rfl

/-- The midpoint between the greatest finite double and the next power of two. -/
def overflowThreshold : Nat := (2 ^ 54 - 1) * 2 ^ 970

theorem overflow_threshold_pos : 0 < overflowThreshold := by decide +kernel

theorem pow_le_threshold {k : Nat} (h : k ≤ 1023) : 2 ^ k ≤ overflowThreshold := by
  obtain ⟨last, hlast⟩ : ∃ last, last = 1023 := ⟨_, rfl⟩
  have htop : 2 ^ last ≤ overflowThreshold := by
    subst hlast
    decide +kernel
  exact Nat.le_trans (Nat.pow_le_pow_right Nat.two_pos (by omega)) htop

theorem threshold_le_pow {k : Nat} (h : 1024 ≤ k) : overflowThreshold ≤ 2 ^ k := by
  obtain ⟨next, hnext⟩ : ∃ next, next = 1024 := ⟨_, rfl⟩
  have htop : overflowThreshold ≤ 2 ^ next := by
    subst hnext
    decide +kernel
  exact Nat.le_trans htop (Nat.pow_le_pow_right Nat.two_pos (by omega))

/-- The threshold follows the greatest significand of the last unit. -/
theorem midpoint_of_last {k : Nat} (h : k = 971) :
    (2 * (2 ^ 53 - 1) + 1) * 2 ^ k = 2 * overflowThreshold := by
  subst h
  decide +kernel

/-- Just the numbers below the threshold have the rank of a finite double. -/
theorem rank_lt_iff {n : Nat} (h : n ≠ 0) :
    (n.log2 + 1022) * 2 ^ 52 + unitsOf n < 2047 * 2 ^ 52 ↔ n < overflowThreshold := by
  obtain ⟨hlow, hhigh⟩ := units_of_bounds h
  rcases Nat.lt_trichotomy n.log2 1023 with hless | htop | hmore
  · refine iff_of_true (by omega) ?_
    exact Nat.lt_of_lt_of_le Nat.lt_log2_self (pow_le_threshold hless)
  · -- In the last binade the units decide: they must not be rounded up to the next power.
    have hplaces : 52 - n.log2 = 0 := by omega
    have hunits : unitsOf n = roundDiv .toEven n (2 ^ (n.log2 - 52)) := by
      unfold unitsOf
      rw [hplaces]
      exact congrArg (roundDiv .toEven · (2 ^ (n.log2 - 52))) (Nat.mul_one n)
    have hround : roundDiv .toEven n (2 ^ (n.log2 - 52)) ≤ 2 ^ 53 - 1 ↔ _ :=
      round_div_le_iff (Nat.two_pow_pos _) (by decide)
    rw [← hunits, midpoint_of_last (by omega), Nat.mul_lt_mul_left Nat.two_pos] at hround
    rw [← hround]
    omega
  · refine iff_of_false (by omega) (Nat.not_lt.mpr ?_)
    exact Nat.le_trans (threshold_le_pow hmore) (Nat.log2_self_le h)

/-- Integers of 64 bits are far below the threshold. -/
theorem below_threshold {n : Nat} (h : n < 2 ^ 64) : n < overflowThreshold :=
  Nat.lt_of_lt_of_le h (pow_le_threshold (by decide))

/-- The double nearest to a natural number below the threshold. -/
theorem round_natural (negative : Bool) {n : Nat} (h : n ≠ 0) (hbound : n < overflowThreshold) :
    ∃ rank, roundRatio negative n 1 = .finite negative rank ∧
      rank.val = (n.log2 + 1022) * 2 ^ 52 + unitsOf n :=
  ⟨_, (round_whole negative h).trans (dif_pos ((rank_lt_iff h).mpr hbound)), rfl⟩

/-- From the threshold on there is none. -/
theorem round_overflow (negative : Bool) {n : Nat} (hbound : overflowThreshold ≤ n) :
    roundRatio negative n 1 = .infinite negative := by
  have h : n ≠ 0 := Nat.ne_of_gt (Nat.lt_of_lt_of_le overflow_threshold_pos hbound)
  exact (round_whole negative h).trans
    (dif_neg fun hrank => Nat.not_lt.mpr hbound ((rank_lt_iff h).mp hrank))

/-- A positive integer of at most 53 bits is a double itself, and doubles stand no further apart
than integers there. -/
theorem round_small (negative : Bool) {n : Nat} (h : n ≠ 0) (hbound : n < 2 ^ 53) :
    ∃ rank, roundRatio negative n 1 = .finite negative rank ∧
      numerator rank = n * denominator ∧ unitShift rank ≤ 1074 := by
  have hlog : n.log2 ≤ 52 := Nat.lt_succ_iff.mp ((Nat.log2_lt h).mpr hbound)
  obtain ⟨rank, hround, hrank⟩ := round_natural negative h
    (below_threshold (Nat.lt_trans hbound (by decide)))
  have hunits := units_of_small hlog
  have hlow := (units_of_bounds h).1
  have hhigh : unitsOf n < 2 ^ 53 := by
    rw [hunits]
    calc n * 2 ^ (52 - n.log2) < 2 ^ (n.log2 + 1) * 2 ^ (52 - n.log2) :=
          Nat.mul_lt_mul_of_pos_right Nat.lt_log2_self (Nat.pow_pos (by decide))
      _ = 2 ^ 53 := by
          rw [← Nat.pow_add]
          congr 1
          omega
  refine ⟨rank, hround, ?_, ?_⟩
  · have hplaces : 52 - n.log2 + (n.log2 + 1022) = 1074 := by omega
    have hdenominator : 2 ^ (52 - n.log2) * 2 ^ (n.log2 + 1022) = denominator := by
      unfold denominator
      rw [← hplaces]
      exact (Nat.pow_add 2 _ _).symm
    rw [hrank, numerator_of_units hlow (Nat.le_of_lt hhigh), hunits, Nat.mul_assoc, hdenominator]
  · rw [hrank, (fields_of_units hlow hhigh).2]
    omega

/-- A finite double nearest to a positive integer is an integer, and not below the power of two that
the integer begins with. -/
theorem round_integer (negative : Bool) {n : Nat} (h : n ≠ 0) (hbound : n < overflowThreshold) :
    ∃ rank nearest, roundRatio negative n 1 = .finite negative rank ∧ 2 ^ n.log2 ≤ nearest ∧
      numerator rank = nearest * denominator := by
  rcases Nat.lt_or_ge n (2 ^ 53) with hsmall | hlarge
  · obtain ⟨rank, hround, hnumerator, -⟩ := round_small negative h hsmall
    exact ⟨rank, n, hround, Nat.log2_self_le h, hnumerator⟩
  · have hlog : 53 ≤ n.log2 := (Nat.le_log2 h).mpr hlarge
    obtain ⟨rank, hround, hrank⟩ := round_natural negative h hbound
    obtain ⟨hlow, hhigh⟩ := units_of_bounds h
    refine ⟨rank, unitsOf n * 2 ^ (n.log2 - 52), hround, ?_, ?_⟩
    · calc 2 ^ n.log2 = 2 ^ 52 * 2 ^ (n.log2 - 52) := by
            rw [← Nat.pow_add]
            congr 1
            omega
        _ ≤ unitsOf n * 2 ^ (n.log2 - 52) := Nat.mul_le_mul_right _ hlow
    · have hplaces : n.log2 + 1022 = n.log2 - 52 + 1074 := by omega
      have hunit : 2 ^ (n.log2 + 1022) = 2 ^ (n.log2 - 52) * denominator := by
        unfold denominator
        rw [hplaces]
        generalize 1074 = places
        exact Nat.pow_add 2 _ _
      rw [hrank, numerator_of_units hlow hhigh, hunit, Nat.mul_assoc]

end Binary64

end SchemaKeeper
