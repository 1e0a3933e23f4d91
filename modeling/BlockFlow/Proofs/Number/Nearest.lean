import BlockFlow.Number.Shortest
import Mathlib.Algebra.Order.Field.Rat
import Mathlib.Tactic.Ring

/-! # The nearest number and what it depends on

The magnitude nearest to a decimal depends on the rational number that it denotes, not on how it is
written. The exponents that are cut off have the nearest magnitude that is given for them, and a
finite magnitude is the nearest one to its own value; hence the fewest digits read back.
-/

namespace BlockFlow.Number

-- The exponent is a variable, so that no step computes the power.
theorem unitsPerOne_eq {k : Nat} (hk : k = 1074) : unitsPerOne = 2 ^ k := by
  delta unitsPerOne
  rw [← hk]
  rfl

theorem unitsPerOne_pos : 0 < unitsPerOne := by
  obtain ⟨k, hk⟩ : ∃ k, k = 1074 := ⟨_, rfl⟩
  rw [unitsPerOne_eq hk]
  exact Nat.two_pow_pos k

theorem two_pow_three_mul_le (e : Nat) : 2 ^ (3 * e) ≤ 10 ^ e := by
  rw [Nat.pow_mul]
  exact Nat.pow_le_pow_left (by decide) e

/-! ## Fractions -/

theorem roundHalfEven_mul_left (num den : Nat) {k : Nat} (hk : 0 < k) :
    roundHalfEven (k * num) (k * den) = roundHalfEven num den := by
  have hLow (r : Nat) : 2 * (k * r) < k * den ↔ 2 * r < den := by
    rw [Nat.mul_left_comm]
    exact Nat.mul_lt_mul_left hk
  have hHigh (r : Nat) : k * den < 2 * (k * r) ↔ den < 2 * r := by
    rw [Nat.mul_left_comm]
    exact Nat.mul_lt_mul_left hk
  simp only [roundHalfEven, Nat.mul_div_mul_left _ _ hk, Nat.mul_mod_mul_left, hLow, hHigh]

theorem nearestMagnitude_mul_left (num den : Nat) {k : Nat} (hk : 0 < k) :
    nearestMagnitude (k * num) (k * den) = nearestMagnitude num den := by
  simp only [nearestMagnitude, Nat.mul_assoc, Nat.mul_div_mul_left _ _ hk,
    roundHalfEven_mul_left _ _ hk]

theorem nearestMagnitude_congr {num den num' den' : Nat} (hDen : 0 < den) (hDen' : 0 < den')
    (h : num * den' = num' * den) : nearestMagnitude num den = nearestMagnitude num' den' := by
  calc nearestMagnitude num den
      = nearestMagnitude (den' * num) (den' * den) := (nearestMagnitude_mul_left _ _ hDen').symm
    _ = nearestMagnitude (den * num') (den * den') := by
        rw [Nat.mul_comm den' num, h, Nat.mul_comm num' den, Nat.mul_comm den' den]
    _ = nearestMagnitude num' den' := nearestMagnitude_mul_left _ _ hDen

theorem nearestMagnitude_eq_zero {num den : Nat} (h : 2 * (num * unitsPerOne) < den) :
    nearestMagnitude num den = 0 := by
  have hLt : num * unitsPerOne < den := by omega
  have hPower : (0 : Nat).log2 - 52 = 0 := rfl
  have hRound : roundHalfEven (num * unitsPerOne) den = 0 := by
    simp only [roundHalfEven, Nat.div_eq_of_lt hLt, Nat.mod_eq_of_lt hLt, if_pos h]
  simp only [nearestMagnitude, Nat.div_eq_of_lt hLt, hPower, Nat.pow_eq, Nat.pow_zero, Nat.mul_one,
    hRound, Nat.zero_mul, Nat.add_zero, Nat.min_zero]

theorem nearestMagnitude_eq_infinite {num den p : Nat} (hDen : 0 < den) (hp : 2099 ≤ p)
    (h : 2 ^ p * den ≤ num * unitsPerOne) : nearestMagnitude num den = infiniteMagnitude := by
  have hQuotient : 2 ^ p ≤ num * unitsPerOne / den := (Nat.le_div_iff_mul_le hDen).mpr h
  have hLog : p ≤ (num * unitsPerOne / den).log2 := by
    apply (Nat.le_log2 _).mpr hQuotient
    have := Nat.two_pow_pos p
    omega
  have hBits : 2047 * 2 ^ 52 ≤ ((num * unitsPerOne / den).log2 - 52) * 2 ^ 52 :=
    Nat.mul_le_mul_right _ (by omega)
  exact Nat.min_eq_left (Nat.le_add_right_of_le hBits)

theorem nearestMagnitude_le (num den : Nat) : nearestMagnitude num den ≤ infiniteMagnitude :=
  Nat.min_le_left _ _

/-! ## Magnitudes -/

section Magnitude

variable {m : Nat}

theorem significand_of_lt (h : m < 2 ^ 52) : significand m = m ∧ shift m = 0 := by
  have hShift : shift m = 0 := by
    rw [shift, Nat.pow_eq]
    omega
  rw [significand, hShift]
  omega

theorem significand_of_le (h : 2 ^ 52 ≤ m) : 2 ^ 52 ≤ significand m ∧ significand m < 2 ^ 53 := by
  simp only [significand, shift, Nat.pow_eq]
  omega

theorem shift_add_significand (m : Nat) : shift m * 2 ^ 52 + significand m = m := by
  simp only [significand, shift, Nat.pow_eq]
  omega

/-- The power of two that leaves a significand of 53 bits is the one that the magnitude names. -/
theorem log2_units (m : Nat) : (units m).log2 - 52 = shift m := by
  by_cases hm : m < 2 ^ 52
  · obtain ⟨hSignificand, hShift⟩ := significand_of_lt hm
    rw [units, hSignificand, hShift, Nat.pow_eq, Nat.pow_zero, Nat.mul_one]
    by_cases hZero : m = 0
    · rw [hZero]
      rfl
    · have := (Nat.log2_lt hZero).mpr hm
      omega
  · obtain ⟨hLow, hHigh⟩ := significand_of_le (Nat.le_of_not_lt hm)
    have hUnits : units m ≠ 0 :=
      Nat.mul_ne_zero (by omega) (Nat.ne_of_gt (Nat.two_pow_pos (shift m)))
    have hLog : (units m).log2 = 52 + shift m := by
      rw [Nat.log2_eq_iff hUnits, units, Nat.pow_eq, Nat.pow_add, Nat.add_right_comm, Nat.pow_add]
      exact ⟨Nat.mul_le_mul_right _ hLow, Nat.mul_lt_mul_of_pos_right hHigh (Nat.two_pow_pos _)⟩
    omega

theorem nearestMagnitude_units (h : m ≤ infiniteMagnitude) :
    nearestMagnitude (units m) unitsPerOne = m := by
  have hRound : roundHalfEven (units m * unitsPerOne) (unitsPerOne * Nat.pow 2 (shift m)) =
      significand m := by
    rw [units, Nat.mul_assoc, Nat.mul_comm _ unitsPerOne]
    exact roundHalfEven_mul _ (Nat.mul_pos unitsPerOne_pos (Nat.two_pow_pos _))
  rw [nearestMagnitude, Nat.mul_div_cancel _ unitsPerOne_pos, log2_units, hRound, Nat.pow_eq,
    shift_add_significand]
  exact Nat.min_eq_right h

end Magnitude

namespace Decimal

theorem toFraction_den_pos (d : Decimal) : 0 < d.toFraction.2 := Nat.pow_pos (by decide)

/-- No exponent is cut off before it could matter. -/
theorem nearest_eq (d : Decimal) : d.nearest = nearestMagnitude d.toFraction.1 d.toFraction.2 := by
  obtain ⟨digits, exponent⟩ := d
  obtain ⟨k, hk⟩ : ∃ k, k = 1074 := ⟨_, rfl⟩
  unfold nearest
  dsimp only
  split
  · next hZero =>
    subst hZero
    refine (nearestMagnitude_eq_zero ?_).symm
    rw [toFraction, Nat.zero_mul, Nat.zero_mul]
    exact toFraction_den_pos ⟨0, exponent⟩
  · next hDigits =>
    split
    · next hLarge =>
      obtain ⟨e, rfl⟩ := Int.eq_ofNat_of_zero_le (show 0 ≤ exponent by omega)
      refine (nearestMagnitude_eq_infinite (p := 3 * e + k) (toFraction_den_pos _) ?_ ?_).symm
      · omega
      · have hExponent : (-(e : Int)).toNat = 0 := by omega
        simp only [toFraction, Nat.pow_eq, hExponent, Int.toNat_natCast, Nat.pow_zero, Nat.mul_one]
        rw [unitsPerOne_eq hk, Nat.pow_add]
        apply Nat.mul_le_mul_right
        calc 2 ^ (3 * e) ≤ 10 ^ e := two_pow_three_mul_le e
          _ ≤ digits * 10 ^ e := Nat.le_mul_of_pos_left _ (Nat.pos_of_ne_zero hDigits)
    · split
      · next hSmall =>
        obtain ⟨e, rfl⟩ : ∃ e : Nat, exponent = -e := ⟨exponent.natAbs, by omega⟩
        refine (nearestMagnitude_eq_zero ?_).symm
        have hExponent : (-(e : Int)).toNat = 0 := by omega
        simp only [toFraction, Nat.pow_eq, hExponent, Int.neg_neg, Int.toNat_natCast, Nat.pow_zero,
          Nat.mul_one]
        rw [unitsPerOne_eq hk]
        calc 2 * (digits * 2 ^ k) < 2 * (2 ^ (digits.log2 + 1) * 2 ^ k) := by
              have := Nat.mul_lt_mul_of_pos_right (Nat.lt_log2_self (n := digits))
                (Nat.two_pow_pos k)
              omega
          _ = 2 ^ (digits.log2 + 2 + k) := by ring
          _ ≤ 2 ^ (3 * e) := Nat.pow_le_pow_right (by decide) (by omega)
          _ ≤ 10 ^ e := two_pow_three_mul_le e
      · rfl

theorem nearest_le (d : Decimal) : d.nearest ≤ infiniteMagnitude := by
  rw [nearest_eq]
  exact nearestMagnitude_le _ _

/-! The rational number that a decimal is decides what it is rounded to. -/

def value (d : Decimal) : Rat := d.digits * (10 : Rat) ^ d.exponent

theorem value_eq_div (d : Decimal) : d.value = (d.toFraction.1 : Rat) / d.toFraction.2 := by
  obtain ⟨digits, exponent⟩ := d
  have hExponent : exponent = exponent.toNat - (-exponent).toNat := by omega
  have hPower : (10 : Rat) ^ exponent = 10 ^ exponent.toNat / 10 ^ (-exponent).toNat := by
    conv_lhs => rw [hExponent]
    rw [zpow_sub₀ (by decide), zpow_natCast, zpow_natCast]
  simp only [value, toFraction, Nat.pow_eq, hPower]
  push_cast
  ring

theorem nearest_congr {d d' : Decimal} (h : d.value = d'.value) : d.nearest = d'.nearest := by
  have hDen := d.toFraction_den_pos
  have hDen' := d'.toFraction_den_pos
  rw [value_eq_div, value_eq_div, div_eq_div_iff (by exact_mod_cast hDen.ne')
    (by exact_mod_cast hDen'.ne')] at h
  rw [nearest_eq, nearest_eq]
  exact nearestMagnitude_congr hDen hDen' (by exact_mod_cast h)

/-- Zeros at the end of the digits count as much as the exponent. -/
theorem value_mul_pow (digits k : Nat) (exponent : Int) :
    value ⟨digits * Nat.pow 10 k, exponent⟩ = value ⟨digits, exponent + k⟩ := by
  rw [value, value, zpow_add₀ (by decide), zpow_natCast, Nat.pow_eq]
  push_cast
  ring

theorem value_trim (d : Decimal) : d.trim.value = d.value := by
  fun_induction trim d with
  | case1 d h ih =>
    have hDigits : d.digits = d.digits / 10 * Nat.pow 10 1 := by
      rw [Nat.pow_eq, Nat.pow_one]
      omega
    calc (trim ⟨d.digits / 10, d.exponent + 1⟩).value
        = value ⟨d.digits / 10, d.exponent + 1⟩ := ih
      _ = value ⟨d.digits / 10 * Nat.pow 10 1, d.exponent⟩ := (value_mul_pow _ 1 _).symm
      _ = d.value := by rw [← hDigits]
  | case2 d h => rfl

/-- A decimal without zeros that do not count: none at the end of digits behind the point, and none but
a single one for zero. -/
structure Reduced (d : Decimal) : Prop where
  last : d.exponent < 0 → d.digits % 10 ≠ 0
  zero : d.digits = 0 → d.exponent = 0

theorem digits_trim (d : Decimal) : d.trim.digits % 10 ≠ 0 ∨ d.trim.digits = 0 := by
  fun_induction trim d with
  | case1 d h ih => exact ih
  | case2 d h => omega

end Decimal

/-! ## The fewest digits -/

theorem nearest_allDigits {m : Nat} (h : m ≤ infiniteMagnitude) : (allDigits m).nearest = m := by
  obtain ⟨k, hk⟩ : ∃ k, k = 1074 := ⟨_, rfl⟩
  have hDigits : allDigits m = ⟨units m * 5 ^ k, -k⟩ := by
    delta allDigits
    rw [← hk]
    congr 1
    omega
  have hFraction : (allDigits m).toFraction = (units m * 5 ^ k, 10 ^ k) := by
    rw [hDigits, Decimal.toFraction, Int.neg_neg, Int.toNat_natCast, Int.toNat_neg_natCast,
      Nat.pow_eq, Nat.pow_zero, Nat.mul_one, Nat.pow_eq]
  rw [Decimal.nearest_eq, hFraction]
  refine Eq.trans ?_ (nearestMagnitude_units h)
  apply nearestMagnitude_congr (Nat.pow_pos (by decide)) unitsPerOne_pos
  rw [unitsPerOne_eq hk, Nat.mul_assoc, ← Nat.mul_pow]

theorem nearest_shortest {m : Nat} (h : m < infiniteMagnitude) : (shortest m).nearest = m := by
  unfold shortest
  split
  · next hZero =>
    rw [hZero]
    rfl
  · dsimp only
    rw [Decimal.nearest_congr (Decimal.value_trim _)]
    generalize hFound : List.findSome? _ _ = found
    cases found with
    | none => exact nearest_allDigits (Nat.le_of_lt h)
    | some d =>
      obtain ⟨n, -, hRead⟩ := List.exists_of_findSome?_eq_some hFound
      exact nearest_of_readingBack? hRead

theorem exists_shortest_eq_trim {m : Nat} (h : m ≠ 0) : ∃ d : Decimal, shortest m = d.trim :=
  ⟨_, if_neg h⟩

theorem reduced_shortest {m : Nat} (h : m < infiniteMagnitude) : (shortest m).Reduced := by
  by_cases hZero : m = 0
  · rw [shortest, if_pos hZero]
    exact ⟨fun hNeg => absurd hNeg (Int.lt_irrefl 0), fun _ => rfl⟩
  · have hNearest := nearest_shortest h
    obtain ⟨d, hTrim⟩ := exists_shortest_eq_trim hZero
    have hDigits : (shortest m).digits ≠ 0 := by
      intro hDigits
      rw [Decimal.nearest, if_pos hDigits] at hNearest
      exact hZero hNearest.symm
    rw [hTrim] at hDigits ⊢
    exact ⟨fun _ => d.digits_trim.resolve_right hDigits, fun hNone => absurd hNone hDigits⟩

end BlockFlow.Number
