import BlockFlow.Proofs.Number.Bits

/-! # Sums that start at zero

Zero has two signs, and adding the positive zero changes nothing but the negative one. A sum is the
negative zero only if both of its numbers are: what cancels out is the positive zero, and no other
sum is so small that it would be rounded to a zero. So a sum that starts at the positive zero does
not notice the zeros that are added to it.
-/

namespace BlockFlow.Number

open Float.Model Float.Model.UnpackedFloat

def negativeZero : Float := ofMagnitude true 0

/-- What a sum that starts at the positive zero can be: anything but the negative zero. The mantissa
and the exponent of a finite number are within their bounds. -/
inductive RunningSum : UnpackedFloat → Prop
  | notANumber : RunningSum .notANumber
  | infinity (sign : Sign) : RunningSum (.infinity sign)
  | zero : RunningSum (.zero .positive)
  | finite (sign : Sign) {mantissa : Nat} {exponent : Int} (h : 0 < mantissa) :
      mantissa < 2 ^ 53 → -1074 ≤ exponent → RunningSum (.finite sign mantissa exponent h)

/-! ## Rounding -/

theorem mantissa_shiftRight (m : ExtendedMantissa) (count : Nat) :
    (m >>> count).mantissa = m.mantissa / 2 ^ count := by
  induction count with
  | zero => exact (Nat.div_one _).symm
  | succ count ih =>
    change (m >>> count).mantissa / 2 = _
    rw [ih, Nat.div_div_eq_div_mul, Nat.pow_succ]

theorem mantissa_ofMantissaAndAccuracy (mantissa : Nat) (accuracy : Accuracy) :
    (ExtendedMantissa.ofMantissaAndAccuracy mantissa accuracy).mantissa = mantissa := by
  cases accuracy with
  | exact => rfl
  | inexact order => cases order <;> rfl

theorem le_roundToNearestEven (mantissa : Nat) (accuracy : Accuracy) :
    mantissa ≤ accuracy.roundToNearestEven mantissa := by
  cases accuracy with
  | exact => exact Nat.le_refl _
  | inexact order =>
    cases order with
    | lt => exact Nat.le_refl _
    | eq => exact Nat.le_add_right _ _
    | gt => exact Nat.le_succ _

/-- A mantissa that is not zero and not below the least exponent loses digits only as far as it has
more than 53 of them. -/
theorem shiftToTargetExponent_bounds {mantissa : Nat} {exponent : Int} (hMantissa : 0 < mantissa)
    (hExponent : -1074 ≤ exponent) (accuracy : Accuracy) :
    let shifted := shiftToTargetExponent .binary64 mantissa exponent accuracy
    0 < shifted.1.mantissa ∧ shifted.1.mantissa < 2 ^ 53 ∧ -1074 ≤ shifted.2 := by
  have hTarget : Format.binary64.targetExponent (totalExponent mantissa exponent) =
      max ((mantissa.log2 + 1 + exponent : Int) - 53) (-1074) := rfl
  have hLow : 2 ^ mantissa.log2 ≤ mantissa := Nat.log2_self_le (Nat.ne_of_gt hMantissa)
  have hHigh : mantissa < 2 ^ (mantissa.log2 + 1) := Nat.lt_log2_self
  have hCount : (max ((mantissa.log2 + 1 + exponent : Int) - 53) (-1074) - exponent).toNat =
      mantissa.log2 - 52 := by omega
  dsimp only [shiftToTargetExponent, shiftToExponent]
  rw [hTarget, hCount, mantissa_shiftRight, mantissa_ofMantissaAndAccuracy]
  refine ⟨?_, ?_, by omega⟩
  · apply Nat.div_pos _ (Nat.two_pow_pos _)
    exact Nat.le_trans (Nat.pow_le_pow_right Nat.two_pos (Nat.sub_le _ _)) hLow
  · rw [Nat.div_lt_iff_lt_mul (Nat.two_pow_pos _), ← Nat.pow_add]
    exact Nat.lt_of_lt_of_le hHigh (Nat.pow_le_pow_right Nat.two_pos (by omega))

theorem runningSum_roundWithAccuracy {mantissa : Nat} {exponent : Int} (sign : Sign)
    (accuracy : Accuracy) (hMantissa : 0 < mantissa) (hExponent : -1074 ≤ exponent) :
    RunningSum (roundWithAccuracy .binary64 sign mantissa exponent accuracy) := by
  obtain ⟨hPos, -, hLeast⟩ := shiftToTargetExponent_bounds hMantissa hExponent accuracy
  have hRounded := Nat.lt_of_lt_of_le hPos (le_roundToNearestEven _
    (shiftToTargetExponent .binary64 mantissa exponent accuracy).1.accuracy)
  -- rounding up may have made the mantissa one digit longer, so that it is shifted again
  obtain ⟨hPos', hLt', hLeast'⟩ := shiftToTargetExponent_bounds hRounded hLeast .exact
  unfold roundWithAccuracy
  dsimp only
  split
  · next hZero => exact absurd hZero (Nat.ne_of_gt hPos')
  · exact .finite sign _ hLt' hLeast'

theorem runningSum_round {mantissa : Nat} {exponent : Int} (sign : Sign)
    (hMantissa : 0 < mantissa) (hExponent : -1074 ≤ exponent) :
    RunningSum (round .binary64 sign mantissa exponent) := by
  have hTarget : -1074 ≤ Format.binary64.targetExponent (totalExponent mantissa exponent) :=
    Int.le_max_right _ _
  apply runningSum_roundWithAccuracy
  · rw [Nat.shiftLeft_eq]
    exact Nat.mul_pos hMantissa (Nat.two_pow_pos _)
  · omega

/-- What cancels out is the positive zero. -/
theorem runningSum_normalize (mantissa : Int) {exponent : Int} (hExponent : -1074 ≤ exponent) :
    RunningSum (UnpackedFloat.normalize .binary64 mantissa exponent .positive) := by
  rw [UnpackedFloat.normalize]
  rcases Int.lt_trichotomy mantissa 0 with hMantissa | rfl | hMantissa
  · rw [Int.compare_eq_lt.mpr hMantissa]
    exact runningSum_round _ (by omega) hExponent
  · exact .zero
  · rw [Int.compare_eq_gt.mpr hMantissa]
    exact runningSum_round _ (by omega) hExponent

/-! ## Packed numbers -/

theorem pack_finite_ne (sign sign' : Sign) {mantissa : Nat} {exponent : Int} (h : 0 < mantissa)
    (hLt : mantissa < 2 ^ 53) (hLeast : -1074 ≤ exponent) :
    UnpackedFloat.pack .binary64 (.finite sign mantissa exponent h) ≠
      packedZero .binary64 sign' := by
  intro hZero
  have hExponent := congrArg (@unpackExponent .binary64) hZero
  have hMantissa := congrArg (@unpackMantissa .binary64) hZero
  rw [packedZero, unpackExponent_packComponents] at hExponent
  rw [packedZero, unpackMantissa_packComponents] at hMantissa
  have hBiased : (exponent + (Format.binary64.exponentBias : Int) +
      (Format.binary64.mantissaBitsWithoutImplicit : Int)).toNat = (exponent + 1075).toNat := by
    change (exponent + 1023 + 52).toNat = _
    omega
  rw [UnpackedFloat.pack] at hExponent hMantissa
  dsimp only at hExponent hMantissa
  rw [hBiased] at hExponent hMantissa
  split at hExponent
  · rw [packedInfinity, unpackExponent_packComponents] at hExponent
    cases hExponent
  · next hFinite =>
    split at hExponent
    · -- a normal number has an exponent that is not zero
      rw [unpackExponent_packComponents] at hExponent
      have hBits := congrArg BitVec.toNat hExponent
      rw [BitVec.toNat_ofNat] at hBits
      change (exponent + 1075).toNat % 2048 = 0 at hBits
      change ¬ 2048 ≤ (exponent + 1075).toNat + 1 at hFinite
      omega
    · -- a subnormal one has a mantissa that is not zero
      next hSubnormal =>
      rw [if_neg hFinite, if_neg hSubnormal, unpackMantissa_packComponents] at hMantissa
      have hBits := congrArg BitVec.toNat hMantissa
      rw [BitVec.toNat_ofNat] at hBits
      change mantissa % 2 ^ 52 = 0 at hBits
      change ¬ mantissa.log2 + 1 = 53 at hSubnormal
      have hLog := (Nat.log2_lt (Nat.ne_of_gt h)).mpr hLt
      have hLess := (Nat.log2_lt (k := 52) (Nat.ne_of_gt h)).mp (by omega)
      omega

theorem unpack_bounds {b : BitVec 64} {sign : Sign} {mantissa : Nat} {exponent : Int}
    {h : 0 < mantissa} (hUnpack : UnpackedFloat.unpack .binary64 b = .finite sign mantissa exponent h) :
    mantissa < 2 ^ 53 ∧ -1074 ≤ exponent := by
  unfold UnpackedFloat.unpack at hUnpack
  dsimp only at hUnpack
  split at hUnpack
  · split at hUnpack <;> cases hUnpack
  · split at hUnpack
    · next hZero =>
      split at hUnpack
      · cases hUnpack
      · cases hUnpack
        rw [hZero]
        exact ⟨Nat.lt_trans (@unpackMantissa .binary64 b).isLt (by decide), by decide⟩
    · next hNormal =>
      cases hUnpack
      have hPos : (@unpackExponent .binary64 b).toNat ≠ 0 := by
        intro hNone
        exact hNormal (BitVec.eq_of_toNat_eq hNone)
      refine ⟨(1#1 ++ @unpackMantissa .binary64 b).isLt, ?_⟩
      change -1074 ≤ ((@unpackExponent .binary64 b).toNat : Int) - (1023 + 52)
      omega

theorem runningSum_unpack {b : BitVec 64} :
    UnpackedFloat.unpack .binary64 b = .zero .negative ∨
      RunningSum (UnpackedFloat.unpack .binary64 b) := by
  cases hUnpack : UnpackedFloat.unpack .binary64 b with
  | notANumber => exact .inr .notANumber
  | infinity sign => exact .inr (.infinity sign)
  | zero sign =>
    cases sign with
    | negative => exact .inl rfl
    | positive => exact .inr .zero
  | finite sign mantissa exponent h =>
    obtain ⟨hLt, hLeast⟩ := unpack_bounds hUnpack
    exact .inr (.finite sign h hLt hLeast)

/-! ## Sums -/

namespace RunningSum

variable {x y : UnpackedFloat}

theorem pack_ne (hx : RunningSum x) :
    UnpackedFloat.pack .binary64 x ≠ packedZero .binary64 .negative := by
  cases hx with
  | notANumber => decide
  | infinity sign => cases sign <;> decide
  | zero => decide
  | finite sign h hLt hLeast => exact pack_finite_ne _ _ h hLt hLeast

theorem add_positiveZero (hx : RunningSum x) : UnpackedFloat.add .binary64 x (.zero .positive) = x := by
  cases hx <;> rfl

/-- Whatever is added to a running sum, the sum is one again. -/
theorem add (hx : RunningSum x) (hy : y = .zero .negative ∨ RunningSum y) :
    RunningSum (UnpackedFloat.add .binary64 x y) := by
  fun_cases UnpackedFloat.add .binary64 x y with
  | case1 y => exact .notANumber
  | case2 x => exact .notANumber
  | case3 sign sign' hSame => exact hx
  | case4 sign sign' hApart => exact .notANumber
  | case5 y sign => exact hx
  | case6 x sign => exact .infinity sign
  | case7 sign sign' hSame => exact hx
  | case8 sign sign' hApart => exact .zero
  | case9 y sign _ _ hNonzero => exact hy.resolve_left (hNonzero .negative)
  | case10 x sign => exact hx
  | case11 sign m e hPos sign' m' e' hPos' least =>
    cases hx with
    | finite _ _ _ hLeast =>
      obtain hZero | hy := hy
      · cases hZero
      · cases hy with
        | finite _ _ _ hLeast' =>
          exact runningSum_normalize _ (Int.le_min.mpr ⟨hLeast, hLeast'⟩)

end RunningSum

theorem ofModel_pack_unpack (x : Float) : Float.ofModel (Float.Model.pack x.toModel.unpack) = x :=
  ofBits_toBits x

theorem runningSum_iff {x : Float} : RunningSum x.toModel.unpack ↔ x ≠ negativeZero := by
  constructor
  · rintro hSum rfl
    exact hSum.pack_ne rfl
  · intro hx
    rcases runningSum_unpack (b := x.toModel.toBits.toBitVec) with hZero | hSum
    · have hUnpack : x.toModel.unpack = .zero .negative := hZero
      rw [← ofModel_pack_unpack x, hUnpack] at hx
      exact absurd rfl hx
    · exact hSum

theorem add_ne_negativeZero {x : Float} (hx : x ≠ negativeZero) (y : Float) :
    x + y ≠ negativeZero := by
  have hSum := (runningSum_iff.mpr hx).add (runningSum_unpack (b := y.toModel.toBits.toBitVec))
  intro hZero
  have hBits := congrArg (fun z : Float => z.toModel.toBits.toBitVec) hZero
  exact hSum.pack_ne hBits

/-- The positive zero is added to a number without a change, unless this is the negative zero. -/
theorem add_zero_of_ne {x : Float} (hx : x ≠ negativeZero) : x + 0 = x := by
  have hSum : Float.ofModel (Float.Model.pack (UnpackedFloat.add .binary64 x.toModel.unpack
      (.zero .positive))) = x := by
    rw [(runningSum_iff.mpr hx).add_positiveZero, ofModel_pack_unpack]
  exact hSum

end BlockFlow.Number
