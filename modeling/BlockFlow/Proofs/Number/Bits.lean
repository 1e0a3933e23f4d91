import BlockFlow.Number.Double
import Mathlib

/-! # Numbers and their bits

A number is its sign and its magnitude: the bits of a number are read and written without loss,
but for those of what is not a number, of which only one pattern is kept.
-/

namespace BlockFlow.Number

open Float.Model Float.Model.UnpackedFloat

section Fields

variable (b : BitVec 64)

theorem toNat_unpackMantissa :
    (@unpackMantissa .binary64 b).toNat = b.toNat % 2 ^ 52 := by
  simp [unpackMantissa]

theorem toNat_unpackExponent :
    (@unpackExponent .binary64 b).toNat = b.toNat / 2 ^ 52 % 2 ^ 11 := by
  simp [unpackExponent, Nat.shiftRight_eq_div_pow]

theorem toNat_unpackSign : (@unpackSign .binary64 b).toNat = b.toNat / 2 ^ 63 := by
  have := b.isLt
  simp only [unpackSign, BitVec.toNat_cast, BitVec.extractLsb_toNat, Nat.shiftRight_eq_div_pow]
  apply Nat.mod_eq_of_lt
  omega

end Fields

theorem toNat_append {v w : Nat} (a : BitVec v) (b : BitVec w) :
    (a ++ b).toNat = a.toNat * 2 ^ w + b.toNat := by
  rw [BitVec.toNat_append, ← Nat.shiftLeft_add_eq_or_of_lt b.isLt, Nat.shiftLeft_eq]

theorem toBitVec_ofBitVec (sign : BitVec 1) : (Sign.ofBitVec sign).toBitVec = sign := by
  revert sign
  decide

theorem packComponents_unpack (b : BitVec 64) :
    packComponents .binary64 (Sign.ofBitVec (@unpackSign .binary64 b))
      (@unpackExponent .binary64 b) (@unpackMantissa .binary64 b) = b := by
  apply BitVec.eq_of_toNat_eq
  rw [packComponents, toBitVec_ofBitVec, toNat_append, toNat_append, toNat_unpackSign,
    toNat_unpackExponent, toNat_unpackMantissa]
  have := b.isLt
  change (b.toNat / 2 ^ 63 * 2 ^ 11 + b.toNat / 2 ^ 52 % 2 ^ 11) * 2 ^ 52 + b.toNat % 2 ^ 52 = _
  omega

theorem pack_subnormal (sign : Sign) {m : BitVec 52} (h : 0 < m.toNat) :
    UnpackedFloat.pack .binary64 (.finite sign m.toNat (-1074) h) =
      packComponents .binary64 sign 0 m := by
  have hLog : m.toNat.log2 + 1 ≠ Format.binary64.mantissaBits := by
    have := (Nat.log2_lt (Nat.ne_of_gt h)).mpr m.isLt
    change _ ≠ 53
    omega
  unfold UnpackedFloat.pack
  dsimp only
  rw [if_neg (by decide), if_neg hLog, BitVec.ofNat_toNat, BitVec.setWidth_eq]
  rfl

theorem pack_normal (sign : Sign) {e : BitVec 11} {m : BitVec 52} (he : e ≠ -1)
    (h : 0 < (1#1 ++ m).toNat) :
    UnpackedFloat.pack .binary64 (.finite sign (1#1 ++ m).toNat ((e.toNat : Int) - 1075) h) =
      packComponents .binary64 sign e m := by
  have hValue : (1#1 ++ m).toNat = 2 ^ 52 + m.toNat := toNat_append 1#1 m
  have hLog : (1#1 ++ m).toNat.log2 + 1 = Format.binary64.mantissaBits := by
    have := (Nat.le_log2 (Nat.ne_of_gt h)).mpr (hValue ▸ Nat.le_add_right _ _)
    have := (Nat.log2_lt (Nat.ne_of_gt h)).mpr (1#1 ++ m).isLt
    change _ = 53
    omega
  have hBiased : ((e.toNat : Int) - 1075 + Format.binary64.exponentBias +
      Format.binary64.mantissaBitsWithoutImplicit).toNat = e.toNat := by
    change ((e.toNat : Int) - 1075 + 1023 + 52).toNat = _
    omega
  have hFinite : ¬ 2 ^ 11 ≤ e.toNat + 1 := by
    intro hLe
    apply he
    apply BitVec.eq_of_toNat_eq
    have := e.isLt
    change e.toNat = 2047
    omega
  unfold UnpackedFloat.pack
  dsimp only
  rw [hBiased, if_neg hFinite, if_pos hLog]
  congr 1
  · rw [BitVec.ofNat_toNat, BitVec.setWidth_eq]
  · apply BitVec.eq_of_toNat_eq
    rw [BitVec.toNat_ofNat, hValue]
    have := m.isLt
    change (2 ^ 52 + m.toNat) % 2 ^ 52 = _
    omega

theorem pack_unpack {b : BitVec 64}
    (h : @unpackExponent .binary64 b = -1#_ → @unpackMantissa .binary64 b = 0#_) :
    UnpackedFloat.pack .binary64 (UnpackedFloat.unpack .binary64 b) = b := by
  have hParts := packComponents_unpack b
  unfold UnpackedFloat.unpack
  dsimp only
  split
  · next hInfinite =>
    rw [h hInfinite, hInfinite] at hParts
    rw [if_pos (h hInfinite)]
    exact hParts
  · next hFinite =>
    split
    · next hZero =>
      rw [hZero] at hParts
      split
      · next hNone =>
        rw [hNone] at hParts
        exact hParts
      · rw [hZero]
        exact (pack_subnormal _ _).trans hParts
    · exact (pack_normal _ hFinite _).trans hParts

theorem ofBits_toBits (x : Float) : Float.ofBits x.toBits = x := by
  obtain ⟨⟨bits, hValid⟩⟩ := x
  have hPack :
      UnpackedFloat.pack .binary64 (UnpackedFloat.unpack .binary64 bits.toBitVec) =
        bits.toBitVec := by
    by_cases hExponent : @unpackExponent .binary64 bits.toBitVec = -1#_
    · by_cases hMantissa : @unpackMantissa .binary64 bits.toBitVec = 0#_
      · exact pack_unpack fun _ => hMantissa
      · unfold UnpackedFloat.unpack
        dsimp only
        rw [if_pos hExponent, if_neg hMantissa]
        exact (hValid.eq_packedNaN hExponent hMantissa).symm
    · exact pack_unpack fun h => absurd h hExponent
  unfold Float.ofBits Float.toBits Float.Model.ofBits Float.Model.pack
  congr

theorem toBits_ofBits {bits : UInt64} (h : bits.toNat % 2 ^ 63 ≤ infiniteMagnitude) :
    (Float.ofBits bits).toBits = bits := by
  apply congrArg UInt64.ofBitVec
  apply pack_unpack
  intro hExponent
  have hExponent := congrArg BitVec.toNat hExponent
  rw [toNat_unpackExponent] at hExponent
  apply BitVec.eq_of_toNat_eq
  rw [toNat_unpackMantissa]
  change bits.toNat / 2 ^ 52 % 2 ^ 11 = 2047 at hExponent
  change bits.toNat % 2 ^ 52 = 0
  rw [infiniteMagnitude, Nat.pow_eq] at h
  omega

section Magnitude

variable {m : Nat} (negative : Bool)

theorem infiniteMagnitude_lt : infiniteMagnitude < 2 ^ 63 := by decide

theorem toBits_ofMagnitude (h : m ≤ infiniteMagnitude) :
    (ofMagnitude negative m).toBits.toNat = m + if negative then 2 ^ 63 else 0 := by
  have hLt := infiniteMagnitude_lt
  have hBits : (UInt64.ofNat (m + if negative then Nat.pow 2 63 else 0)).toNat =
      m + if negative then 2 ^ 63 else 0 := by
    rw [UInt64.toNat_ofNat', Nat.pow_eq]
    apply Nat.mod_eq_of_lt
    split <;> omega
  rw [ofMagnitude, toBits_ofBits, hBits]
  rw [hBits]
  split <;> omega

theorem magnitude_ofMagnitude (h : m ≤ infiniteMagnitude) :
    magnitude (ofMagnitude negative m) = m := by
  have hLt := infiniteMagnitude_lt
  rw [magnitude, toBits_ofMagnitude negative h, Nat.pow_eq]
  split <;> omega

theorem isNegative_ofMagnitude (h : m ≤ infiniteMagnitude) :
    isNegative (ofMagnitude negative m) = negative := by
  have hLt := infiniteMagnitude_lt
  rw [isNegative, toBits_ofMagnitude negative h, Nat.pow_eq]
  cases negative with
  | false => exact decide_eq_false (Nat.not_le.mpr (Nat.lt_of_le_of_lt h hLt))
  | true => exact decide_eq_true (Nat.le_add_left _ _)

end Magnitude

theorem ofMagnitude_magnitude (x : Float) : ofMagnitude (isNegative x) (magnitude x) = x := by
  have hBits : UInt64.ofNat (magnitude x + if isNegative x then Nat.pow 2 63 else 0) = x.toBits := by
    apply UInt64.toNat_inj.mp
    have := x.toBits.toNat_lt
    rw [UInt64.toNat_ofNat', magnitude, isNegative]
    simp only [Nat.pow_eq, decide_eq_true_eq]
    split <;> omega
  rw [ofMagnitude, hBits, ofBits_toBits]

end BlockFlow.Number
