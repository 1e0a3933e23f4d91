import BlockFlow.Box.Width
import Mathlib.Algebra.Order.Field.Rat
import Mathlib.Tactic.Linarith

/-! # Used widths over exact numbers

The used width, the used margins and the edges between them fill the containing block, except where a
lone `auto` margin of a width that is given has become zero: then they fill no more than that.
-/

namespace BlockFlow

theorem Value.pixels_eq_zero_of_isAuto {v : Value Rat} (h : v.isAuto = true) : v.pixels = 0 := by
  cases v with
  | keyword name => rfl
  | length x => cases h
  | color c => cases h

theorem Value.isAuto_iff {v : Value Rat} : v.isAuto = true ↔ v = .auto := by
  cases v with
  | keyword name => simp [isAuto, auto]
  | length x => simp [isAuto, auto]
  | color c => simp [isAuto, auto]

theorem Value.isAuto_eq_false_iff {v : Value Rat} : v.isAuto = false ↔ v ≠ .auto := by
  rw [← Bool.not_eq_true, isAuto_iff]

namespace WidthValues

variable (v : WidthValues Rat) (containing : Rat)

theorem total_eq : v.total = v.marginLeft.pixels + v.marginRight.pixels + v.borderLeft.pixels +
    v.borderRight.pixels + v.paddingLeft.pixels + v.paddingRight.pixels + v.width.pixels := by
  have hSum : v.total = 0 + v.marginLeft.pixels + v.marginRight.pixels + v.borderLeft.pixels +
      v.borderRight.pixels + v.paddingLeft.pixels + v.paddingRight.pixels + v.width.pixels := rfl
  rw [hSum, zero_add]

/-- The used width with the edges on both sides of it, and no margins. -/
def usedBorderBox : Rat :=
  v.borderLeft.pixels + v.paddingLeft.pixels + (v.used containing).width + v.paddingRight.pixels +
    v.borderRight.pixels

theorem used_of_auto (h : v.width.isAuto = true) :
    v.used containing =
      if 0 ≤ containing - v.total then
        ⟨v.marginLeft.pixels, containing - v.total, v.marginRight.pixels⟩
      else ⟨v.marginLeft.pixels, 0, v.marginRight.pixels + (containing - v.total)⟩ := by
  rw [used, if_pos h]
  simp only [Scalar.le, Scalar.zero, decide_eq_true_eq]

theorem used_of_given (h : v.width.isAuto = false) :
    v.used containing =
      if containing < v.total then
        ⟨v.marginLeft.pixels, v.width.pixels, v.marginRight.pixels + (containing - v.total)⟩
      else if v.marginLeft.isAuto = true then
        if v.marginRight.isAuto = true then
          ⟨(containing - v.total) / 2, v.width.pixels, (containing - v.total) / 2⟩
        else ⟨0, v.width.pixels, v.marginRight.pixels⟩
      else if v.marginRight.isAuto = true then ⟨v.marginLeft.pixels, v.width.pixels, 0⟩
      else ⟨v.marginLeft.pixels, v.width.pixels, v.marginRight.pixels + (containing - v.total)⟩ := by
  have hOverflows : v.overflows containing = decide (containing < v.total) := by
    rw [overflows, h]
    rfl
  rw [used, if_neg (by simp [h]), hOverflows]
  by_cases hLt : containing < v.total
  · simp only [hLt, decide_true, Bool.not_true, Bool.and_false, if_true]
  · simp only [hLt, decide_false, Bool.not_false, Bool.and_true, if_false]
    cases v.marginLeft.isAuto with
    | true => cases v.marginRight.isAuto <;> rfl
    | false => cases v.marginRight.isAuto <;> rfl

/-- The used widths and the edges sum up to the containing width, but for a lone `auto` margin. -/
theorem used_sum :
    (v.used containing).marginLeft + v.usedBorderBox containing + (v.used containing).marginRight =
      if v.width.isAuto = false ∧ v.marginLeft.isAuto ≠ v.marginRight.isAuto ∧ v.total ≤ containing
      then v.total else containing := by
  have hTotal := v.total_eq
  cases hWidth : v.width.isAuto with
  | true =>
    have hZero := Value.pixels_eq_zero_of_isAuto hWidth
    rw [if_neg (by simp), usedBorderBox, used_of_auto v containing hWidth]
    split
    · dsimp only
      linarith
    · dsimp only
      linarith
  | false =>
    by_cases hLt : containing < v.total
    · rw [if_neg (by simp [hLt]), usedBorderBox, used_of_given v containing hWidth, if_pos hLt]
      dsimp only
      linarith
    have hLe : v.total ≤ containing := le_of_not_gt hLt
    cases hLeft : v.marginLeft.isAuto with
    | true =>
      have hLeftZero := Value.pixels_eq_zero_of_isAuto hLeft
      cases hRight : v.marginRight.isAuto with
      | true =>
        have hRightZero := Value.pixels_eq_zero_of_isAuto hRight
        rw [if_neg (by simp), usedBorderBox, used_of_given v containing hWidth, if_neg hLt,
          if_pos hLeft, if_pos hRight]
        dsimp only
        linarith
      | false =>
        rw [if_pos (by simp [hLe]), usedBorderBox, used_of_given v containing hWidth, if_neg hLt,
          if_pos hLeft, if_neg (by simp [hRight])]
        dsimp only
        linarith
    | false =>
      cases hRight : v.marginRight.isAuto with
      | true =>
        have hRightZero := Value.pixels_eq_zero_of_isAuto hRight
        rw [if_pos (by simp [hLe]), usedBorderBox, used_of_given v containing hWidth, if_neg hLt,
          if_neg (by simp [hLeft]), if_pos hRight]
        dsimp only
        linarith
      | false =>
        rw [if_neg (by simp), usedBorderBox, used_of_given v containing hWidth, if_neg hLt,
          if_neg (by simp [hLeft]), if_neg (by simp [hRight])]
        dsimp only
        linarith

/-! ## What becomes of the containing width -/

/-- One margin alone is `auto`, beside a width that is given and with no more given than there is. -/
structure LoneMargin : Prop where
  width : v.width ≠ .auto
  lone : v.marginLeft = .auto ↔ v.marginRight ≠ .auto
  fits : v.total ≤ containing

/-- The used width and margins with the edges between them. -/
def extent (u : UsedWidth Rat) : Rat :=
  u.marginLeft + v.borderLeft.pixels + v.paddingLeft.pixels + u.width + v.paddingRight.pixels +
    v.borderRight.pixels + u.marginRight

/-- The containing width is shared out between the width and the margins. Nothing of it is lost but
beside a lone margin, and what was given is used as it is, except that a right margin may give way. -/
structure SharedOut (u : UsedWidth Rat) : Prop where
  filled : ¬ v.LoneMargin containing → v.extent u = containing
  lone : v.LoneMargin containing → v.extent u = v.total
  lone_left : v.LoneMargin containing → v.marginLeft = .auto →
    u = ⟨0, v.width.pixels, v.marginRight.pixels⟩
  lone_right : v.LoneMargin containing → v.marginRight = .auto →
    u = ⟨v.marginLeft.pixels, v.width.pixels, 0⟩
  width : v.width ≠ .auto → u.width = v.width.pixels
  width_auto : v.width = .auto → u.width = max 0 (containing - v.total)
  marginLeft : v.marginLeft ≠ .auto → u.marginLeft = v.marginLeft.pixels
  centred : v.width ≠ .auto → v.marginLeft = .auto → v.marginRight = .auto →
    v.total ≤ containing → u.marginLeft = u.marginRight ∧ 0 ≤ u.marginLeft
  overflowing : v.width ≠ .auto → v.marginLeft = .auto → v.marginRight = .auto →
    containing < v.total → u.marginLeft = 0 ∧ u.marginRight = containing - v.total

theorem loneMargin_iff : v.LoneMargin containing ↔
    v.width.isAuto = false ∧ v.marginLeft.isAuto ≠ v.marginRight.isAuto ∧ v.total ≤ containing := by
  have hLone : v.marginLeft.isAuto ≠ v.marginRight.isAuto ↔
      (v.marginLeft = .auto ↔ v.marginRight ≠ .auto) := by
    rw [← Value.isAuto_iff, ← Value.isAuto_eq_false_iff]
    cases v.marginLeft.isAuto <;> cases v.marginRight.isAuto <;> simp
  rw [hLone, Value.isAuto_eq_false_iff]
  exact ⟨fun ⟨hWidth, hLone, hFits⟩ => ⟨hWidth, hLone, hFits⟩,
    fun ⟨hWidth, hLone, hFits⟩ => ⟨hWidth, hLone, hFits⟩⟩

theorem extent_used : v.extent (v.used containing) =
    if v.width.isAuto = false ∧ v.marginLeft.isAuto ≠ v.marginRight.isAuto ∧ v.total ≤ containing
    then v.total else containing := by
  rw [← used_sum, extent, usedBorderBox]
  simp only [add_assoc]

theorem width_used_of_auto (h : v.width.isAuto = true) :
    (v.used containing).width = max 0 (containing - v.total) := by
  rw [used_of_auto v containing h]
  split
  · next hFree => exact (max_eq_right hFree).symm
  · next hFree => exact (max_eq_left (le_of_not_ge hFree)).symm

theorem width_used_of_given (h : v.width.isAuto = false) :
    (v.used containing).width = v.width.pixels := by
  rw [used_of_given v containing h]
  split_ifs <;> rfl

theorem marginLeft_used (h : v.marginLeft.isAuto = false) :
    (v.used containing).marginLeft = v.marginLeft.pixels := by
  cases hWidth : v.width.isAuto with
  | true =>
    rw [used_of_auto v containing hWidth]
    split <;> rfl
  | false =>
    have hLeft : ¬ v.marginLeft.isAuto = true := by simp [h]
    rw [used_of_given v containing hWidth, if_neg hLeft]
    split_ifs <;> rfl

/-- Whatever the values are, keywords, colors and negative lengths among them, the used width and
margins share out the containing width. -/
theorem used_sharedOut : v.SharedOut containing (v.used containing) := by
  constructor
  case filled =>
    intro h
    rw [extent_used, if_neg (mt (v.loneMargin_iff containing).mpr h)]
  case lone =>
    intro h
    rw [extent_used, if_pos ((v.loneMargin_iff containing).mp h)]
  case lone_left =>
    intro h hLeft
    rw [used_of_given v containing (Value.isAuto_eq_false_iff.mpr h.width),
      if_neg (not_lt_of_ge h.fits), if_pos (Value.isAuto_iff.mpr hLeft),
      if_neg (mt Value.isAuto_iff.mp (h.lone.mp hLeft))]
  case lone_right =>
    intro h hRight
    have hLeft : v.marginLeft ≠ .auto := fun hLeft => h.lone.mp hLeft hRight
    rw [used_of_given v containing (Value.isAuto_eq_false_iff.mpr h.width),
      if_neg (not_lt_of_ge h.fits), if_neg (mt Value.isAuto_iff.mp hLeft),
      if_pos (Value.isAuto_iff.mpr hRight)]
  case width => exact fun h => v.width_used_of_given containing (Value.isAuto_eq_false_iff.mpr h)
  case width_auto => exact fun h => v.width_used_of_auto containing (Value.isAuto_iff.mpr h)
  case marginLeft => exact fun h => v.marginLeft_used containing (Value.isAuto_eq_false_iff.mpr h)
  case centred =>
    intro hWidth hLeft hRight hFits
    rw [used_of_given v containing (Value.isAuto_eq_false_iff.mpr hWidth),
      if_neg (not_lt_of_ge hFits), if_pos (Value.isAuto_iff.mpr hLeft),
      if_pos (Value.isAuto_iff.mpr hRight)]
    refine ⟨rfl, ?_⟩
    dsimp only
    linarith
  case overflowing =>
    intro hWidth hLeft hRight hOver
    have hLeftZero := Value.pixels_eq_zero_of_isAuto (Value.isAuto_iff.mpr hLeft)
    have hRightZero := Value.pixels_eq_zero_of_isAuto (Value.isAuto_iff.mpr hRight)
    rw [used_of_given v containing (Value.isAuto_eq_false_iff.mpr hWidth), if_pos hOver]
    refine ⟨hLeftZero, ?_⟩
    dsimp only
    rw [hRightZero, zero_add]

/-! ## Values without a sign -/

structure NonNegative : Prop where
  width : 0 ≤ v.width.pixels
  marginLeft : 0 ≤ v.marginLeft.pixels
  marginRight : 0 ≤ v.marginRight.pixels
  borderLeft : 0 ≤ v.borderLeft.pixels
  borderRight : 0 ≤ v.borderRight.pixels
  paddingLeft : 0 ≤ v.paddingLeft.pixels
  paddingRight : 0 ≤ v.paddingRight.pixels

variable {v}

theorem NonNegative.used_width (h : v.NonNegative) : 0 ≤ (v.used containing).width := by
  cases hWidth : v.width.isAuto with
  | true =>
    rw [used_of_auto v containing hWidth]
    split
    · next hFree => exact hFree
    · exact le_refl _
  | false =>
    rw [used_of_given v containing hWidth]
    split_ifs <;> exact h.width

theorem NonNegative.used_marginLeft (h : v.NonNegative) : 0 ≤ (v.used containing).marginLeft := by
  cases hWidth : v.width.isAuto with
  | true =>
    rw [used_of_auto v containing hWidth]
    split <;> exact h.marginLeft
  | false =>
    rw [used_of_given v containing hWidth]
    split_ifs with hLt
    · exact h.marginLeft
    · dsimp only
      linarith
    · exact le_refl _
    · exact h.marginLeft
    · exact h.marginLeft

theorem NonNegative.used_marginRight_of_lone (h : v.NonNegative) (hWidth : v.width.isAuto = false)
    (hLone : v.marginLeft.isAuto ≠ v.marginRight.isAuto) (hLe : v.total ≤ containing) :
    0 ≤ (v.used containing).marginRight := by
  rw [used_of_given v containing hWidth, if_neg (not_lt_of_ge hLe)]
  split_ifs with hLeft hRight hRight
  · exact absurd (hLeft.trans hRight.symm) hLone
  · exact h.marginRight
  · exact le_refl _
  · simp only [Bool.not_eq_true] at hLeft hRight
    exact absurd (hLeft.trans hRight.symm) hLone

/-- The border box ends inside the containing block exactly if the right margin has no sign. -/
theorem NonNegative.fits_iff (h : v.NonNegative) :
    (v.used containing).marginLeft + v.usedBorderBox containing ≤ containing ↔
      0 ≤ (v.used containing).marginRight := by
  have hSum := v.used_sum containing
  split at hSum
  · next hLone =>
    obtain ⟨hWidth, hLone, hLe⟩ := hLone
    have hRight := h.used_marginRight_of_lone containing hWidth hLone hLe
    exact ⟨fun _ => hRight, fun _ => by linarith⟩
  · constructor
    · intro hFits
      linarith
    · intro hRight
      linarith

end WidthValues

end BlockFlow
