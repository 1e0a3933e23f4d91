import BlockFlow.Proofs.Number.Numerals

/-! # Written numbers

However a decimal is written, written out or with a power of ten, its text denotes the decimal
again. A finite number is written from the fewest digits that read back; so its text in answers and
the one without a power of ten denote the same rational number, and both are read as the number.
-/

namespace BlockFlow.Number

/-! ## Written decimals -/

/-- The power of ten that stands behind a decimal written with one. -/
def powerChars (power : Int) : List Char :=
  'e' :: (if power < 0 then '-' else '+') :: twoDigits power.natAbs

theorem isDigit_of_mem_twoDigits {n : Nat} {c : Char} (h : c ∈ twoDigits n) : c.isDigit = true := by
  have hDigits {c : Char} (h : c ∈ Nat.toDigits 10 n) : c.isDigit = true :=
    Nat.isDigit_of_mem_toDigits (by decide) (by decide) h
  unfold twoDigits at h
  split at h
  · rcases List.mem_cons.mp h with rfl | h
    · rfl
    · exact hDigits h
  · exact hDigits h

theorem ofDigitChars_twoDigits (n : Nat) : Nat.ofDigitChars 10 (twoDigits n) 0 = n := by
  unfold twoDigits
  split
  · rw [Nat.ofDigitChars_cons]
    exact Nat.ofDigitChars_ten_toDigits
  · exact Nat.ofDigitChars_ten_toDigits

theorem twoDigits_ne_nil (n : Nat) : twoDigits n ≠ [] := by
  unfold twoDigits
  split
  · exact List.cons_ne_nil _ _
  · exact Nat.toDigits_ne_nil

theorem readPower?_powerChars (power : Int) : readPower? (powerChars power) = some power := by
  have hRead : readDigits (twoDigits power.natAbs ++ []) = (twoDigits power.natAbs, []) :=
    readDigits_append (fun _ => isDigit_of_mem_twoDigits) nofun
  have hValue := ofDigitChars_twoDigits power.natAbs
  obtain ⟨c, rest, hDigits⟩ := List.exists_cons_of_ne_nil (twoDigits_ne_nil power.natAbs)
  rw [List.append_nil, hDigits] at hRead
  rw [hDigits] at hValue
  rw [powerChars, hDigits]
  by_cases hSign : power < 0
  · simp only [readPower?, readSign, if_pos hSign, hRead, hValue, true_or, if_true]
    rw [Int.ofNat_natAbs_of_nonpos (Int.le_of_lt hSign), Int.neg_neg]
  · simp only [readPower?, readSign, if_neg hSign, hRead, hValue, true_or, if_true,
      Bool.false_eq_true, if_false]
    rw [Int.natAbs_of_nonneg (Int.not_lt.mp hSign)]

namespace Decimal

variable (d : Decimal)

/-- A decimal written out is a numeral. -/
def numeral (negative : Bool) : Numeral where
  negative := negative
  whole := d.whole
  fraction := d.fraction
  whole_ne_nil := d.whole_ne_nil
  isDigit_whole _ := isDigit_of_mem_whole
  isDigit_fraction _ := isDigit_of_mem_fraction

theorem unsigned_numeral (negative : Bool) : (d.numeral negative).unsigned = d.plain [] := by
  by_cases h : 0 ≤ d.exponent
  · have hNone : d.fraction = [] := if_pos h
    rw [plain_of_nonneg h, Numeral.unsigned]
    exact (congrArg (d.whole ++ ·) (if_pos hNone)).trans (List.append_nil _)
  · rw [plain_of_neg (by omega), Numeral.unsigned]
    exact congrArg (d.whole ++ ·) (if_neg (fraction_ne_nil (by omega)))

/-- The digits of a decimal with a point behind the first. -/
def mantissa : Numeral where
  negative := false
  whole := d.digitChars.take 1
  fraction := d.digitChars.drop 1
  whole_ne_nil := by
    rw [← List.length_pos_iff, List.length_take]
    exact Nat.lt_min.mpr ⟨Nat.one_pos, d.length_digitChars_pos⟩
  isDigit_whole _ h := isDigit_of_mem_digitChars (List.mem_of_mem_take h)
  isDigit_fraction _ h := isDigit_of_mem_digitChars (List.mem_of_mem_drop h)

theorem decimal_mantissa : d.mantissa.decimal = ⟨d.digits, 1 - d.digitChars.length⟩ := by
  have hLength := d.length_digitChars_pos
  have hDigits : d.mantissa.whole ++ d.mantissa.fraction = d.digitChars := List.take_append_drop _ _
  have hFraction : d.mantissa.fraction.length = d.digitChars.length - 1 := List.length_drop
  rw [Numeral.decimal, ofNumeral, hDigits, ofDigitChars_digitChars, hFraction]
  congr 1
  omega

theorem unsigned_mantissa : d.mantissa.unsigned =
    d.digitChars.take 1 ++ if d.digitChars.drop 1 = [] then [] else '.' :: d.digitChars.drop 1 :=
  rfl

theorem scientific_eq : d.scientific = d.mantissa.unsigned ++ powerChars (d.point - 1) := by
  rw [unsigned_mantissa, scientific]
  rcases hDigits : d.digitChars with _ | ⟨first, _ | ⟨second, rest⟩⟩
  · exact absurd hDigits (List.length_pos_iff.mp d.length_digitChars_pos)
  · rfl
  · rfl

theorem denotes_scientific : Denotes d.scientific d := by
  have hChars : ∀ c ∈ powerChars (d.point - 1), isNumeralChar c = true := by
    refine List.forall_mem_cons.mpr ⟨rfl, List.forall_mem_cons.mpr ⟨?_, ?_⟩⟩
    · split <;> rfl
    · exact fun _ hc => isNumeralChar_of_isDigit (isDigit_of_mem_twoDigits hc)
  have hHead : ∀ c ∈ (powerChars (d.point - 1)).head?, c = 'e' :=
    fun c hc => (Option.some.inj hc).symm
  have hDenotes := d.mantissa.denotes_append hHead hChars (readPower?_powerChars _)
  have hExponent : 1 - (d.digitChars.length : Int) + (d.point - 1) = d.exponent := by
    rw [point]
    omega
  rw [← scientific_eq, decimal_mantissa, hExponent] at hDenotes
  exact hDenotes

theorem denotes_plain : Denotes (d.plain []) (ofNumeral d.whole d.fraction) := by
  rw [← d.unsigned_numeral false]
  exact (d.numeral false).denotes

/-- The decimal that is read where a whole number has a point and a zero behind it: it has one more
digit, which does not count. -/
def pointZero : Decimal :=
  if 0 ≤ d.exponent then ⟨d.digits * Nat.pow 10 (d.exponent.toNat + 1), -1⟩ else d

theorem value_pointZero : d.pointZero.value = d.value := by
  unfold pointZero
  split
  · next h =>
    have hExponent : -1 + ((d.exponent.toNat + 1 : Nat) : Int) = d.exponent := by omega
    rw [value_mul_pow, hExponent]
  · rfl

/-- A whole number written out with a point and a zero behind it. -/
def wholeNumeral : Numeral :=
  { d.numeral false with
    fraction := ['0']
    isDigit_fraction := List.forall_mem_singleton.mpr rfl }

theorem decimal_wholeNumeral (h : 0 ≤ d.exponent) : d.wholeNumeral.decimal = d.pointZero := by
  have hDigits : Nat.ofDigitChars 10 (d.whole ++ ['0']) 0 =
      d.digits * Nat.pow 10 (d.exponent.toNat + 1) := by
    rw [Nat.ofDigitChars_append, ofDigitChars_whole h, Nat.pow_eq, Nat.pow_eq, Nat.pow_succ,
      ← Nat.mul_assoc, Nat.mul_comm _ 10]
    rfl
  rw [pointZero, if_pos h, ← hDigits]
  rfl

theorem unsigned_wholeNumeral (h : 0 ≤ d.exponent) :
    d.wholeNumeral.unsigned = d.plain ['.', '0'] := by
  have hWhole : d.whole = d.digitChars ++ List.replicate d.exponent.toNat '0' := if_pos h
  rw [plain, if_pos h, ← hWhole]
  rfl

theorem denotes_plain_pointZero : Denotes (d.plain ['.', '0']) d.pointZero := by
  by_cases h : 0 ≤ d.exponent
  · rw [← d.unsigned_wholeNumeral h, ← d.decimal_wholeNumeral h]
    exact d.wholeNumeral.denotes
  · have hText : d.plain ['.', '0'] = d.plain [] := by
      simp only [plain, if_neg h]
    have hPlain := d.denotes_plain
    rw [ofNumeral_of_neg (by omega)] at hPlain
    rw [hText, pointZero, if_neg h]
    exact hPlain

end Decimal

/-! ## Zeros behind the point -/

/-- What is left of a text when a point and a zero at its end are dropped. -/
def withoutPointZero (text : List Char) : List Char := (text.dropSuffix? ['.', '0']).getD text

theorem withoutPointZero_append (text : List Char) : withoutPointZero (text ++ ['.', '0']) = text := by
  have hDrop : (text ++ ['.', '0']).dropSuffix? ['.', '0'] = some text :=
    List.dropSuffix?_eq_some_iff.mpr ⟨_, rfl, rfl⟩
  rw [withoutPointZero, hDrop, Option.getD_some]

theorem withoutPointZero_eq_self {text : List Char} (h : ¬ ['.', '0'] <:+ text) :
    withoutPointZero text = text := by
  have hDrop : text.dropSuffix? ['.', '0'] = none := by
    rw [Option.eq_none_iff_forall_not_mem]
    intro front hFront
    obtain ⟨back, rfl, hBack⟩ := List.dropSuffix?_eq_some_iff.mp hFront
    rw [eq_of_beq hBack] at h
    exact h ⟨front, rfl⟩
  rw [withoutPointZero, hDrop, Option.getD_none]

theorem toDigits_mul_pow {n : Nat} (h : 0 < n) (k : Nat) :
    Nat.toDigits 10 (n * 10 ^ k) = Nat.toDigits 10 n ++ List.replicate k '0' := by
  induction k with
  | zero => rw [Nat.pow_zero, Nat.mul_one, List.replicate_zero, List.append_nil]
  | succ k ih =>
    have hPos : 0 < n * 10 ^ k := Nat.mul_pos h (Nat.pow_pos (by decide))
    calc Nat.toDigits 10 (n * 10 ^ (k + 1))
        = Nat.toDigits 10 (10 * (n * 10 ^ k) + 0) := by
          rw [Nat.pow_succ, ← Nat.mul_assoc, Nat.mul_comm 10, Nat.add_zero]
      _ = Nat.toDigits 10 (n * 10 ^ k) ++ Nat.toDigits 10 0 :=
          (Nat.toDigits_append_toDigits (by decide) hPos (by decide)).symm
      _ = Nat.toDigits 10 n ++ List.replicate (k + 1) '0' := by
          rw [ih, List.replicate_succ', List.append_assoc, Nat.toDigits_zero]

namespace Decimal

variable {d : Decimal}

theorem Reduced.withoutPointZero_plain (h : d.Reduced) :
    withoutPointZero (d.plain []) = d.plain [] := by
  apply withoutPointZero_eq_self
  rintro ⟨front, hText⟩
  by_cases hExponent : 0 ≤ d.exponent
  · -- All characters are digits.
    rw [plain_of_nonneg hExponent] at hText
    have hPoint : '.' ∈ d.whole := by
      rw [← hText]
      exact List.mem_append_right _ List.mem_cons_self
    cases isDigit_of_mem_whole hPoint
  · have hNeg : d.exponent < 0 := by omega
    have hLast := congrArg List.getLast? hText
    rw [plain_of_neg hNeg, List.getLast?_append, List.getLast?_append,
      List.getLast?_cons_of_ne_nil (fraction_ne_nil hNeg), getLast?_fraction hNeg,
      getLast?_digitChars] at hLast
    refine h.ne_zero_of_getLast? '0' ?_ rfl
    rw [getLast?_fraction hNeg, getLast?_digitChars]
    exact hLast.symm

theorem plain_pointZero (hExponent : 0 ≤ d.exponent) (h : d.digits ≠ 0) :
    d.pointZero.plain [] = d.whole ++ ['.', '0'] := by
  have hDigits : d.pointZero.digitChars = d.whole ++ ['0'] := by
    rw [pointZero, if_pos hExponent, digitChars, Nat.pow_eq,
      toDigits_mul_pow (Nat.pos_of_ne_zero h), List.replicate_succ', ← List.append_assoc, whole,
      if_pos hExponent, digitChars]
  have hNeg : d.pointZero.exponent = -1 := by rw [pointZero, if_pos hExponent]
  have hPoint : d.pointZero.point = d.whole.length := by
    rw [point, hDigits, hNeg, List.length_append, List.length_singleton]
    omega
  have hLength := List.length_pos_iff.mpr d.whole_ne_nil
  rw [plain, if_neg (by omega), if_pos (by omega), hPoint, hDigits, Int.toNat_natCast,
    List.take_left, List.drop_left]

theorem Reduced.withoutPointZero_plain_pointZero (h : d.Reduced) :
    withoutPointZero (d.pointZero.plain []) = d.plain [] := by
  by_cases hExponent : 0 ≤ d.exponent
  · rw [plain_of_nonneg hExponent]
    by_cases hDigits : d.digits = 0
    · obtain ⟨digits, exponent⟩ := d
      obtain rfl : digits = 0 := hDigits
      obtain rfl : exponent = 0 := h.zero rfl
      rfl
    · rw [plain_pointZero hExponent hDigits, withoutPointZero_append]
  · rw [pointZero, if_neg hExponent]
    exact h.withoutPointZero_plain

end Decimal

/-! ## Finite numbers -/

namespace Form

/-- An answer's text denotes the decimal of the fewest digits, as it is or with a zero behind it. -/
theorem denotes_answer {m : Nat} (h : m < infiniteMagnitude) :
    ∃ d, Denotes (answer.writeMagnitude m) d ∧ (d = shortest m ∨ d = (shortest m).pointZero) := by
  rw [answer.writeMagnitude_of_lt h]
  split
  · exact ⟨_, (shortest m).denotes_plain_pointZero, .inr rfl⟩
  · exact ⟨_, (shortest m).denotes_scientific, .inl rfl⟩

end Form

/-- The numeral of a finite number without a power of ten. -/
def numeral (x : Float) : Numeral := (shortest (magnitude x)).numeral (isNegative x)

theorem value_decimal_numeral (x : Float) :
    (numeral x).decimal.value = (shortest (magnitude x)).value :=
  Decimal.value_ofNumeral _

section Finite

variable {x : Float} (h : isFinite x = true)
include h

theorem magnitude_lt : magnitude x < infiniteMagnitude := of_decide_eq_true h

theorem toFloat_of_value {d : Decimal} (hValue : d.value = (shortest (magnitude x)).value) :
    d.toFloat (isNegative x) = x := by
  rw [Decimal.toFloat, Decimal.nearest_congr hValue, nearest_shortest (magnitude_lt h),
    ofMagnitude_magnitude]

theorem chars_numeral : (numeral x).chars = Form.length.writeChars x := by
  have hText : (numeral x).unsigned = Form.length.writeMagnitude (magnitude x) := by
    rw [numeral, Decimal.unsigned_numeral, Form.length.writeMagnitude_of_lt (magnitude_lt h)]
    rfl
  rw [Form.length.writeChars_of_isFinite h, ← hText]
  rfl

theorem ne_zero_of_getLast?_numeral : ∀ c ∈ (numeral x).fraction.getLast?, c ≠ '0' :=
  (reduced_shortest (magnitude_lt h)).ne_zero_of_getLast?

theorem read?_numeral : read? (String.ofList (numeral x).chars) = some x := by
  rw [Numeral.read?_chars]
  exact congrArg some (toFloat_of_value h (value_decimal_numeral x))

theorem exists_denotes_answer : ∃ d, Denotes (Form.answer.writeMagnitude (magnitude x)) d ∧
    d.value = (shortest (magnitude x)).value ∧
    withoutPointZero (d.plain []) = (numeral x).unsigned := by
  have hReduced := reduced_shortest (magnitude_lt h)
  obtain ⟨d, hDenotes, hDecimal⟩ := Form.denotes_answer (magnitude_lt h)
  refine ⟨d, hDenotes, ?_⟩
  rw [numeral, Decimal.unsigned_numeral]
  rcases hDecimal with rfl | rfl
  · exact ⟨rfl, hReduced.withoutPointZero_plain⟩
  · exact ⟨Decimal.value_pointZero _, hReduced.withoutPointZero_plain_pointZero⟩

theorem rational?_answer : rational? (Form.answer.writeChars x) = some (numeral x).value := by
  obtain ⟨d, hDenotes, hValue, -⟩ := exists_denotes_answer h
  rw [Form.answer.writeChars_of_isFinite h, hDenotes.rational?_signed, hValue,
    ← value_decimal_numeral x]
  rfl

theorem read?_answer : read? (Form.answer.write x) = some x := by
  obtain ⟨d, hDenotes, hValue, -⟩ := exists_denotes_answer h
  rw [Form.write, Form.answer.writeChars_of_isFinite h, hDenotes.read?_signed,
    toFloat_of_value h hValue]

end Finite

end BlockFlow.Number
