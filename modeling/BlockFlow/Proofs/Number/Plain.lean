import BlockFlow.Number.Form
import BlockFlow.Proofs.Number.Nearest

/-! # Decimals written out

A decimal that is written out has digits before the point and, if its exponent is negative, digits
behind it. They denote the decimal again, and the last of them is the last digit of the decimal.
-/

namespace BlockFlow.Number

namespace Decimal

def whole (d : Decimal) : List Char :=
  if 0 ≤ d.exponent then d.digitChars ++ List.replicate d.exponent.toNat '0'
  else if 0 < d.point then d.digitChars.take d.point.toNat
  else ['0']

def fraction (d : Decimal) : List Char :=
  if 0 ≤ d.exponent then []
  else if 0 < d.point then d.digitChars.drop d.point.toNat
  else List.replicate (-d.point).toNat '0' ++ d.digitChars

section Text

variable {d : Decimal}

theorem plain_of_nonneg (h : 0 ≤ d.exponent) : d.plain [] = d.whole := by
  rw [plain, whole, if_pos h, if_pos h, List.append_nil]

theorem plain_of_neg (h : d.exponent < 0) : d.plain [] = d.whole ++ '.' :: d.fraction := by
  have hExponent : ¬ 0 ≤ d.exponent := by omega
  simp only [plain, whole, fraction, if_neg hExponent]
  split
  · rfl
  · rfl

theorem length_digitChars_pos (d : Decimal) : 0 < d.digitChars.length := Nat.length_toDigits_pos

theorem isDigit_of_mem_digitChars {c : Char} (h : c ∈ d.digitChars) : c.isDigit = true :=
  Nat.isDigit_of_mem_toDigits (by decide) (by decide) h

theorem isDigit_of_mem_replicate {n : Nat} {c : Char} (h : c ∈ List.replicate n '0') :
    c.isDigit = true := by
  rw [List.eq_of_mem_replicate h]
  rfl

theorem isDigit_of_mem_whole {c : Char} (h : c ∈ d.whole) : c.isDigit = true := by
  unfold whole at h
  split at h
  · rcases List.mem_append.mp h with h | h
    · exact isDigit_of_mem_digitChars h
    · exact isDigit_of_mem_replicate h
  · split at h
    · exact isDigit_of_mem_digitChars (List.mem_of_mem_take h)
    · rw [List.mem_singleton.mp h]
      rfl

theorem isDigit_of_mem_fraction {c : Char} (h : c ∈ d.fraction) : c.isDigit = true := by
  unfold fraction at h
  split at h
  · cases h
  · split at h
    · exact isDigit_of_mem_digitChars (List.mem_of_mem_drop h)
    · rcases List.mem_append.mp h with h | h
      · exact isDigit_of_mem_replicate h
      · exact isDigit_of_mem_digitChars h

theorem whole_ne_nil (d : Decimal) : d.whole ≠ [] := by
  have hLength := d.length_digitChars_pos
  unfold whole
  split
  · intro h
    rw [(List.append_eq_nil_iff.mp h).1] at hLength
    exact absurd hLength (Nat.lt_irrefl 0)
  · split
    · next hPoint =>
      intro h
      have := congrArg List.length h
      rw [List.length_take, List.length_nil] at this
      omega
    · exact List.cons_ne_nil _ _

end Text

theorem ofDigitChars_digitChars (d : Decimal) : Nat.ofDigitChars 10 d.digitChars 0 = d.digits :=
  Nat.ofDigitChars_ten_toDigits

theorem ofDigitChars_whole {d : Decimal} (h : 0 ≤ d.exponent) :
    Nat.ofDigitChars 10 d.whole 0 = d.digits * Nat.pow 10 d.exponent.toNat := by
  rw [whole, if_pos h, Nat.ofDigitChars_append, Nat.ofDigitChars_replicate_zero,
    ofDigitChars_digitChars, Nat.mul_comm, Nat.pow_eq]

theorem ofNumeral_of_nonneg {d : Decimal} (h : 0 ≤ d.exponent) :
    ofNumeral d.whole d.fraction = ⟨d.digits * Nat.pow 10 d.exponent.toNat, 0⟩ := by
  rw [ofNumeral, fraction, if_pos h, List.append_nil, ofDigitChars_whole h]
  rfl

theorem ofNumeral_of_neg {d : Decimal} (h : d.exponent < 0) :
    ofNumeral d.whole d.fraction = d := by
  have hExponent : ¬ 0 ≤ d.exponent := by omega
  rw [ofNumeral, whole, fraction, if_neg hExponent, if_neg hExponent]
  split
  · next hPoint =>
    rw [List.take_append_drop, ofDigitChars_digitChars, List.length_drop]
    congr 1
    rw [point] at *
    omega
  · next hPoint =>
    rw [List.singleton_append, ← List.cons_append, ← List.replicate_succ, Nat.ofDigitChars_append,
      Nat.ofDigitChars_replicate_zero, Nat.mul_zero, ofDigitChars_digitChars, List.length_append,
      List.length_replicate]
    congr 1
    rw [point] at *
    omega

theorem value_ofNumeral (d : Decimal) : (ofNumeral d.whole d.fraction).value = d.value := by
  by_cases h : 0 ≤ d.exponent
  · obtain ⟨digits, exponent⟩ := d
    obtain ⟨e, rfl⟩ := Int.eq_ofNat_of_zero_le h
    rw [ofNumeral_of_nonneg h, value_mul_pow, Int.zero_add]
    rfl
  · rw [ofNumeral_of_neg (by omega)]

/-! ## The last digit -/

theorem getLast?_digitChars (d : Decimal) :
    d.digitChars.getLast? = some (Nat.digitChar (d.digits % 10)) := by
  rw [digitChars, Nat.toDigits_eq_if (by decide)]
  split
  · next hLt => rw [Nat.mod_eq_of_lt hLt, List.getLast?_singleton]
  · exact List.getLast?_concat

theorem getLast?_fraction {d : Decimal} (h : d.exponent < 0) :
    d.fraction.getLast? = d.digitChars.getLast? := by
  have hLength := d.length_digitChars_pos
  rw [fraction, if_neg (by omega)]
  split
  · rw [List.getLast?_drop, if_neg (by rw [point] at *; omega)]
  · rw [List.getLast?_append, getLast?_digitChars, Option.some_or]

theorem fraction_ne_nil {d : Decimal} (h : d.exponent < 0) : d.fraction ≠ [] := by
  intro hNone
  have hLast := getLast?_fraction h
  rw [hNone, getLast?_digitChars] at hLast
  cases hLast

theorem Reduced.ne_zero_of_getLast? {d : Decimal} (h : d.Reduced) :
    ∀ c ∈ d.fraction.getLast?, c ≠ '0' := by
  intro c hc
  by_cases hExponent : d.exponent < 0
  · rw [getLast?_fraction hExponent, getLast?_digitChars] at hc
    obtain rfl := Option.some.inj hc
    exact fun hZero => h.last hExponent (Nat.digitChar_eq_zero.mp hZero)
  · rw [fraction, if_pos (by omega)] at hc
    cases hc

end Decimal

/-! ## Finite numbers -/

def signed (negative : Bool) (text : List Char) : List Char :=
  if negative then '-' :: text else text

namespace Form

theorem writeMagnitude_of_lt (form : Form) {m : Nat} (h : m < infiniteMagnitude) :
    form.writeMagnitude m =
      if form.positional ((form.digits m).point - 1)
      then (form.digits m).plain form.afterWhole.toList else (form.digits m).scientific := by
  rw [writeMagnitude, if_neg (Nat.lt_asymm h), if_neg (Nat.ne_of_lt h)]

theorem writeChars_of_isFinite (form : Form) {x : Float} (h : isFinite x = true) :
    form.writeChars x = signed (isNegative x) (form.writeMagnitude (magnitude x)) := by
  have hLe : magnitude x ≤ infiniteMagnitude := Nat.le_of_lt (of_decide_eq_true h)
  rw [writeChars, decide_eq_true hLe, Bool.and_true]
  rfl

end Form

end BlockFlow.Number
