/-! # Hexadecimal digits of a fixed width

Writing keeps the last digits of a number, so that a width which is wide enough loses nothing.
-/

namespace BlockFlow.Text

/-- The last `width` hexadecimal digits of a number, in lower case. -/
def hex : (width n : Nat) → List Char
  | 0, _ => []
  | width + 1, n => hex width (n / 16) ++ [Nat.digitChar (n % 16)]

def hexValue? (c : Char) : Option Nat :=
  if '0' ≤ c ∧ c ≤ '9' then some (c.toNat - '0'.toNat)
  else if 'a' ≤ c ∧ c ≤ 'f' then some (c.toNat - 'a'.toNat + 10)
  else if 'A' ≤ c ∧ c ≤ 'F' then some (c.toNat - 'A'.toNat + 10)
  else none

/-- The number that a run of hexadecimal digits denotes, the most significant digit first. -/
def ofHex? (digits : List Char) : Option Nat :=
  digits.foldlM (fun n c => (hexValue? c).map (16 * n + ·)) 0

theorem hexValue?_digitChar {n : Nat} (h : n < 16) : hexValue? n.digitChar = some n := by
  revert h
  have : ∀ i : Fin 16, hexValue? (Nat.digitChar i) = some i.val := by decide
  exact fun h => this ⟨n, h⟩

/-- Written digits read back as the number, up to what the width can hold. -/
theorem ofHex?_hex (width n : Nat) : ofHex? (hex width n) = some (n % Nat.pow 16 width) := by
  induction width generalizing n with
  | zero => simp [hex, ofHex?, Nat.mod_one]
  | succ width ih =>
    have hd := hexValue?_digitChar (Nat.mod_lt n (by decide : 0 < 16))
    have := ih (n / 16)
    simp only [ofHex?] at this
    rw [hex, ofHex?, List.foldlM_append, this]
    simp only [Option.bind_eq_bind, Option.bind_some, List.foldlM_cons, List.foldlM_nil, hd,
      Option.map_some, pure]
    simp only [Nat.pow_eq]
    rw [Nat.pow_succ, Nat.mul_comm (16 ^ width) 16, Nat.mod_mul]
    congr 1
    omega

end BlockFlow.Text
