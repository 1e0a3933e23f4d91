import BlockFlow.Text.Hex
import BlockFlow.Text.Lines

/-! # Text from bytes

A text file is UTF-8. A byte order mark is a character like any other. The first byte of a character
says how many follow; what follows is refused at the first byte that no such character has there,
and the bytes before it are the ones that are reported.
-/

namespace BlockFlow.Text

inductive DecodeFault
  | invalidStart
  | invalidContinuation
  | unexpectedEnd
  deriving DecidableEq, Repr

def DecodeFault.message : DecodeFault → String
  | invalidStart => "invalid start byte"
  | invalidContinuation => "invalid continuation byte"
  | unexpectedEnd => "unexpected end of data"

/-- Bytes that are no character: the first of them, with how many more there are of them and how
many bytes come before. -/
structure DecodeError where
  fault : DecodeFault
  position : Nat
  first : UInt8
  more : Nat
  deriving DecidableEq, Repr

namespace DecodeError

/-- The bytes of an error. A single one is shown, of several only the places are given. -/
def bytes (e : DecodeError) : String :=
  if e.more = 0 then
    "byte 0x" ++ String.ofList (hex 2 e.first.toNat) ++ " in position " ++ toString e.position
  else
    "bytes in position " ++ toString e.position ++ "-" ++ toString (e.position + e.more)

def message (e : DecodeError) : String :=
  "'utf-8' codec can't decode " ++ e.bytes ++ ": " ++ e.fault.message

end DecodeError

/-- What the first byte of a character says: its own bits of the character, how many bytes follow,
and the least and the greatest that the next one may be. -/
structure Lead where
  bits : Nat
  more : Nat
  low : Nat
  high : Nat

/-- The bounds leave out what could be written with fewer bytes, the surrogates, and what is beyond
the last character. -/
def lead? (b : Nat) : Option Lead :=
  if b < 0x80 then some ⟨b, 0, 0x80, 0xBF⟩
  else if b < 0xC2 then none
  else if b < 0xE0 then some ⟨b % 0x20, 1, 0x80, 0xBF⟩
  else if b < 0xF0 then
    some ⟨b % 0x10, 2, if b = 0xE0 then 0xA0 else 0x80, if b = 0xED then 0x9F else 0xBF⟩
  else if b < 0xF5 then
    some ⟨b % 0x08, 3, if b = 0xF0 then 0x90 else 0x80, if b = 0xF4 then 0x8F else 0xBF⟩
  else none

/-- The bytes that follow, each with six more bits, and what is left behind them. A fault comes with
the number of bytes that were taken before it. -/
def readMore (bits taken : Nat) : (more low high : Nat) → List UInt8 →
    Except (DecodeFault × Nat) (Nat × List UInt8)
  | 0, _, _, bytes => .ok (bits, bytes)
  | _ + 1, _, _, [] => .error (.unexpectedEnd, taken)
  | more + 1, low, high, b :: bytes =>
    if low ≤ b.toNat ∧ b.toNat ≤ high then
      readMore (bits * 0x40 + b.toNat % 0x40) (taken + 1) more 0x80 0xBF bytes
    else .error (.invalidContinuation, taken)

def readChar (b : UInt8) (bytes : List UInt8) : Except (DecodeFault × Nat) (Char × List UInt8) :=
  match lead? b.toNat with
  | none => .error (.invalidStart, 0)
  | some lead =>
    (readMore lead.bits 0 lead.more lead.low lead.high bytes).map fun (n, rest) =>
      (Char.ofNat n, rest)

theorem length_le_of_readMore {bits taken more low high n : Nat} {bytes rest : List UInt8}
    (h : readMore bits taken more low high bytes = .ok (n, rest)) :
    rest.length ≤ bytes.length := by
  fun_induction readMore bits taken more low high bytes with
  | case1 =>
    obtain ⟨-, rfl⟩ := Prod.mk.inj (Except.ok.inj h)
    exact Nat.le_refl _
  | case2 => cases h
  | case3 bits taken low high more b bytes hBounds ih => exact Nat.le_succ_of_le (ih h)
  | case4 => cases h

theorem length_le_of_readChar {b : UInt8} {c : Char} {bytes rest : List UInt8}
    (h : readChar b bytes = .ok (c, rest)) : rest.length ≤ bytes.length := by
  unfold readChar at h
  split at h
  · cases h
  · next lead _ =>
    cases hMore : readMore lead.bits 0 lead.more lead.low lead.high bytes with
    | error e =>
      rw [hMore] at h
      cases h
    | ok t =>
      rw [hMore] at h
      obtain ⟨-, rfl⟩ := Prod.mk.inj (Except.ok.inj h)
      exact length_le_of_readMore hMore

/-- The characters that the last bytes of a file hold, which has so many bytes in all. -/
def readChars (size : Nat) : List UInt8 → Except DecodeError (List Char)
  | [] => .ok []
  | b :: bytes =>
    match _h : readChar b bytes with
    | .error (fault, more) => .error ⟨fault, size - (bytes.length + 1), b, more⟩
    | .ok (c, rest) => (readChars size rest).map (c :: ·)
termination_by bytes => bytes.length
decreasing_by exact Nat.lt_succ_of_le (length_le_of_readChar _h)

/-- The text that a file holds, with its line ends unified. -/
def decode (bytes : ByteArray) : Except DecodeError (List Char) :=
  (readChars bytes.size bytes.data.toList).map unifyLineEnds

end BlockFlow.Text
