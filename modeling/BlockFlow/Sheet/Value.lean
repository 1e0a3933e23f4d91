import BlockFlow.Number.Form
import BlockFlow.Text.Hex

/-! # Values

The right-hand side of a declaration: a keyword, a length in pixels, or a color. Lengths are kept in
a number type of the caller's choice: floating-point numbers where style sheets are read and laid
out, exact ones where layout is reasoned about.
-/

namespace BlockFlow

structure Color where
  red : UInt8
  green : UInt8
  blue : UInt8
  alpha : UInt8
  deriving DecidableEq, Repr

inductive ColorError
  | channelOutOfRange (channel : Int)
  deriving DecidableEq, Repr

namespace ColorError

def message : ColorError → String
  | channelOutOfRange channel => "Color channel out of range: " ++ toString channel

end ColorError

namespace Color

def channel? (n : Int) : Except ColorError UInt8 :=
  if 0 ≤ n ∧ n ≤ 255 then .ok (UInt8.ofNat n.toNat) else .error (.channelOutOfRange n)

/-- A color from whole numbers; of several that are out of range the first is reported. -/
def ofChannels? (red green blue alpha : Int) : Except ColorError Color := do
  return { red := ← channel? red, green := ← channel? green, blue := ← channel? blue,
           alpha := ← channel? alpha }

/-- Two digits for each channel; the opacity is left out when it is full. -/
def chars (c : Color) : List Char :=
  '#' :: Text.hex 2 c.red.toNat ++ Text.hex 2 c.green.toNat ++ Text.hex 2 c.blue.toNat
    ++ if c.alpha = 255 then [] else Text.hex 2 c.alpha.toNat

end Color

inductive Value (ν : Type)
  | keyword (name : String)
  | length (pixels : ν)
  | color (color : Color)
  deriving DecidableEq, BEq, Repr

namespace Value

variable {ν μ : Type}

def map (f : ν → μ) : Value ν → Value μ
  | keyword name => keyword name
  | length pixels => length (f pixels)
  | color c => color c

def auto : Value ν := keyword "auto"

def isAuto : Value ν → Bool
  | keyword name => name == "auto"
  | _ => false

def pixels? : Value ν → Option ν
  | length pixels => some pixels
  | _ => none

def chars : Value Float → List Char
  | keyword name => name.toList
  | length pixels => Number.Form.length.writeChars pixels ++ ['p', 'x']
  | color c => c.chars

def text (v : Value Float) : String := String.ofList v.chars

end Value

end BlockFlow
