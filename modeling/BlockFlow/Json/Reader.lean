import BlockFlow.Json.Basic
import BlockFlow.Json.Fault
import BlockFlow.Number.Nearest
import BlockFlow.Text.Hex

/-! # Reading JSON

The text of one value, with nothing but blanks around it. Besides the numbers of the standard the
words `NaN`, `Infinity` and `-Infinity` are taken. Control characters must be escaped in strings, a
surrogate must be one of a pair, and a byte order mark is no part of a text. The first fault in the
text is the one that is reported.
-/

namespace BlockFlow.Json

/-- A value, with what is left of the text it was read from: fewer characters than the bound, so that
reading may go on from there. -/
structure Taken (α : Type) (bound : Nat) where
  value : α
  rest : List Char
  shorter : rest.length < bound

namespace Taken

variable {α β : Type} {bound wider : Nat}

def map (f : α → β) (t : Taken α bound) : Taken β bound := ⟨f t.value, t.rest, t.shorter⟩

def widen (h : bound ≤ wider) (t : Taken α bound) : Taken α wider :=
  ⟨t.value, t.rest, Nat.lt_of_lt_of_le t.shorter h⟩

/-- What was taken from the start of a text, or nothing, which leaves the text as it is. -/
def optional (text : List Char) : Option (Taken α text.length) → Taken (Option α) (text.length + 1)
  | some t => (t.map some).widen (Nat.le_succ _)
  | none => ⟨none, text, Nat.lt_succ_self _⟩

end Taken

abbrev Reading (α : Type) (bound : Nat) := Except Fault (Taken α bound)

/-- A character that may stand between the pieces of a JSON text. -/
def isGap (c : Char) : Bool := c == ' ' || c == '\t' || c == '\n' || c == '\r'

def skipGap (text : List Char) : List Char := text.dropWhile isGap

theorem length_skipGap_le (text : List Char) : (skipGap text).length ≤ text.length :=
  (List.dropWhile_suffix _).length_le

theorem length_le_of_skipGap {text ahead : List Char} (h : skipGap text = ahead) :
    ahead.length ≤ text.length :=
  h ▸ length_skipGap_le text

/-- A code unit of four hexadecimal digits; the text starts behind the letter `u`. It must go on
behind the digits. -/
def readCodeUnit (text : List Char) : Reading Nat text.length :=
  match text with
  | a :: b :: c :: d :: e :: rest =>
    match Text.ofHex? [a, b, c, d] with
    | some n => .ok ⟨n, e :: rest, by simp only [List.length_cons]; omega⟩
    | none => .error (.malformed .codeUnit ('u' :: text))
  | _ => .error (.malformed .codeUnit ('u' :: text))

def isHighSurrogate (n : Nat) : Bool := 0xD800 ≤ n && n < 0xDC00

def isLowSurrogate (n : Nat) : Bool := 0xDC00 ≤ n && n < 0xE000

/-- The character that a code unit stands for, or a pair of them; the text starts behind the first
letter `u`. -/
def readCodePoint (text : List Char) : Reading Char text.length := do
  let first ← readCodeUnit text
  if isHighSurrogate first.value then
    match h : first.rest with
    | '\\' :: 'u' :: rest =>
      let second ← readCodeUnit rest
      if isLowSurrogate second.value then
        have hRest : rest.length ≤ text.length := by
          have := first.shorter
          simp only [h, List.length_cons] at this
          omega
        return (second.map fun m =>
          Char.ofNat (0x10000 + (first.value - 0xD800) * 0x400 + (m - 0xDC00))).widen hRest
      else .error (.beyond .loneSurrogate)
    | _ => .error (.beyond .loneSurrogate)
  else if isLowSurrogate first.value then .error (.beyond .loneSurrogate)
  else return first.map Char.ofNat

def escapes : List (Char × Char) :=
  [('"', '"'), ('\\', '\\'), ('/', '/'), ('b', '\x08'), ('f', '\x0c'), ('n', '\n'), ('r', '\r'),
    ('t', '\t')]

/-- The character that an escape stands for; the text starts behind the backslash. The string that
it is in starts with `start`. -/
def readEscape (start text : List Char) : Reading Char text.length :=
  match text with
  | [] => .error (.malformed .unclosedString start)
  | 'u' :: rest => (readCodePoint rest).map (·.widen (Nat.le_succ _))
  | c :: rest =>
    match escapes.find? fun e => e.1 == c with
    | some (_, d) => .ok ⟨d, rest, Nat.lt_succ_self _⟩
    | none => .error (.malformed .unknownEscape ('\\' :: text))

/-- A string that starts with `start`, from behind its opening quotation mark to behind its closing
one. -/
def readString (start text : List Char) : Reading (List Char) text.length :=
  match text with
  | [] => .error (.malformed .unclosedString start)
  | '"' :: rest => .ok ⟨[], rest, Nat.lt_succ_self _⟩
  | '\\' :: rest => do
    let c ← readEscape start rest
    let s ← readString start c.rest
    return (s.map (c.value :: ·)).widen (Nat.le_succ_of_le (Nat.le_of_lt c.shorter))
  | c :: rest => do
    if c.toNat < 0x20 then .error (.malformed .controlCharacter text)
    else
      let s ← readString start rest
      return (s.map (c :: ·)).widen (Nat.le_succ _)
termination_by text.length
decreasing_by
  · exact Nat.lt_succ_of_lt c.shorter
  · exact Nat.lt_succ_self _

/-- Digits, if the text starts with one. -/
def readDigits? (text : List Char) : Option (Taken (List Char) text.length) :=
  match text with
  | [] => none
  | d :: rest =>
    if d.isDigit then some
      { value := d :: rest.takeWhile Char.isDigit
        rest := rest.dropWhile Char.isDigit
        shorter := Nat.lt_succ_of_le (List.dropWhile_suffix _).length_le }
    else none

def readWhole? (text : List Char) : Option (Taken (List Char) text.length) :=
  match text with
  | '0' :: rest => some ⟨['0'], rest, Nat.lt_succ_self _⟩
  | text => readDigits? text

def readFraction? (text : List Char) : Option (Taken (List Char) text.length) :=
  match text with
  | '.' :: rest => (readDigits? rest).map (·.widen (Nat.le_succ _))
  | _ => none

/-- Digits behind a sign, if there is one. -/
def readSigned? (text : List Char) : Option (Taken Int text.length) :=
  let n (digits : List Char) : Int := Nat.ofDigitChars 10 digits 0
  match text with
  | '-' :: rest => (readDigits? rest).map fun t => (t.map (-n ·)).widen (Nat.le_succ _)
  | '+' :: rest => (readDigits? rest).map fun t => (t.map n).widen (Nat.le_succ _)
  | text => (readDigits? text).map (·.map n)

def readPower? (text : List Char) : Option (Taken Int text.length) :=
  match text with
  | c :: rest =>
    if c = 'e' ∨ c = 'E' then (readSigned? rest).map (·.widen (Nat.le_succ _)) else none
  | [] => none

/-- A number without its sign: whole if it has neither a fraction nor a power of ten. The value
starts with `start`. -/
def readUnsigned (start : List Char) (negative : Bool) (text : List Char) :
    Reading Json text.length :=
  match readWhole? text with
  | none => .error (.malformed .missingValue start)
  | some whole =>
    let fraction := Taken.optional whole.rest (readFraction? whole.rest)
    let power := Taken.optional fraction.rest (readPower? fraction.rest)
    have hRest : power.rest.length < text.length := by
      have := whole.shorter
      have := fraction.shorter
      have := power.shorter
      omega
    if fraction.value.isSome || power.value.isSome then
      let d := Number.Decimal.ofNumeral whole.value (fraction.value.getD [])
      .ok ⟨.real (Number.Decimal.toFloat negative ⟨d.digits, d.exponent + power.value.getD 0⟩),
        power.rest, hRest⟩
    else if whole.value.length ≤ Limit.digits then
      let n : Int := Nat.ofDigitChars 10 whole.value 0
      .ok ⟨.integer (if negative then -n else n), power.rest, hRest⟩
    else .error (.beyond (.longNumeral whole.value.length))

def words : List (String × Json) :=
  [("null", null), ("true", bool true), ("false", bool false),
    ("NaN", real (Number.ofMagnitude false (Number.infiniteMagnitude + Nat.pow 2 51))),
    ("Infinity", real (Number.ofMagnitude false Number.infiniteMagnitude)),
    ("-Infinity", real (Number.ofMagnitude true Number.infiniteMagnitude))]

theorem length_word_pos : ∀ w ∈ words, 0 < w.1.length := by decide

/-- The value of a word that the text starts with. -/
def readWord? (text : List Char) : Option (Taken Json text.length) :=
  match h : words.find? fun w => w.1.toList.isPrefixOf text with
  | some (word, value) => some
    { value
      rest := text.drop word.length
      shorter := by
        have hPos : 0 < word.length := length_word_pos _ (List.mem_of_find?_eq_some h)
        have hFound := List.find?_some h
        have hLength : word.length ≤ text.length :=
          (List.isPrefixOf_iff_prefix.mp hFound).length_le
        rw [List.length_drop]
        omega }
  | none => none

def readNumber (text : List Char) : Reading Json text.length :=
  match text with
  | '-' :: rest => (readUnsigned text true rest).map (·.widen (Nat.le_succ _))
  | text => readUnsigned text false text

/-- A value that is neither a string, an array nor an object. -/
def readScalar (text : List Char) : Reading Json text.length :=
  match readWord? text with
  | some word => .ok word
  | none => readNumber text

/-- A mark, if it comes next. -/
def readMark? (mark : Char) (text : List Char) : Option (Taken Unit text.length) :=
  match h : skipGap text with
  | c :: rest => if c = mark then some ⟨(), rest, length_le_of_skipGap h⟩ else none
  | [] => none

/-- A comma, behind which there is more, or the mark that closes an array or an object. -/
def readSeparator (close : Char) (text : List Char) : Reading Bool text.length :=
  match readMark? close text with
  | some closed => .ok (closed.map fun _ => false)
  | none =>
    match readMark? ',' text with
    | some comma => .ok (comma.map fun _ => true)
    | none => .error (.malformed .missingComma (skipGap text))

mutual

def readValue (text : List Char) : Reading Json text.length :=
  match text with
  | '"' :: rest => do
    let s ← readString text rest
    return (s.map fun s => string (String.ofList s)).widen (Nat.le_succ _)
  | '[' :: rest =>
    match readMark? ']' rest with
    | some closed => .ok ((closed.map fun _ => array []).widen (Nat.le_succ _))
    | none => (readItems rest).map fun items => (items.map array).widen (Nat.le_succ _)
  | '\x7b' :: rest =>
    match readMark? '\x7d' rest with
    | some closed => .ok ((closed.map fun _ => object []).widen (Nat.le_succ _))
    | none => (readMembers rest).map fun members => (members.map object).widen (Nat.le_succ _)
  | text => readScalar text
termination_by 2 * text.length

/-- The items of an array, from the first one to behind the closing bracket. -/
def readItems (text : List Char) : Reading (List Json) text.length := do
  let item ← readValue (skipGap text)
  let separator ← readSeparator ']' item.rest
  have hRest := Nat.lt_trans separator.shorter
    (Nat.lt_of_lt_of_le item.shorter (length_skipGap_le text))
  if separator.value then
    let items ← readItems separator.rest
    return (items.map (item.value :: ·)).widen (Nat.le_of_lt hRest)
  else return ⟨[item.value], separator.rest, hRest⟩
termination_by 2 * text.length + 1
decreasing_by
  · have := length_skipGap_le text
    omega
  · omega

/-- A member of an object, without the blanks before it. -/
def readMember (text : List Char) : Reading (String × Json) text.length :=
  match text with
  | '"' :: rest => do
    let name ← readString text rest
    match readMark? ':' name.rest with
    | some colon =>
      have hColon := Nat.lt_trans colon.shorter name.shorter
      let value ← readValue (skipGap colon.rest)
      return (value.map (String.ofList name.value, ·)).widen
        (Nat.le_succ_of_le (Nat.le_trans (length_skipGap_le _) (Nat.le_of_lt hColon)))
    | none => .error (.malformed .missingColon (skipGap name.rest))
  | _ => .error (.malformed .missingName text)
termination_by 2 * text.length
decreasing_by
  have := length_skipGap_le colon.rest
  simp only [List.length_cons]
  omega

/-- The members of an object, from the first one to behind the closing brace. -/
def readMembers (text : List Char) : Reading (List (String × Json)) text.length := do
  let member ← readMember (skipGap text)
  let separator ← readSeparator '\x7d' member.rest
  have hRest := Nat.lt_trans separator.shorter
    (Nat.lt_of_lt_of_le member.shorter (length_skipGap_le text))
  if separator.value then
    let members ← readMembers separator.rest
    return (members.map (member.value :: ·)).widen (Nat.le_of_lt hRest)
  else return ⟨[member.value], separator.rest, hRest⟩
termination_by 2 * text.length + 1
decreasing_by
  · have := length_skipGap_le text
    omega
  · omega

end

/-- The value that a text gives. -/
def parse (text : List Char) : Except Fault Json :=
  match text with
  | '\ufeff' :: _ => .error (.malformed .byteOrderMark text)
  | _ => do
    let value ← readValue (skipGap text)
    match skipGap value.rest with
    | [] => return value.value
    | rest => .error (.malformed .extraText rest)

end BlockFlow.Json
