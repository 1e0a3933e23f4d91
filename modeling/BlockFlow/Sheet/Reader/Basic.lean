import BlockFlow.Sheet.Fault
import BlockFlow.Sheet.Name
import BlockFlow.Text.Blank

/-! # Reading from the start of a text

A reader takes what it needs from the start of a text and returns what is left. A reader that fails
says what is wrong, where, and how far it got; a place in the text is the part that begins there.
`Reading.Within` says that nothing but an end of the text is ever left or pointed at.
-/

namespace BlockFlow

structure Failure where
  fault : Fault
  position : List Char
  rest : List Char
  deriving Repr, DecidableEq

def Failure.here (fault : Fault) (rest : List Char) : Failure := ⟨fault, rest, rest⟩

/-- What was read, with the text that is left. -/
abbrev Reading (α : Type) := Except Failure (α × List Char)

namespace Reading

def map {α β : Type} (f : α → β) : Reading α → Reading β
  | .ok (a, rest) => .ok (f a, rest)
  | .error failure => .error failure

def andThen {α β : Type} (r : Reading α) (k : α → List Char → Reading β) : Reading β :=
  match r with
  | .ok (a, rest) => k a rest
  | .error failure => .error failure

/-- Both what is left and what is pointed at are ends of the text, and nothing is pointed at beyond
where reading stopped. -/
def Within {α : Type} (text : List Char) : Reading α → Prop
  | .ok (_, rest) => rest <:+ text
  | .error failure => failure.position <:+ text ∧ failure.rest <:+ failure.position

variable {α β : Type} {text : List Char}

theorem Within.map {f : α → β} {r : Reading α} (h : r.Within text) : (r.map f).Within text := by
  cases r with
  | ok p => exact h
  | error failure => exact h

theorem Within.mono {before : List Char} {r : Reading α} (h : r.Within before)
    (hs : before <:+ text) : r.Within text := by
  cases r with
  | ok p => exact List.IsSuffix.trans h hs
  | error failure => exact ⟨h.1.trans hs, h.2⟩

theorem Within.here {fault : Fault} {rest : List Char} (h : rest <:+ text) :
    Within (α := α) text (.error (.here fault rest)) :=
  ⟨h, List.suffix_rfl⟩

theorem Within.andThen {r : Reading α} {k : α → List Char → Reading β} (h : r.Within text)
    (hk : ∀ a rest, r = .ok (a, rest) → (k a rest).Within rest) : (r.andThen k).Within text := by
  cases r with
  | ok p => exact (hk p.1 p.2 rfl).mono h
  | error failure => exact h

end Reading

theorem Text.skipBlanks_suffix (text : List Char) : Text.skipBlanks text <:+ text :=
  List.dropWhile_suffix _

theorem Text.suffix_of_skipBlanks {text rest : List Char} (h : Text.skipBlanks text = rest) :
    rest <:+ text :=
  h ▸ Text.skipBlanks_suffix text

theorem Text.length_skipBlanks_le (text : List Char) :
    (Text.skipBlanks text).length ≤ text.length :=
  (Text.skipBlanks_suffix text).length_le

/-- What is left behind something that was read after blanks is less than the whole text. -/
theorem Text.length_lt_of_skipBlanks {text ahead rest : List Char}
    (h : Text.skipBlanks text = ahead) (hr : rest.length < ahead.length) :
    rest.length < text.length :=
  Nat.lt_of_lt_of_le hr (h ▸ Text.length_skipBlanks_le text)

def readName (missing : Fault) (text : List Char) : Reading String :=
  match leadingName text with
  | [] => .error (.here missing text)
  | name => .ok (String.ofList name, afterName text)

def readMark (mark : Char) (missing : Fault) (text : List Char) : Reading Unit :=
  match text with
  | c :: rest => if c = mark then .ok ((), rest) else .error (.here missing text)
  | [] => .error (.here missing text)

theorem readName_within (missing : Fault) (text : List Char) :
    (readName missing text).Within text := by
  unfold readName
  split
  · exact .here List.suffix_rfl
  · exact afterName_suffix text

theorem readMark_within (mark : Char) (missing : Fault) (text : List Char) :
    (readMark mark missing text).Within text := by
  unfold readMark
  split
  · split
    · exact List.suffix_cons _ _
    · exact .here List.suffix_rfl
  · exact .here List.suffix_rfl

/-- A name that was read is not empty, so that less text is left. -/
theorem length_lt_of_readName {missing : Fault} {text rest : List Char} {name : String}
    (h : readName missing text = .ok (name, rest)) : rest.length < text.length := by
  unfold readName at h
  split at h
  · cases h
  · next hne =>
    obtain ⟨-, rfl⟩ := Prod.mk.inj (Except.ok.inj h)
    have hlen := congrArg List.length (leadingName_append_afterName text)
    have hpos : 0 < (leadingName text).length := List.length_pos_iff.2 hne
    rw [List.length_append] at hlen
    omega

end BlockFlow
