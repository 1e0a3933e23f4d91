import BlockFlow.Text.Decoded
import Mathlib.Data.List.Basic

/-! # Bytes and the characters they encode

What is decoded is specified by the encoding of characters alone. A text is read from exactly its
own bytes. An error blames the first bytes that no character goes on to have: they stand behind the
bytes of whole characters, and either no character begins with the first of them, or some character
begins with all of them, but with no more of what the file goes on with.
-/

namespace BlockFlow.Text

open String (utf8EncodeChar)

/-! ## The bytes of one character -/

/-- Bytes that may follow a first byte, which `more` bytes follow in all and the next of them within
bounds. -/
inductive Follow : (more low high : Nat) → List UInt8 → Prop
  | nil {more low high} : Follow more low high []
  | cons {more low high b bytes} : low ≤ b.toNat → b.toNat ≤ high → Follow more 0x80 0xBF bytes →
      Follow (more + 1) low high (b :: bytes)

/-- The bits that bytes add, six each. -/
def withBits (bits : Nat) : List UInt8 → Nat
  | [] => bits
  | b :: bytes => withBits (bits * 0x40 + b.toNat % 0x40) bytes

section Follow

variable {more low high bits taken : Nat} {b : UInt8} {bytes front rest : List UInt8}

theorem follow_cons_iff : Follow more low high (b :: bytes) ↔
    low ≤ b.toNat ∧ b.toNat ≤ high ∧ ∃ fewer, more = fewer + 1 ∧ Follow fewer 0x80 0xBF bytes := by
  constructor
  · rintro (_ | ⟨hLow, hHigh, h⟩)
    exact ⟨hLow, hHigh, _, rfl, h⟩
  · rintro ⟨hLow, hHigh, _, rfl, h⟩
    exact .cons hLow hHigh h

theorem Follow.of_append (h : Follow more low high (front ++ rest)) : Follow more low high front := by
  induction front generalizing more low high with
  | nil => exact .nil
  | cons b front ih =>
    obtain ⟨hLow, hHigh, _, rfl, hRest⟩ := follow_cons_iff.mp h
    exact .cons hLow hHigh (ih hRest)

/-- Whatever may follow can be brought to an end. -/
theorem Follow.exists_completion (hBounds : low ≤ high) (hByte : high < 256)
    (h : Follow more low high front) :
    ∃ rest, Follow more low high (front ++ rest) ∧ (front ++ rest).length = more := by
  induction h with
  | @nil more low high =>
    induction more generalizing low high with
    | zero => exact ⟨[], .nil, rfl⟩
    | succ more ih =>
      obtain ⟨rest, hRest, hLength⟩ := ih (by decide : 0x80 ≤ 0xBF) (by decide)
      have hNat : (UInt8.ofNat low).toNat = low := by
        rw [UInt8.toNat_ofNat']
        omega
      exact ⟨UInt8.ofNat low :: rest, .cons (by omega) (by omega) hRest, congrArg (· + 1) hLength⟩
  | cons hLow hHigh _ ih =>
    obtain ⟨rest, hRest, hLength⟩ := ih (by decide) (by decide)
    exact ⟨rest, .cons hLow hHigh hRest, congrArg (· + 1) hLength⟩

/-- Bytes that follow are all there are, or they end too early, or one of them may not stand there. -/
theorem follow_cases (more low high : Nat) (bytes : List UInt8) :
    (∃ front rest, bytes = front ++ rest ∧ Follow more low high front ∧ front.length = more) ∨
    (Follow more low high bytes ∧ bytes.length < more) ∨
    ∃ front b rest, bytes = front ++ b :: rest ∧ Follow more low high front ∧ front.length < more ∧
      ¬ Follow more low high (front ++ [b]) := by
  induction bytes generalizing more low high with
  | nil =>
    cases more with
    | zero => exact .inl ⟨[], [], rfl, .nil, rfl⟩
    | succ more => exact .inr (.inl ⟨.nil, Nat.succ_pos _⟩)
  | cons b bytes ih =>
    cases more with
    | zero => exact .inl ⟨[], b :: bytes, rfl, .nil, rfl⟩
    | succ more =>
      by_cases hBounds : low ≤ b.toNat ∧ b.toNat ≤ high
      · obtain ⟨hLow, hHigh⟩ := hBounds
        rcases ih more 0x80 0xBF with ⟨front, rest, rfl, hFront, rfl⟩ | ⟨hBytes, hLength⟩ |
          ⟨front, c, rest, rfl, hFront, hLength, hRefused⟩
        · exact .inl ⟨b :: front, rest, rfl, .cons hLow hHigh hFront, rfl⟩
        · exact .inr (.inl ⟨.cons hLow hHigh hBytes, Nat.succ_lt_succ hLength⟩)
        · refine .inr (.inr ⟨b :: front, c, rest, rfl, .cons hLow hHigh hFront,
            Nat.succ_lt_succ hLength, fun h => hRefused ?_⟩)
          obtain ⟨-, -, _, hMore, h⟩ := follow_cons_iff.mp h
          rwa [Nat.succ.inj hMore]
      · refine .inr (.inr ⟨[], b, bytes, rfl, .nil, Nat.succ_pos _, fun h => hBounds ?_⟩)
        obtain ⟨hLow, hHigh, -⟩ := follow_cons_iff.mp h
        exact ⟨hLow, hHigh⟩

theorem readMore_of_bounds (hLow : low ≤ b.toNat) (hHigh : b.toNat ≤ high) :
    readMore bits taken (more + 1) low high (b :: bytes) =
      readMore (bits * 0x40 + b.toNat % 0x40) (taken + 1) more 0x80 0xBF bytes := by
  rw [readMore, if_pos ⟨hLow, hHigh⟩]

theorem readMore_of_whole (h : Follow more low high front) (hLength : front.length = more) :
    readMore bits taken more low high (front ++ rest) = .ok (withBits bits front, rest) := by
  induction h generalizing bits taken with
  | nil =>
    subst hLength
    rfl
  | cons hLow hHigh _ ih =>
    rw [List.cons_append, readMore_of_bounds hLow hHigh, ih (Nat.succ.inj hLength), withBits]

theorem readMore_of_short (h : Follow more low high front) (hLength : front.length < more) :
    readMore bits taken more low high front = .error (.unexpectedEnd, taken + front.length) := by
  induction h generalizing bits taken with
  | nil =>
    obtain ⟨_, rfl⟩ := Nat.exists_eq_add_one.mpr hLength
    rfl
  | cons hLow hHigh _ ih =>
    rw [readMore_of_bounds hLow hHigh, ih (Nat.lt_of_succ_lt_succ hLength), List.length_cons,
      Nat.succ_add_eq_add_succ]

theorem readMore_of_refused (h : Follow more low high front) (hLength : front.length < more)
    (hRefused : ¬ Follow more low high (front ++ [b])) :
    readMore bits taken more low high (front ++ b :: rest) =
      .error (.invalidContinuation, taken + front.length) := by
  induction h generalizing bits taken with
  | nil =>
    obtain ⟨_, rfl⟩ := Nat.exists_eq_add_one.mpr hLength
    rw [List.nil_append, readMore, if_neg fun hBounds => hRefused (.cons hBounds.1 hBounds.2 .nil)]
    rfl
  | cons hLow hHigh _ ih =>
    rw [List.cons_append, readMore_of_bounds hLow hHigh,
      ih (Nat.lt_of_succ_lt_succ hLength) fun h => hRefused (.cons hLow hHigh h), List.length_cons,
      Nat.succ_add_eq_add_succ]

end Follow

theorem lead?_eq_some_iff {b : Nat} {lead : Lead} : lead? b = some lead ↔
    (b < 0x80 ∧ lead = ⟨b, 0, 0x80, 0xBF⟩) ∨
    (0xC2 ≤ b ∧ b < 0xE0 ∧ lead = ⟨b % 0x20, 1, 0x80, 0xBF⟩) ∨
    (0xE0 ≤ b ∧ b < 0xF0 ∧ lead =
      ⟨b % 0x10, 2, if b = 0xE0 then 0xA0 else 0x80, if b = 0xED then 0x9F else 0xBF⟩) ∨
    (0xF0 ≤ b ∧ b < 0xF5 ∧ lead =
      ⟨b % 0x08, 3, if b = 0xF0 then 0x90 else 0x80, if b = 0xF4 then 0x8F else 0xBF⟩) := by
  unfold lead?
  grind

/-- The first byte of a character says how many others there are and what they may be. -/
theorem exists_lead_of_utf8EncodeChar {c : Char} {b : UInt8} {bytes : List UInt8}
    (h : utf8EncodeChar c = b :: bytes) :
    ∃ lead, lead? b.toNat = some lead ∧ Follow lead.more lead.low lead.high bytes ∧
      bytes.length = lead.more ∧ withBits lead.bits bytes = c.toNat := by
  have hValid := c.valid
  change _ < 0xD800 ∨ _ at hValid
  unfold utf8EncodeChar at h
  change ∃ lead, _ ∧ _ ∧ _ ∧ _ = c.val.toNat
  generalize c.val.toNat = v at h hValid
  dsimp only at h
  split at h
  · obtain ⟨rfl, rfl⟩ := List.cons.inj h
    refine ⟨_, lead?_eq_some_iff.mpr (.inl ⟨?_, rfl⟩), .nil, rfl, ?_⟩
    all_goals
      simp only [withBits, UInt8.toNat_ofNat']
      omega
  · split at h
    · obtain ⟨rfl, rfl⟩ := List.cons.inj h
      refine ⟨_, lead?_eq_some_iff.mpr (.inr (.inl ⟨?_, ?_, rfl⟩)), .cons ?_ ?_ .nil, rfl, ?_⟩
      all_goals
        simp only [withBits, UInt8.toNat_ofNat']
        omega
    · split at h
      · obtain ⟨rfl, rfl⟩ := List.cons.inj h
        refine ⟨_, lead?_eq_some_iff.mpr (.inr (.inr (.inl ⟨?_, ?_, rfl⟩))),
          .cons ?_ ?_ (.cons ?_ ?_ .nil), rfl, ?_⟩
        all_goals simp only [withBits, UInt8.toNat_ofNat']
        -- The bounds of the second byte depend on the first.
        all_goals first | omega | split <;> omega
      · obtain ⟨rfl, rfl⟩ := List.cons.inj h
        refine ⟨_, lead?_eq_some_iff.mpr (.inr (.inr (.inr ⟨?_, ?_, rfl⟩))),
          .cons ?_ ?_ (.cons ?_ ?_ (.cons ?_ ?_ .nil)), rfl, ?_⟩
        all_goals simp only [withBits, UInt8.toNat_ofNat']
        all_goals first | omega | split <;> omega

section Whole

variable {b : UInt8} {bytes : List UInt8} {lead : Lead}

variable (hLead : lead? b.toNat = some lead) (hFollow : Follow lead.more lead.low lead.high bytes)
  (hLength : bytes.length = lead.more)

include hLead hFollow hLength

/-- The forms of a character, with the number that each stands for. -/
theorem whole_cases :
    (bytes = [] ∧ b.toNat < 0x80 ∧ withBits lead.bits bytes = b.toNat) ∨
    (∃ b₁, bytes = [b₁] ∧ 0xC2 ≤ b.toNat ∧ b.toNat < 0xE0 ∧ 0x80 ≤ b₁.toNat ∧ b₁.toNat ≤ 0xBF ∧
      withBits lead.bits bytes = b.toNat % 0x20 * 0x40 + b₁.toNat % 0x40) ∨
    (∃ b₁ b₂, bytes = [b₁, b₂] ∧ 0xE0 ≤ b.toNat ∧ b.toNat < 0xF0 ∧
      (0x80 ≤ b₁.toNat ∧ (b.toNat = 0xE0 → 0xA0 ≤ b₁.toNat)) ∧
      (b₁.toNat ≤ 0xBF ∧ (b.toNat = 0xED → b₁.toNat ≤ 0x9F)) ∧ 0x80 ≤ b₂.toNat ∧ b₂.toNat ≤ 0xBF ∧
      withBits lead.bits bytes =
        (b.toNat % 0x10 * 0x40 + b₁.toNat % 0x40) * 0x40 + b₂.toNat % 0x40) ∨
    ∃ b₁ b₂ b₃, bytes = [b₁, b₂, b₃] ∧ 0xF0 ≤ b.toNat ∧ b.toNat < 0xF5 ∧
      (0x80 ≤ b₁.toNat ∧ (b.toNat = 0xF0 → 0x90 ≤ b₁.toNat)) ∧
      (b₁.toNat ≤ 0xBF ∧ (b.toNat = 0xF4 → b₁.toNat ≤ 0x8F)) ∧ 0x80 ≤ b₂.toNat ∧ b₂.toNat ≤ 0xBF ∧
      0x80 ≤ b₃.toNat ∧ b₃.toNat ≤ 0xBF ∧ withBits lead.bits bytes =
        ((b.toNat % 0x08 * 0x40 + b₁.toNat % 0x40) * 0x40 + b₂.toNat % 0x40) * 0x40 +
          b₃.toNat % 0x40 := by
  rcases lead?_eq_some_iff.mp hLead with ⟨hb, rfl⟩ | ⟨hMin, hMax, rfl⟩ | ⟨hMin, hMax, rfl⟩ |
    ⟨hMin, hMax, rfl⟩
  · obtain rfl := List.length_eq_zero_iff.mp hLength
    exact .inl ⟨rfl, hb, rfl⟩
  · obtain ⟨b₁, rfl⟩ := List.length_eq_one_iff.mp hLength
    obtain ⟨h₁, h₁', -⟩ := follow_cons_iff.mp hFollow
    exact .inr (.inl ⟨b₁, rfl, hMin, hMax, h₁, h₁', rfl⟩)
  · obtain ⟨b₁, b₂, rfl⟩ := List.length_eq_two.mp hLength
    obtain ⟨h₁, h₁', _, hMore, hFollow⟩ := follow_cons_iff.mp hFollow
    obtain ⟨h₂, h₂', -⟩ := follow_cons_iff.mp hFollow
    refine .inr (.inr (.inl ⟨b₁, b₂, rfl, hMin, hMax, ?_, ?_, h₂, h₂', rfl⟩))
    · dsimp only at h₁
      split at h₁ <;> omega
    · dsimp only at h₁'
      split at h₁' <;> omega
  · obtain ⟨b₁, b₂, b₃, rfl⟩ := List.length_eq_three.mp hLength
    obtain ⟨h₁, h₁', _, hMore, hFollow⟩ := follow_cons_iff.mp hFollow
    obtain ⟨h₂, h₂', _, hMore', hFollow⟩ := follow_cons_iff.mp hFollow
    obtain ⟨h₃, h₃', -⟩ := follow_cons_iff.mp hFollow
    refine .inr (.inr (.inr ⟨b₁, b₂, b₃, rfl, hMin, hMax, ?_, ?_, h₂, h₂', h₃, h₃', rfl⟩))
    · dsimp only at h₁
      split at h₁ <;> omega
    · dsimp only at h₁'
      split at h₁' <;> omega

theorem isValidChar_withBits : (withBits lead.bits bytes).isValidChar := by
  change _ < 0xD800 ∨ 0xDFFF < _ ∧ _ < 0x110000
  rcases whole_cases hLead hFollow hLength with ⟨-, hb, hBits⟩ |
    ⟨b₁, -, hMin, hMax, h₁, h₁', hBits⟩ | ⟨b₁, b₂, -, hMin, hMax, h₁, h₁', h₂, h₂', hBits⟩ |
    ⟨b₁, b₂, b₃, -, hMin, hMax, h₁, h₁', h₂, h₂', h₃, h₃', hBits⟩
  all_goals omega

/-- Bytes that follow a first byte, as many as it says, are those of the character with the number
that they add up to. -/
theorem utf8EncodeChar_of_whole {c : Char} (hc : c.toNat = withBits lead.bits bytes) :
    utf8EncodeChar c = b :: bytes := by
  change c.val.toNat = _ at hc
  unfold utf8EncodeChar
  generalize c.val.toNat = v at hc
  dsimp only
  rcases whole_cases hLead hFollow hLength with ⟨rfl, hb, hBits⟩ |
    ⟨b₁, rfl, hMin, hMax, h₁, h₁', hBits⟩ | ⟨b₁, b₂, rfl, hMin, hMax, h₁, h₁', h₂, h₂', hBits⟩ |
    ⟨b₁, b₂, b₃, rfl, hMin, hMax, h₁, h₁', h₂, h₂', h₃, h₃', hBits⟩
  all_goals rw [hBits] at hc
  · rw [if_pos (by omega), hc, UInt8.ofNat_toNat]
  · rw [if_neg (by omega), if_pos (by omega), (by omega : v / 64 % 32 + 192 = b.toNat),
      (by omega : v % 64 + 128 = b₁.toNat), UInt8.ofNat_toNat, UInt8.ofNat_toNat]
  · rw [if_neg (by omega), if_neg (by omega), if_pos (by omega),
      (by omega : v / 4096 % 16 + 224 = b.toNat), (by omega : v / 64 % 64 + 128 = b₁.toNat),
      (by omega : v % 64 + 128 = b₂.toNat), UInt8.ofNat_toNat, UInt8.ofNat_toNat,
      UInt8.ofNat_toNat]
  · rw [if_neg (by omega), if_neg (by omega), if_neg (by omega),
      (by omega : v / 262144 % 8 + 240 = b.toNat), (by omega : v / 4096 % 64 + 128 = b₁.toNat),
      (by omega : v / 64 % 64 + 128 = b₂.toNat), (by omega : v % 64 + 128 = b₃.toNat),
      UInt8.ofNat_toNat, UInt8.ofNat_toNat, UInt8.ofNat_toNat, UInt8.ofNat_toNat]

theorem exists_char_of_whole : ∃ c, utf8EncodeChar c = b :: bytes :=
  ⟨Char.ofNatAux _ (isValidChar_withBits hLead hFollow hLength),
    utf8EncodeChar_of_whole hLead hFollow hLength rfl⟩

end Whole

/-! ## Reading one character -/

/-- The first bytes of a character, but not all of them. -/
def Unfinished (bytes : List UInt8) : Prop :=
  ∃ c rest, rest ≠ [] ∧ utf8EncodeChar c = bytes ++ rest

/-- Why a byte and the ones behind it that are blamed with it are no character, where the file goes
on with `rest`: no character begins like that, or none that begins like that goes on so. -/
inductive Undecodable : DecodeFault → (b : UInt8) → (more rest : List UInt8) → Prop
  | invalidStart {b rest} : (∀ c, ¬ [b] <+: utf8EncodeChar c) → Undecodable .invalidStart b [] rest
  | invalidContinuation {b more d rest} : Unfinished (b :: more) →
      (∀ c, ¬ b :: more ++ [d] <+: utf8EncodeChar c) →
      Undecodable .invalidContinuation b more (d :: rest)
  | unexpectedEnd {b more} : Unfinished (b :: more) → Undecodable .unexpectedEnd b more []

variable {b : UInt8} {c : Char} {bytes more rest : List UInt8} {fault : DecodeFault}

theorem Lead.bounds {b : Nat} {lead : Lead} (h : lead? b = some lead) :
    lead.low ≤ lead.high ∧ lead.high < 256 := by
  have := lead?_eq_some_iff.mp h
  grind

theorem exists_char_of_follow {lead : Lead} (hLead : lead? b.toNat = some lead)
    (hFollow : Follow lead.more lead.low lead.high more) :
    ∃ c rest, utf8EncodeChar c = b :: more ++ rest ∧ (more ++ rest).length = lead.more := by
  obtain ⟨hBounds, hByte⟩ := Lead.bounds hLead
  obtain ⟨rest, hWhole, hLength⟩ := hFollow.exists_completion hBounds hByte
  obtain ⟨c, hChar⟩ := exists_char_of_whole hLead hWhole hLength
  exact ⟨c, rest, hChar, hLength⟩

theorem unfinished_cons_iff : Unfinished (b :: more) ↔
    ∃ lead, lead? b.toNat = some lead ∧ Follow lead.more lead.low lead.high more ∧
      more.length < lead.more := by
  constructor
  · rintro ⟨c, rest, hRest, hChar⟩
    rw [List.cons_append] at hChar
    obtain ⟨lead, hLead, hFollow, hLength, -⟩ := exists_lead_of_utf8EncodeChar hChar
    rw [List.length_append] at hLength
    have := List.length_pos_iff.mpr hRest
    exact ⟨lead, hLead, hFollow.of_append, by omega⟩
  · rintro ⟨lead, hLead, hFollow, hLength⟩
    obtain ⟨c, rest, hChar, hWhole⟩ := exists_char_of_follow hLead hFollow
    refine ⟨c, rest, ?_, hChar⟩
    rintro rfl
    rw [List.append_nil] at hWhole
    omega

theorem readChar_of_char (h : utf8EncodeChar c = b :: more) (rest : List UInt8) :
    readChar b (more ++ rest) = .ok (c, rest) := by
  obtain ⟨lead, hLead, hFollow, hLength, hBits⟩ := exists_lead_of_utf8EncodeChar h
  rw [readChar, hLead]
  dsimp only
  rw [readMore_of_whole hFollow hLength, hBits]
  exact congrArg (fun c => Except.ok (c, rest)) (Char.ofNat_toNat c)

theorem readChar_of_undecodable (h : Undecodable fault b more rest) :
    readChar b (more ++ rest) = .error (fault, more.length) := by
  unfold readChar
  cases h with
  | invalidStart hNone =>
    cases hLead : lead? b.toNat with
    | none => rfl
    | some lead =>
      obtain ⟨c, rest, hChar, -⟩ := exists_char_of_follow hLead .nil
      exact absurd ⟨rest, hChar.symm⟩ (hNone c)
  | invalidContinuation hFront hNone =>
    obtain ⟨lead, hLead, hFollow, hLength⟩ := unfinished_cons_iff.mp hFront
    rw [hLead]
    dsimp only
    rw [readMore_of_refused hFollow hLength, Nat.zero_add]
    · rfl
    · intro hMore
      obtain ⟨c, rest, hChar, -⟩ := exists_char_of_follow hLead hMore
      exact hNone c ⟨rest, hChar.symm⟩
  | unexpectedEnd hFront =>
    obtain ⟨lead, hLead, hFollow, hLength⟩ := unfinished_cons_iff.mp hFront
    rw [hLead, List.append_nil]
    dsimp only
    rw [readMore_of_short hFollow hLength, Nat.zero_add]
    rfl

/-- A file goes on with a character or with bytes that are none. -/
theorem char_or_undecodable (b : UInt8) (bytes : List UInt8) :
    (∃ c more rest, bytes = more ++ rest ∧ utf8EncodeChar c = b :: more) ∨
      ∃ fault more rest, bytes = more ++ rest ∧ Undecodable fault b more rest := by
  cases hLead : lead? b.toNat with
  | none =>
    refine .inr ⟨_, [], bytes, rfl, .invalidStart fun c ⟨rest, hChar⟩ => ?_⟩
    obtain ⟨lead, hLead', -⟩ := exists_lead_of_utf8EncodeChar hChar.symm
    cases hLead.symm.trans hLead'
  | some lead =>
    rcases follow_cases lead.more lead.low lead.high bytes with
      ⟨more, rest, rfl, hFollow, hLength⟩ | ⟨hFollow, hLength⟩ |
      ⟨more, d, rest, rfl, hFollow, hLength, hRefused⟩
    · obtain ⟨c, hChar⟩ := exists_char_of_whole hLead hFollow hLength
      exact .inl ⟨c, more, rest, rfl, hChar⟩
    · exact .inr ⟨_, bytes, [], (List.append_nil _).symm,
        .unexpectedEnd (unfinished_cons_iff.mpr ⟨lead, hLead, hFollow, hLength⟩)⟩
    · refine .inr ⟨_, more, d :: rest, rfl, .invalidContinuation
        (unfinished_cons_iff.mpr ⟨lead, hLead, hFollow, hLength⟩) fun c ⟨rest', hChar⟩ => ?_⟩
      obtain ⟨lead', hLead', hFollow', -⟩ := exists_lead_of_utf8EncodeChar hChar.symm
      obtain rfl := Option.some.inj (hLead.symm.trans hLead')
      exact hRefused hFollow'.of_append

/-! ## Reading a whole file -/

/-- The bytes of a text. -/
def encode (text : List Char) : List UInt8 := text.flatMap utf8EncodeChar

variable {size : Nat} {before text : List Char}

theorem readChars_of_char (h : utf8EncodeChar c = b :: more) :
    readChars size (b :: (more ++ rest)) = (readChars size rest).map (c :: ·) := by
  have hRead := readChar_of_char h rest
  rw [readChars]
  split
  · next hError => cases hRead.symm.trans hError
  · next hChar =>
    obtain ⟨rfl, rfl⟩ := Prod.mk.inj (Except.ok.inj (hRead.symm.trans hChar))
    rfl

theorem readChars_of_undecodable (h : Undecodable fault b more rest) :
    readChars size (b :: (more ++ rest)) =
      .error ⟨fault, size - ((more ++ rest).length + 1), b, more.length⟩ := by
  have hRead := readChar_of_undecodable h
  rw [readChars]
  split
  · next hError =>
    obtain ⟨rfl, rfl⟩ := Prod.mk.inj (Except.error.inj (hRead.symm.trans hError))
    rfl
  · next hChar => cases hRead.symm.trans hChar

theorem readChars_encode_append (before : List Char) (bytes : List UInt8) :
    readChars size (encode before ++ bytes) = (readChars size bytes).map (before ++ ·) := by
  induction before with
  | nil =>
    rw [encode, List.flatMap_nil, List.nil_append]
    cases readChars size bytes <;> rfl
  | cons c before ih =>
    obtain ⟨b, more, hChar⟩ := List.exists_cons_of_ne_nil (String.utf8EncodeChar_ne_nil (c := c))
    rw [encode, List.flatMap_cons, hChar, List.append_assoc, List.cons_append,
      readChars_of_char hChar]
    change ((readChars size (encode before ++ bytes)).map _) = _
    rw [ih]
    cases readChars size bytes <;> rfl

/-- A file is the bytes of a text, or it has bytes that are no character behind those of a text. -/
theorem encode_or_undecodable (bytes : List UInt8) :
    (∃ text, bytes = encode text) ∨ ∃ before fault b more rest,
      bytes = encode before ++ b :: (more ++ rest) ∧ Undecodable fault b more rest := by
  induction hLength : bytes.length using Nat.strongRecOn generalizing bytes with
  | ind n ih =>
  cases bytes with
  | nil => exact .inl ⟨[], rfl⟩
  | cons b bytes =>
    rcases char_or_undecodable b bytes with ⟨c, more, rest, rfl, hChar⟩ |
      ⟨fault, more, rest, rfl, hFault⟩
    · rw [List.length_cons, List.length_append] at hLength
      have hCons (text : List Char) : encode (c :: text) = b :: (more ++ encode text) := by
        rw [encode, List.flatMap_cons, hChar]
        rfl
      rcases ih rest.length (by omega) rest rfl with ⟨text, rfl⟩ |
        ⟨before, fault, d, more', rest', rfl, hFault⟩
      · exact .inl ⟨c :: text, (hCons text).symm⟩
      · refine .inr ⟨c :: before, fault, d, more', rest', ?_, hFault⟩
        rw [hCons, List.cons_append, List.append_assoc]
    · exact .inr ⟨[], fault, b, more, rest, rfl, hFault⟩

theorem readChars_encode (text : List Char) : readChars size (encode text) = .ok text := by
  rw [← List.append_nil (encode text), readChars_encode_append, readChars]
  exact congrArg Except.ok (List.append_nil text)

/-- The bytes of whole characters stand before those that an error blames, and these are the first
of a file that are no character. -/
def DecodeError.Blames (e : DecodeError) (bytes : List UInt8) : Prop :=
  ∃ before more rest, bytes = encode before ++ e.first :: (more ++ rest) ∧
    e.position = (encode before).length ∧ e.more = more.length ∧
    Undecodable e.fault e.first more rest

theorem readChars_of_blames {e : DecodeError} (h : e.Blames bytes) :
    readChars bytes.length bytes = .error e := by
  obtain ⟨fault, position, first, count⟩ := e
  obtain ⟨before, more, rest, rfl, hPosition, hMore, hFault⟩ := h
  dsimp only at hPosition hMore hFault ⊢
  subst hPosition hMore
  rw [readChars_encode_append, readChars_of_undecodable hFault, List.length_append,
    List.length_cons, Nat.add_sub_cancel]
  rfl

/-! ## Files -/

theorem decode_of_encode {file : ByteArray} (h : file.data.toList = encode text) :
    decode file = .ok (unifyLineEnds text) := by
  rw [decode, h, readChars_encode]
  rfl

theorem decode_of_blames {file : ByteArray} {e : DecodeError} (h : e.Blames file.data.toList) :
    decode file = .error e := by
  have hRead := readChars_of_blames h
  rw [Array.length_toList] at hRead
  rw [decode, ByteArray.size, hRead]
  rfl

theorem decode_cases (file : ByteArray) :
    (∃ text, file.data.toList = encode text ∧ decode file = .ok (unifyLineEnds text)) ∨
      ∃ e : DecodeError, e.Blames file.data.toList ∧ decode file = .error e := by
  rcases encode_or_undecodable file.data.toList with ⟨text, hText⟩ |
    ⟨before, fault, b, more, rest, hBytes, hFault⟩
  · exact .inl ⟨text, hText, decode_of_encode hText⟩
  · have hBlames : DecodeError.Blames ⟨fault, (encode before).length, b, more.length⟩ _ :=
      ⟨before, more, rest, hBytes, rfl, rfl, hFault⟩
    exact .inr ⟨_, hBlames, decode_of_blames hBlames⟩

/-- The error that a file is refused with is the one that blames the right bytes of it. -/
theorem decode_eq_error_iff {file : ByteArray} {e : DecodeError} :
    decode file = .error e ↔ e.Blames file.data.toList := by
  refine ⟨fun h => ?_, decode_of_blames⟩
  rcases decode_cases file with ⟨text, -, hOk⟩ | ⟨e', hBlames, hError⟩
  · cases h.symm.trans hOk
  · rwa [Except.error.inj (h.symm.trans hError)]

theorem isValidUTF8_iff {file : ByteArray} :
    file.IsValidUTF8 ↔ ∃ text, file.data.toList = encode text := by
  constructor
  · rintro ⟨text, rfl⟩
    exact ⟨text, List.toList_data_toByteArray⟩
  · rintro ⟨text, h⟩
    exact ⟨text, ByteArray.ext (Array.toList_inj.mp (h.trans List.toList_data_toByteArray.symm))⟩

/-- Some bytes are to blame exactly if a file is not valid UTF-8. -/
theorem exists_blames_iff {file : ByteArray} :
    (∃ e : DecodeError, e.Blames file.data.toList) ↔ ¬ file.IsValidUTF8 := by
  rw [isValidUTF8_iff]
  rcases decode_cases file with ⟨text, hText, hOk⟩ | ⟨e, hBlames, hError⟩
  · refine ⟨fun ⟨e, h⟩ => ?_, fun h => absurd ⟨text, hText⟩ h⟩
    cases hOk.symm.trans (decode_of_blames h)
  · refine ⟨fun _ ⟨text, hText⟩ => ?_, fun _ => ⟨e, hBlames⟩⟩
    cases hError.symm.trans (decode_of_encode hText)

/-- The bytes of a string are read as it is, up to its line ends. -/
theorem decode_toUTF8 (s : String) : decode s.toUTF8 = .ok (unifyLineEnds s.toList) := by
  have hBytes : s.toUTF8 = s.toList.utf8Encode := by
    rw [← String.toByteArray_ofList, String.ofList_toList, String.toUTF8_eq_toByteArray]
  apply decode_of_encode
  rw [hBytes]
  exact List.toList_data_toByteArray

end BlockFlow.Text
