/-! # Bytes as text

Reading bytes that need not be well-formed UTF-8.  Well-formed sequences are
decoded and every maximal part of an ill-formed one becomes one replacement
character, so no byte is lost without a trace.
-/
namespace FluentBuilders
namespace Text

/-- The character that stands for bytes which encode none. -/
def replacement : Char := '\uFFFD'

/-- The range that the second byte of a sequence must lie in, given its first
byte, and the number of bytes after the second; nothing for a byte that starts
no sequence of two bytes or more.  The narrow ranges keep out overlong forms,
surrogates and numbers past the last code point. -/
def continuation? (lead : Nat) : Option ((Nat × Nat) × Nat) :=
  if 0xC2 ≤ lead ∧ lead ≤ 0xDF then some ((0x80, 0xBF), 0)
  else if lead = 0xE0 then some ((0xA0, 0xBF), 1)
  else if lead = 0xED then some ((0x80, 0x9F), 1)
  else if 0xE1 ≤ lead ∧ lead ≤ 0xEF then some ((0x80, 0xBF), 1)
  else if lead = 0xF0 then some ((0x90, 0xBF), 2)
  else if lead = 0xF4 then some ((0x80, 0x8F), 2)
  else if 0xF1 ≤ lead ∧ lead ≤ 0xF3 then some ((0x80, 0xBF), 2)
  else none

/-- Whether a byte may stand third or later in a sequence. -/
def isTrailing (b : UInt8) : Bool :=
  0x80 ≤ b.toNat && b.toNat ≤ 0xBF

/-- The payload bits of a lead byte that `more` bytes follow. -/
def leadBits (lead more : Nat) : Nat :=
  if more = 1 then lead % 0x20 else if more = 2 then lead % 0x10 else lead % 0x08

/-- Up to `count` trailing bytes appended to the number read so far; the number
when all of them are there, and the bytes that are left. -/
def trailing : Nat → Nat → List UInt8 → Option Nat × List UInt8
  | 0, value, rest => (some value, rest)
  | _ + 1, _, [] => (none, [])
  | count + 1, value, b :: rest =>
    if isTrailing b then trailing count (value * 0x40 + b.toNat % 0x40) rest
    else (none, b :: rest)

theorem trailing_length (count value : Nat) (s : List UInt8) :
    (trailing count value s).2.length ≤ s.length := by
  induction count generalizing value s with
  | zero => simp [trailing]
  | succ n ih =>
    cases s with
    | nil => simp [trailing]
    | cons b rest =>
      rw [trailing]
      split
      · exact Nat.le_succ_of_le (ih _ rest)
      · simp

/-- The first character of non-empty bytes, or its replacement, and the bytes
after it. -/
def decodeStep (lead : UInt8) (rest : List UInt8) : Char × List UInt8 :=
  if lead.toNat < 0x80 then (Char.ofNat lead.toNat, rest)
  else match continuation? lead.toNat, rest with
    | some ((low, high), more), second :: rest' =>
      if low ≤ second.toNat ∧ second.toNat ≤ high then
        let start := leadBits lead.toNat (more + 1) * 0x40 + second.toNat % 0x40
        match trailing more start rest' with
        | (some value, rest'') => (Char.ofNat value, rest'')
        | (none, rest'') => (replacement, rest'')
      else (replacement, rest)
    | _, _ => (replacement, rest)

theorem decodeStep_length (lead : UInt8) (rest : List UInt8) :
    (decodeStep lead rest).2.length ≤ rest.length := by
  unfold decodeStep
  split
  · exact Nat.le_refl _
  · split
    · next low high more second rest' _ =>
      split
      · have h := trailing_length more
          (leadBits lead.toNat (more + 1) * 0x40 + second.toNat % 0x40) rest'
        dsimp only
        split <;> next heq => rw [heq] at h; exact Nat.le_succ_of_le h
      · exact Nat.le_refl _
    · exact Nat.le_refl _

/-- Bytes as characters, each maximal ill-formed part replaced. -/
def decodeLossy : List UInt8 → List Char
  | [] => []
  | lead :: rest => (decodeStep lead rest).1 :: decodeLossy (decodeStep lead rest).2
termination_by s => s.length
decreasing_by exact Nat.lt_succ_of_le (decodeStep_length lead rest)

end Text
end FluentBuilders
