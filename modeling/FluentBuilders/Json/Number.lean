import FluentBuilders.Json.Token

/-! # Numbers of the data format

A number is scanned into its parts first, with no regard to its size, and valued
afterwards only when a message reports it.  The value is the nearest double only
for short numbers: the digits are collected into a word of sixty-four bits, the
digits that no longer fit merely count as powers of ten, and the powers of ten
are applied by one rounded operation or a few.
-/
namespace FluentBuilders
namespace Json

/-- The parts of a number as they are written.  The fraction is empty when there
is none. -/
structure Number where
  negative : Bool
  whole : List Char
  fraction : List Char
  /-- Whether the exponent is negative, and its digits. -/
  exponent : Option (Bool × List Char)
deriving DecidableEq, Repr

/-! ## Scanning -/

/-- The digits before the point: a single zero, or digits that start with
another one.  The first argument says what the end of the text means. -/
def wholePart (atEnd : Cause) (s : Input) : Read (List Char) :=
  match s with
  | [] => .error (.before atEnd [])
  | c :: rest =>
    if c = '0' then
      match rest with
      | d :: _ => if d.isDigit then .error (.after .invalidNumber rest) else .ok (['0'], rest)
      | [] => .ok (['0'], [])
    else if c.isDigit then .ok (digits s, afterDigits s)
    else .error (.after .invalidNumber s)

/-- The digits after the point, if there is a point. -/
def fractionPart (atEnd : Cause) (s : Input) : Read (List Char) :=
  match s with
  | '.' :: rest =>
    match rest with
    | [] => .error (.before atEnd [])
    | d :: _ =>
      if d.isDigit then .ok (digits rest, afterDigits rest)
      else .error (.after .invalidNumber rest)
  | _ => .ok ([], s)

/-- The sign of an exponent: whether it is negative. -/
def exponentSign (s : Input) : Bool × Input :=
  match s with
  | '+' :: rest => (false, rest)
  | '-' :: rest => (true, rest)
  | _ => (false, s)

/-- The exponent, if there is one. -/
def exponentPart (atEnd : Cause) (s : Input) : Read (Option (Bool × List Char)) :=
  match s with
  | [] => .ok (none, [])
  | e :: rest =>
    if e = 'e' ∨ e = 'E' then
      let signed := exponentSign rest
      match signed.2 with
      | [] => .error (.before atEnd [])
      | d :: _ =>
        if d.isDigit then .ok (some (signed.1, digits signed.2), afterDigits signed.2)
        else .error (.after .invalidNumber signed.2)
    else .ok (none, s)

/-- A number after its sign. -/
def number (atEnd : Cause) (negative : Bool) (s : Input) : Read Number :=
  match wholePart atEnd s with
  | .error fault => .error fault
  | .ok (whole, s₁) =>
    match fractionPart atEnd s₁ with
    | .error fault => .error fault
    | .ok (fraction, s₂) =>
      match exponentPart atEnd s₂ with
      | .error fault => .error fault
      | .ok (exponent, s₃) => .ok (⟨negative, whole, fraction, exponent⟩, s₃)

theorem wholePart_length {e : Cause} {s r : Input} {w : List Char}
    (h : wholePart e s = .ok (w, r)) : r.length < s.length := by
  unfold wholePart at h
  split at h
  · simp at h
  · next c rest =>
    split at h
    · split at h
      · split at h
        · simp at h
        · injection h with h
          injection h with _ h
          subst h
          simp
      · injection h with h
        injection h with _ h
        subst h
        simp
    · split at h
      · next hc hd =>
        injection h with h
        injection h with _ h
        subst h
        have := afterDigits_length rest
        have hstep : afterDigits (c :: rest) = afterDigits rest := by
          simp [afterDigits, hd]
        rw [hstep, List.length_cons]
        omega
      · simp at h

theorem fractionPart_length {e : Cause} {s r : Input} {w : List Char}
    (h : fractionPart e s = .ok (w, r)) : r.length ≤ s.length := by
  unfold fractionPart at h
  split at h
  · next rest =>
    split at h
    · simp at h
    · next d rest' =>
      split at h
      · injection h with h
        injection h with _ h
        subst h
        have := afterDigits_length (d :: rest')
        simp only [List.length_cons] at this ⊢; omega
      · simp at h
  · injection h with h
    injection h with _ h
    exact h ▸ Nat.le_refl _

theorem exponentSign_length (s : Input) : (exponentSign s).2.length ≤ s.length := by
  unfold exponentSign
  split <;> simp

theorem exponentPart_length {e : Cause} {s r : Input} {w : Option (Bool × List Char)}
    (h : exponentPart e s = .ok (w, r)) : r.length ≤ s.length := by
  unfold exponentPart at h
  split at h
  · injection h with h
    injection h with _ h
    exact h ▸ Nat.le_refl _
  · next c rest =>
    split at h
    · have hs := exponentSign_length rest
      dsimp only at h
      split at h
      · simp at h
      · next d more heq =>
        split at h
        · injection h with h
          injection h with _ h
          subst h
          have := afterDigits_length (exponentSign rest).2
          simp only [List.length_cons]; omega
        · simp at h
    · injection h with h
      injection h with _ h
      exact h ▸ Nat.le_refl _

theorem number_length {e : Cause} {negative : Bool} {s r : Input} {n : Number}
    (h : number e negative s = .ok (n, r)) : r.length < s.length := by
  unfold number at h
  split at h
  · simp at h
  · next whole s₁ h₁ =>
    split at h
    · simp at h
    · next fraction s₂ h₂ =>
      split at h
      · simp at h
      · next exponent s₃ h₃ =>
        injection h with h
        injection h with _ h
        subst h
        exact Nat.lt_of_le_of_lt (exponentPart_length h₃)
          (Nat.lt_of_le_of_lt (fractionPart_length h₂) (wholePart_length h₁))

/-! ## Values -/

/-- Digits appended to a number as long as the result does not pass a limit; the
number reached and the digits that are left. -/
def absorb (limit : Nat) : Nat → List Char → Nat × List Char
  | value, [] => (value, [])
  | value, d :: ds =>
    let next := value * 10 + (d.toNat - '0'.toNat)
    if limit < next then (value, d :: ds) else absorb limit next ds

/-- The largest word of sixty-four bits. -/
def largestWord : Nat := Nat.pow 2 64 - 1

/-- The largest exponent that is read. -/
def largestExponent : Nat := Nat.pow 2 31 - 1

/-- A double times a power of ten, or nothing when it is too large.  A power
beyond the range of doubles is applied in steps. -/
def scale (f : Float) (exponent : Int) : Option Float :=
  if exponent.natAbs ≤ 308 then
    let power := Float.ofScientific 1 false exponent.natAbs
    if 0 ≤ exponent then
      if (f * power).isInf then none else some (f * power)
    else some (f / power)
  else if f == 0.0 then some f
  else if h : 0 ≤ exponent then none
  else scale (f / Float.ofScientific 1 false 308) (exponent + 308)
termination_by exponent.natAbs
decreasing_by omega

/-- A word times a power of ten, as it is reported. -/
def floating (negative : Bool) (word : Nat) (exponent : Int) : Option Found :=
  (scale word.toUInt64.toFloat exponent).map fun f =>
    .floating (Decimal.Signed.ofFloat negative f)

/-- A number as it is reported, given the input after it.  A whole number that
fits a word is reported as such, but a negative one only down to minus two to
the sixty-third, and minus zero is not whole. -/
def Number.found (n : Number) (rest : Input) : Except Fault Found :=
  let whole := absorb largestWord 0 n.whole
  let all := absorb largestWord whole.1 n.fraction
  let word := all.1
  let shift : Int := (whole.2.length : Int) - ((n.fraction.length - all.2.length : Nat) : Int)
  let atRest (value : Option Found) : Except Fault Found :=
    match value with
    | some found => .ok found
    | none => .error (.before .numberOutOfRange rest)
  match n.exponent with
  | none =>
    if n.fraction = [] ∧ whole.2 = [] ∧
        (n.negative = false ∨ (word ≠ 0 ∧ word ≤ Nat.pow 2 63)) then
      .ok (.whole (if n.negative then -(word : Int) else (word : Int)))
    else atRest (floating n.negative word shift)
  | some (down, ds) =>
    let power := absorb largestExponent 0 ds
    match power.2 with
    | [] => atRest (floating n.negative word (if down then shift - power.1 else shift + power.1))
    | _ :: unread =>
      if word ≠ 0 ∧ down = false then
        .error ⟨.numberOutOfRange, unread.length + Text.byteCount rest⟩
      else atRest (floating n.negative 0 0)

end Json
end FluentBuilders
