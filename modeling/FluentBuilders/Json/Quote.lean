import FluentBuilders.Json.Token

/-! # Strings of the data format

Writing a text between quotes, and reading what stands between quotes.  A string
whose content is wanted must not hold half of a surrogate pair; one that is only
skipped may.
-/
namespace FluentBuilders
namespace Json

/-- A lower-case hexadecimal digit. -/
def hexDigit (n : Nat) : Char :=
  Nat.digitChar n

/-- The value of a hexadecimal digit of either case. -/
def hexValue? (c : Char) : Option Nat :=
  if '0' ≤ c ∧ c ≤ '9' then some (c.toNat - '0'.toNat)
  else if 'a' ≤ c ∧ c ≤ 'f' then some (c.toNat - 'a'.toNat + 10)
  else if 'A' ≤ c ∧ c ≤ 'F' then some (c.toNat - 'A'.toNat + 10)
  else none

/-! ## Writing -/

/-- One character of a written string: the escapes with a letter of their own,
the other controls by number, all else as it is. -/
def encodeChar (c : Char) : List Char :=
  if c = '\"' then ['\\', '\"']
  else if c = '\\' then ['\\', '\\']
  else if c = '\x08' then ['\\', 'b']
  else if c = '\x0c' then ['\\', 'f']
  else if c = '\n' then ['\\', 'n']
  else if c = '\r' then ['\\', 'r']
  else if c = '\t' then ['\\', 't']
  else if c.toNat < 0x20 then
    ['\\', 'u', '0', '0', hexDigit (c.toNat / 16), hexDigit (c.toNat % 16)]
  else [c]

/-- A text between quotes. -/
def encode (s : List Char) : List Char :=
  '\"' :: (s.flatMap encodeChar ++ ['\"'])

/-! ## Escapes -/

/-- Four hexadecimal digits. -/
def hexQuad (s : Input) : Read Nat :=
  let fault : Fault :=
    if Text.byteCount s < 4 then .before .endInString [] else .past 4 .invalidEscape s
  match s with
  | a :: b :: c :: d :: rest =>
    match hexValue? a, hexValue? b, hexValue? c, hexValue? d with
    | some a, some b, some c, some d => .ok (((a * 16 + b) * 16 + c) * 16 + d, rest)
    | _, _, _, _ => .error fault
  | _ => .error fault

/-- The first half of a surrogate pair. -/
def isLeading (n : Nat) : Bool := 0xD800 ≤ n && n ≤ 0xDBFF

/-- The second half of a surrogate pair. -/
def isTrailing (n : Nat) : Bool := 0xDC00 ≤ n && n ≤ 0xDFFF

/-- The character that a surrogate pair stands for. -/
def joinSurrogates (leading trailing : Nat) : Char :=
  Char.ofNat (0x10000 + (leading - 0xD800) * 0x400 + (trailing - 0xDC00))

/-- The second half of a surrogate pair, with its escape, after the first. -/
def secondHalf (leading : Nat) (s : Input) : Read Char :=
  match s with
  | [] => .error (.before .endInString [])
  | c :: rest =>
    if c ≠ '\\' then .error (.after .brokenSurrogatePair s)
    else match rest with
      | [] => .error (.before .endInString [])
      | u :: quad =>
        if u ≠ 'u' then .error (.after .brokenSurrogatePair rest)
        else match hexQuad quad with
          | .error fault => .error fault
          | .ok (n, rest) =>
            if isTrailing n then .ok (joinSurrogates leading n, rest)
            else .error (.before .loneSurrogate rest)

/-- A character given by number, after the letter of the escape. -/
def numberedChar (s : Input) : Read Char :=
  match hexQuad s with
  | .error fault => .error fault
  | .ok (n, rest) =>
    if isTrailing n then .error (.before .loneSurrogate rest)
    else if isLeading n then secondHalf n rest
    else .ok (Char.ofNat n, rest)

/-- The character of an escape that is one letter long. -/
def letterEscape? (c : Char) : Option Char :=
  if c = '\"' then some '\"'
  else if c = '\\' then some '\\'
  else if c = '/' then some '/'
  else if c = 'b' then some '\x08'
  else if c = 'f' then some '\x0c'
  else if c = 'n' then some '\n'
  else if c = 'r' then some '\r'
  else if c = 't' then some '\t'
  else none

/-- An escape after its backslash. -/
def readEscape (s : Input) : Read Char :=
  match s with
  | [] => .error (.before .endInString [])
  | c :: rest =>
    match letterEscape? c with
    | some x => .ok (x, rest)
    | none => if c = 'u' then numberedChar rest else .error (.after .invalidEscape s)

/-- An escape after its backslash, in a string whose content is not wanted. -/
def skipEscape (s : Input) : Except Fault Input :=
  match s with
  | [] => .error (.before .endInString [])
  | c :: rest =>
    match letterEscape? c with
    | some _ => .ok rest
    | none =>
      if c = 'u' then (hexQuad rest).map Prod.snd else .error (.after .invalidEscape s)

theorem hexQuad_length {s r : Input} {n : Nat} (h : hexQuad s = .ok (n, r)) :
    r.length < s.length := by
  unfold hexQuad at h
  dsimp only at h
  split at h
  · split at h
    · injection h with h
      injection h with _ h
      subst h
      simp only [List.length_cons]; omega
    · simp at h
  · simp at h

theorem secondHalf_length {n : Nat} {s r : Input} {x : Char}
    (h : secondHalf n s = .ok (x, r)) : r.length < s.length := by
  unfold secondHalf at h
  split at h
  · simp at h
  · next c rest =>
    split at h
    · simp at h
    · split at h
      · simp at h
      · next u quad =>
        split at h
        · simp at h
        · split at h
          · simp at h
          · next m rest' hq =>
            split at h
            · injection h with h
              injection h with _ h
              subst h
              have := hexQuad_length hq
              simp only [List.length_cons]; omega
            · simp at h

theorem numberedChar_length {s r : Input} {x : Char} (h : numberedChar s = .ok (x, r)) :
    r.length < s.length := by
  unfold numberedChar at h
  split at h
  · simp at h
  · next n rest hq =>
    have hlt := hexQuad_length hq
    split at h
    · simp at h
    · split at h
      · exact Nat.lt_trans (secondHalf_length h) hlt
      · injection h with h
        injection h with _ h
        exact h ▸ hlt

theorem readEscape_length {s r : Input} {x : Char} (h : readEscape s = .ok (x, r)) :
    r.length < s.length := by
  unfold readEscape at h
  split at h
  · simp at h
  · next c rest =>
    split at h
    · injection h with h
      injection h with _ h
      subst h
      simp
    · split at h
      · exact Nat.lt_trans (numberedChar_length h) (Nat.lt_succ_self _)
      · simp at h

theorem skipEscape_length {s r : Input} (h : skipEscape s = .ok r) : r.length < s.length := by
  unfold skipEscape at h
  split at h
  · simp at h
  · next c rest =>
    split at h
    · injection h with h
      subst h
      simp
    · split at h
      · cases hq : hexQuad rest with
        | error f => rw [hq] at h; simp [Except.map] at h
        | ok p =>
          rw [hq] at h
          simp only [Except.map] at h
          injection h with h
          subst h
          exact Nat.lt_trans (hexQuad_length (n := p.1) hq) (Nat.lt_succ_self _)
      · simp at h

/-! ## Reading -/

/-- The content of a string after its opening quote, up to its closing one. -/
def readChars (s : Input) : Read (List Char) :=
  match s with
  | [] => .error (.before .endInString [])
  | c :: rest =>
    if c = '\"' then .ok ([], rest)
    else if c = '\\' then
      match _h : readEscape rest with
      | .error fault => .error fault
      | .ok (x, rest') => (readChars rest').map fun p => (x :: p.1, p.2)
    else if c.toNat < 0x20 then .error (.after .controlCharacter s)
    else (readChars rest).map fun p => (c :: p.1, p.2)
termination_by s.length
decreasing_by
  · have := readEscape_length _h
    simp only [List.length_cons]; omega
  · simp

/-- The input after a string whose opening quote has been read, when its content
is not wanted. -/
def skipChars (s : Input) : Except Fault Input :=
  match s with
  | [] => .error (.before .endInString [])
  | c :: rest =>
    if c = '\"' then .ok rest
    else if c = '\\' then
      match _h : skipEscape rest with
      | .error fault => .error fault
      | .ok rest' => skipChars rest'
    else if c.toNat < 0x20 then .error (.before .controlCharacter s)
    else skipChars rest
termination_by s.length
decreasing_by
  · have := skipEscape_length _h
    simp only [List.length_cons]; omega
  · simp

theorem readChars_length {s r : Input} {x : List Char} (h : readChars s = .ok (x, r)) :
    r.length < s.length := by
  fun_induction readChars s generalizing x with
  | case1 => simp at h
  | case2 rest =>
    injection h with h
    injection h with _ h
    subst h
    simp
  | case3 => simp at h
  | case4 rest y rest' he _ ih =>
    have hlt := readEscape_length he
    cases hr : readChars rest' with
    | error f => rw [hr] at h; simp [Except.map] at h
    | ok p =>
      rw [hr] at h
      simp only [Except.map] at h
      injection h with h
      injection h with _ h
      have := ih (x := p.1) (by rw [hr, ← h])
      simp only [List.length_cons]; omega
  | case5 => simp at h
  | case6 c rest _ _ _ ih =>
    cases hr : readChars rest with
    | error f => rw [hr] at h; simp [Except.map] at h
    | ok p =>
      rw [hr] at h
      simp only [Except.map] at h
      injection h with h
      injection h with _ h
      have := ih (x := p.1) (by rw [hr, ← h])
      simp only [List.length_cons]; omega

theorem skipChars_length {s r : Input} (h : skipChars s = .ok r) : r.length < s.length := by
  fun_induction skipChars s with
  | case1 => simp at h
  | case2 rest =>
    injection h with h
    subst h
    simp
  | case3 => simp at h
  | case4 rest rest' he _ ih =>
    have hlt := skipEscape_length he
    have := ih h
    simp only [List.length_cons]; omega
  | case5 => simp at h
  | case6 c rest _ _ _ ih =>
    have := ih h
    simp only [List.length_cons]; omega

end Json
end FluentBuilders
