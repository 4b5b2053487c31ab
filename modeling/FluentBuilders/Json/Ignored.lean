import FluentBuilders.Json.Quote
import FluentBuilders.Json.Number

/-! # Values that are skipped

The value of an unknown field may be any value of the data format, nested to any
depth.  It is checked and passed over by a machine with a stack of the lists and
objects that are still open, so its depth costs no recursion.
-/
namespace FluentBuilders
namespace Json

/-- A list or an object that is still open. -/
inductive Frame where
  | list
  | object
deriving DecidableEq, Repr

/-- The character that closes a frame. -/
def Frame.close : Frame → Char
  | .list => ']'
  | .object => '\x7d'

/-- What the end of the text means inside a frame. -/
def Frame.atEnd : Frame → Cause
  | .list => .endInList
  | .object => .endInObject

/-- What is wrong when neither a comma nor the end of the frame follows a value. -/
def Frame.unseparated : Frame → Cause
  | .list => .expectedCommaOrBracket
  | .object => .expectedCommaOrBrace

/-- What the machine is about to meet. -/
inductive Awaiting where
  /-- A value. -/
  | value
  /-- What comes first in the frame just opened. -/
  | content
  /-- What follows a value in the open frame. -/
  | separator
deriving DecidableEq, Repr

/-- Awaiting a value comes last when no character is consumed. -/
def Awaiting.rank : Awaiting → Nat
  | .value => 0
  | .content => 1
  | .separator => 1

/-- A literal word, a number or a string, given its first character and the
input after that. -/
def skipScalar (c : Char) (rest : Input) : Except Fault Input :=
  if c = 'n' then word ['u', 'l', 'l'] rest
  else if c = 't' then word ['r', 'u', 'e'] rest
  else if c = 'f' then word ['a', 'l', 's', 'e'] rest
  else if c = '-' then (number .invalidNumber true rest).map Prod.snd
  else if c.isDigit then (number .invalidNumber false (c :: rest)).map Prod.snd
  else if c = '\"' then skipChars rest
  else .error (.after .expectedValue (c :: rest))

/-- A key of an object and the colon after it. -/
def skipKey (s : Input) : Except Fault Input :=
  match skipSpace s with
  | [] => .error (.before .endInObject [])
  | c :: rest =>
    if c = '\"' then
      match skipChars rest with
      | .error fault => .error fault
      | .ok rest' => colon rest'
    else .error (.after .keyNotString (c :: rest))

theorem map_snd_ok {α : Type} {x : Read α} {r : Input} (h : x.map Prod.snd = .ok r) :
    ∃ a, x = .ok (a, r) := by
  cases x with
  | error f => simp [Except.map] at h
  | ok p =>
    simp only [Except.map] at h
    injection h with h
    exact ⟨p.1, by rw [← h]⟩

theorem skipScalar_length {c : Char} {rest r : Input} (h : skipScalar c rest = .ok r) :
    r.length < (c :: rest).length := by
  unfold skipScalar at h
  split at h
  · exact Nat.lt_succ_of_le (word_length h)
  · split at h
    · exact Nat.lt_succ_of_le (word_length h)
    · split at h
      · exact Nat.lt_succ_of_le (word_length h)
      · split at h
        · obtain ⟨n, hn⟩ := map_snd_ok h
          exact Nat.lt_succ_of_lt (number_length hn)
        · split at h
          · obtain ⟨n, hn⟩ := map_snd_ok h
            exact number_length hn
          · split at h
            · exact Nat.lt_succ_of_lt (skipChars_length h)
            · simp at h

theorem skipKey_length {s r : Input} (h : skipKey s = .ok r) : r.length < s.length := by
  have hs := skipSpace_length s
  unfold skipKey at h
  split at h
  · simp at h
  · next c rest heq =>
    rw [heq, List.length_cons] at hs
    split at h
    · split at h
      · simp at h
      · next rest' hk =>
        have h₁ := skipChars_length hk
        have h₂ := colon_length h
        omega
    · simp at h

theorem length_lt_of_skipSpace {s rest : Input} {c : Char} (h : skipSpace s = c :: rest) :
    rest.length < s.length := by
  have hs := skipSpace_length s
  rw [h, List.length_cons] at hs
  exact hs

/-- The input after everything that is still open has been closed.  With nothing
open and a value awaited, this passes over one value. -/
def skip (awaiting : Awaiting) (stack : List Frame) (s : Input) : Except Fault Input :=
  match awaiting with
  | .value =>
    match _hs : skipSpace s with
    | [] => .error (.before .endInValue [])
    | c :: rest =>
      if c = '[' then skip .content (.list :: stack) rest
      else if c = '\x7b' then skip .content (.object :: stack) rest
      else
        match _hc : skipScalar c rest with
        | .error fault => .error fault
        | .ok rest' => skip .separator stack rest'
  | .content =>
    match stack with
    | [] => .ok s
    | frame :: outer =>
      match _hs : skipSpace s with
      | [] => .error (.before frame.atEnd [])
      | c :: rest =>
        if c = frame.close then skip .separator outer rest
        else
          match frame with
          | .list => skip .value (.list :: outer) s
          | .object =>
            match _hk : skipKey s with
            | .error fault => .error fault
            | .ok rest' => skip .value (.object :: outer) rest'
  | .separator =>
    match stack with
    | [] => .ok s
    | frame :: outer =>
      match _hs : skipSpace s with
      | [] => .error (.before frame.atEnd [])
      | c :: rest =>
        if c = frame.close then skip .separator outer rest
        else if c = ',' then
          match frame with
          | .list => skip .value (.list :: outer) rest
          | .object =>
            match _hk : skipKey rest with
            | .error fault => .error fault
            | .ok rest' => skip .value (.object :: outer) rest'
        else .error (.after frame.unseparated (c :: rest))
termination_by (s.length, awaiting.rank)
decreasing_by
  · exact Prod.Lex.left _ _ (length_lt_of_skipSpace _hs)
  · exact Prod.Lex.left _ _ (length_lt_of_skipSpace _hs)
  · have h₁ := skipScalar_length _hc
    have h₂ := length_lt_of_skipSpace _hs
    refine Prod.Lex.left _ _ ?_
    rw [List.length_cons] at h₁; omega
  · exact Prod.Lex.left _ _ (length_lt_of_skipSpace _hs)
  · exact Prod.Lex.right _ (Nat.zero_lt_one)
  · exact Prod.Lex.left _ _ (skipKey_length _hk)
  · exact Prod.Lex.left _ _ (length_lt_of_skipSpace _hs)
  · exact Prod.Lex.left _ _ (length_lt_of_skipSpace _hs)
  · exact Prod.Lex.left _ _ (Nat.lt_trans (skipKey_length _hk) (length_lt_of_skipSpace _hs))

/-- Nothing is put back, and a value that was awaited has taken a character. -/
theorem skip_length {awaiting : Awaiting} {stack : List Frame} {s r : Input}
    (h : skip awaiting stack s = .ok r) :
    r.length + (1 - awaiting.rank) ≤ s.length := by
  fun_induction skip awaiting stack s with
  | case1 | case4 | case7 | case10 | case13 | case16 | case18 => simp at h
  | case6 | case12 =>
    injection h with h
    exact h ▸ Nat.le_refl _
  | case2 _ _ _ hs ih | case3 _ _ _ hs _ ih =>
    have h₁ := length_lt_of_skipSpace hs
    have h₂ := ih h
    simp only [Awaiting.rank] at h₂ ⊢
    omega
  | case5 _ _ _ _ hs _ _ _ hc ih =>
    have h₁ := length_lt_of_skipSpace hs
    have h₂ := skipScalar_length hc
    have h₃ := ih h
    simp only [Awaiting.rank, List.length_cons] at h₂ h₃ ⊢; omega
  | case8 _ _ _ _ hs ih | case14 _ _ _ _ hs ih | case15 _ _ _ hs _ ih =>
    have h₁ := length_lt_of_skipSpace hs
    have h₂ := ih h
    simp only [Awaiting.rank] at h₂ ⊢; omega
  | case9 _ _ _ _ _ _ ih =>
    have h₁ := ih h
    simp only [Awaiting.rank] at h₁ ⊢; omega
  | case11 _ _ _ _ _ _ hk _ ih =>
    have h₁ := skipKey_length hk
    have h₂ := ih h
    simp only [Awaiting.rank] at h₂ ⊢; omega
  | case17 _ _ _ _ hk hs _ ih =>
    have h₁ := skipKey_length hk
    have h₂ := length_lt_of_skipSpace hs
    have h₃ := ih h
    simp only [Awaiting.rank] at h₃ ⊢; omega

/-- Passes over one value. -/
def skipValue (s : Input) : Except Fault Input :=
  skip .value [] s

theorem skipValue_length {s r : Input} (h : skipValue s = .ok r) : r.length < s.length :=
  skip_length h

end Json
end FluentBuilders
