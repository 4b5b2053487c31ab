import FluentBuilders.Json.Fault

/-! # The small tokens

Blanks between tokens, literal words, digits and single structural characters.
Only four characters may stand between tokens.
-/
namespace FluentBuilders
namespace Json

/-- The blanks allowed between tokens. -/
def isSpace (c : Char) : Bool :=
  c = ' ' || c = '\n' || c = '\t' || c = '\r'

/-- The input after the blanks at its start. -/
def skipSpace (s : Input) : Input :=
  s.dropWhile isSpace

theorem skipSpace_length (s : Input) : (skipSpace s).length ≤ s.length :=
  (List.dropWhile_suffix isSpace).length_le

/-- The rest of a literal word whose first letter has been read. -/
def word : List Char → Input → Except Fault Input
  | [], s => .ok s
  | _ :: _, [] => .error (.before .endInValue [])
  | e :: es, c :: s => if c = e then word es s else .error (.after .unknownWord (c :: s))

theorem word_ok {w : List Char} {s r : Input} (h : word w s = .ok r) : s = w ++ r := by
  induction w generalizing s with
  | nil => simpa [word] using h
  | cons e es ih =>
    cases s with
    | nil => simp [word] at h
    | cons c s =>
      rw [word] at h
      split at h
      · next hc => rw [hc, ih h]; rfl
      · simp at h

theorem word_append (w : List Char) (r : Input) : word w (w ++ r) = .ok r := by
  induction w with
  | nil => rfl
  | cons e es ih => simpa [word] using ih

theorem word_length {w : List Char} {s r : Input} (h : word w s = .ok r) :
    r.length ≤ s.length := by
  rw [word_ok h]; simp

/-- The digits at the start of an input. -/
def digits (s : Input) : List Char :=
  s.takeWhile Char.isDigit

/-- The input after the digits at its start. -/
def afterDigits (s : Input) : Input :=
  s.dropWhile Char.isDigit

theorem digits_append_afterDigits (s : Input) : digits s ++ afterDigits s = s :=
  List.takeWhile_append_dropWhile

theorem afterDigits_length (s : Input) : (afterDigits s).length ≤ s.length :=
  (List.dropWhile_suffix Char.isDigit).length_le

/-- The colon between a key and its value. -/
def colon (s : Input) : Except Fault Input :=
  match skipSpace s with
  | [] => .error (.before .endInObject [])
  | c :: rest => if c = ':' then .ok rest else .error (.after .expectedColon (c :: rest))

theorem colon_length {s r : Input} (h : colon s = .ok r) : r.length < s.length := by
  have hs := skipSpace_length s
  unfold colon at h
  split at h
  · simp at h
  · next c rest heq =>
    rw [heq] at hs
    split at h
    · injection h with h
      subst h
      exact Nat.lt_of_succ_le hs
    · simp at h

end Json
end FluentBuilders
