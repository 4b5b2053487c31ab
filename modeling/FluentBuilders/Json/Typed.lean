import FluentBuilders.Json.Quote
import FluentBuilders.Json.Number

/-! # Values of a wanted kind

Reading a string, an optional string or a list of strings.  A value of another
kind is a fault that describes what was met; a list or an object is described by
its first character alone, all else is read first, so that a fault inside it
takes precedence.
-/
namespace FluentBuilders
namespace Json

/-- The value at the start of an input, as it is described in a message. -/
def describe (s : Input) : Read Found :=
  match s with
  | [] => .error (.after .expectedValue [])
  | c :: rest =>
    if c = 'n' then (word ['u', 'l', 'l'] rest).map fun r => (.null, r)
    else if c = 't' then (word ['r', 'u', 'e'] rest).map fun r => (.boolean true, r)
    else if c = 'f' then (word ['a', 'l', 's', 'e'] rest).map fun r => (.boolean false, r)
    else if c = '-' then
      (number .endInValue true rest).bind fun p => (p.1.found p.2).map fun found => (found, p.2)
    else if c.isDigit then
      (number .endInValue false s).bind fun p => (p.1.found p.2).map fun found => (found, p.2)
    else if c = '\"' then (readChars rest).map fun p => (.text p.1, p.2)
    else if c = '[' then .ok (.sequence, s)
    else if c = '\x7b' then .ok (.mapping, s)
    else .error (.after .expectedValue s)

/-- The fault of a value that is not of the wanted kind. -/
def mismatch (expected : Expected) (s : Input) : Fault :=
  match describe s with
  | .error fault => fault
  | .ok (found, rest) => .before (.wrongType found expected) rest

/-- A string. -/
def readText (s : Input) : Read String :=
  match skipSpace s with
  | [] => .error (.before .endInValue [])
  | c :: rest =>
    if c = '\"' then (readChars rest).map fun p => (String.ofList p.1, p.2)
    else .error (mismatch .text (c :: rest))

/-- A string or nothing. -/
def readOptionalText (s : Input) : Read (Option String) :=
  match skipSpace s with
  | [] => .error (.before .endInValue [])
  | c :: rest =>
    if c = 'n' then (word ['u', 'l', 'l'] rest).map fun r => (none, r)
    else (readText (c :: rest)).map fun p => (some p.1, p.2)

/-- Moves to the next item of a list: whether there is one, and the input at its
start or after the end of the list. -/
def nextItem (first : Bool) (s : Input) : Read Bool :=
  match skipSpace s with
  | [] => .error (.before .endInList [])
  | c :: rest =>
    if c = ']' then .ok (false, rest)
    else if first then .ok (true, c :: rest)
    else if c = ',' then
      match skipSpace rest with
      | [] => .error (.before .endInValue [])
      | d :: rest' =>
        if d = ']' then .error (.after .trailingComma (d :: rest')) else .ok (true, d :: rest')
    else .error (.after .expectedCommaOrBracket (c :: rest))

/-- The end of a list that must not have another item. -/
def endOfList (s : Input) : Except Fault Input :=
  match skipSpace s with
  | [] => .error (.before .endInList [])
  | c :: rest =>
    if c = ']' then .ok rest
    else if c = ',' then
      match skipSpace rest with
      | [] => .error (.before .trailingCharacters [])
      | d :: rest' =>
        .error (.after (if d = ']' then .trailingComma else .trailingCharacters) (d :: rest'))
    else .error (.after .trailingCharacters (c :: rest))

theorem map_ok {α β : Type} {x : Read α} {f : α × Input → β × Input} {y : β} {r : Input}
    (h : x.map f = .ok (y, r)) : ∃ p, x = .ok p ∧ f p = (y, r) := by
  cases x with
  | error e => simp [Except.map] at h
  | ok p => exact ⟨p, rfl, by simpa [Except.map] using h⟩

theorem readText_length {s r : Input} {x : String} (h : readText s = .ok (x, r)) :
    r.length < s.length := by
  have hs := skipSpace_length s
  unfold readText at h
  split at h
  · simp at h
  · next c rest heq =>
    rw [heq, List.length_cons] at hs
    split at h
    · obtain ⟨⟨y, r'⟩, hp, hf⟩ := map_ok h
      have hr := readChars_length hp
      injection hf with _ hf
      dsimp only at hf
      subst hf
      omega
    · simp at h

theorem readOptionalText_length {s r : Input} {x : Option String}
    (h : readOptionalText s = .ok (x, r)) : r.length < s.length := by
  have hs := skipSpace_length s
  unfold readOptionalText at h
  split at h
  · simp at h
  · next c rest heq =>
    rw [heq, List.length_cons] at hs
    split at h
    · cases hw : word ['u', 'l', 'l'] rest with
      | error e => rw [hw] at h; simp [Except.map] at h
      | ok r' =>
        rw [hw] at h
        simp only [Except.map] at h
        injection h with h
        injection h with _ h
        have := word_length hw
        subst h
        omega
    · obtain ⟨⟨y, r'⟩, hp, hf⟩ := map_ok h
      have hr := readText_length hp
      injection hf with _ hf
      dsimp only at hf
      subst hf
      rw [List.length_cons] at hr
      omega

theorem nextItem_length {first more : Bool} {s r : Input} (h : nextItem first s = .ok (more, r)) :
    r.length ≤ s.length := by
  have hs := skipSpace_length s
  unfold nextItem at h
  split at h
  · simp at h
  · next c rest heq =>
    rw [heq, List.length_cons] at hs
    split at h
    · injection h with h
      injection h with _ h
      subst h
      omega
    · split at h
      · injection h with h
        injection h with _ h
        subst h
        rw [List.length_cons]; exact hs
      · split at h
        · have hr := skipSpace_length rest
          split at h
          · simp at h
          · next d rest' heq' =>
            rw [heq'] at hr
            split at h
            · simp at h
            · injection h with h
              injection h with _ h
              subst h
              omega
        · simp at h

/-- The end of a list takes a character. -/
theorem nextItem_length_lt {first : Bool} {s r : Input} (h : nextItem first s = .ok (false, r)) :
    r.length < s.length := by
  have hs := skipSpace_length s
  unfold nextItem at h
  split at h
  · simp at h
  · next c rest heq =>
    rw [heq, List.length_cons] at hs
    split at h
    · injection h with h
      injection h with _ h
      subst h
      omega
    · split at h
      · simp at h
      · split at h
        · split at h
          · simp at h
          · split at h <;> simp at h
        · simp at h

/-- The strings of a list, from the place after its opening bracket or after an
item. -/
def readItems (first : Bool) (s : Input) : Read (List String) :=
  match _hn : nextItem first s with
  | .error fault => .error fault
  | .ok (false, rest) => .ok ([], rest)
  | .ok (true, rest) =>
    match _hx : readText rest with
    | .error fault => .error fault
    | .ok (x, rest') => (readItems false rest').map fun p => (x :: p.1, p.2)
termination_by s.length
decreasing_by exact Nat.lt_of_lt_of_le (readText_length _hx) (nextItem_length _hn)

/-- A list of strings. -/
def readTexts (s : Input) : Read (List String) :=
  match skipSpace s with
  | [] => .error (.before .endInValue [])
  | c :: rest =>
    if c = '[' then readItems true rest else .error (mismatch .sequence (c :: rest))

theorem readItems_length {first : Bool} {s r : Input} {xs : List String}
    (h : readItems first s = .ok (xs, r)) : r.length < s.length := by
  fun_induction readItems first s generalizing xs with
  | case1 => simp at h
  | case2 first s rest hn =>
    injection h with h
    injection h with _ h
    subst h
    exact nextItem_length_lt hn
  | case3 => simp at h
  | case4 first s rest hn x rest' hx ih =>
    obtain ⟨⟨ys, r'⟩, hp, hf⟩ := map_ok h
    injection hf with _ hf
    dsimp only at hf
    subst hf
    have h₁ := ih hp
    have h₂ := readText_length hx
    have h₃ := nextItem_length hn
    omega

theorem readTexts_length {s r : Input} {xs : List String} (h : readTexts s = .ok (xs, r)) :
    r.length < s.length := by
  have hs := skipSpace_length s
  unfold readTexts at h
  split at h
  · simp at h
  · next c rest heq =>
    rw [heq, List.length_cons] at hs
    split at h
    · have hr := readItems_length h
      omega
    · simp at h

end Json
end FluentBuilders
