import FluentBuilders.Diagnostic
import FluentBuilders.Json.Ignored
import FluentBuilders.Json.Typed

/-! # Reading elements

An element is written as an object, whose members come in any order and may
include unknown ones, or as a list of its fields in order.  The owner and the
name are required; no parameters and no location are the defaults.
-/
namespace FluentBuilders
open Json

/-- A field of an element. -/
inductive Field where
  | owner
  | name
  | parameters
  | location
deriving DecidableEq, Repr

/-- The key of a field. -/
def Field.key : Field → String
  | .owner => "owner"
  | .name => "name"
  | .parameters => "parameters"
  | .location => "location"

/-- The field with a given key. -/
def Field.ofKey? (key : List Char) : Option Field :=
  [Field.owner, Field.name, Field.parameters, Field.location].find? fun f => f.key.toList = key

/-- The fields read so far.  A location that was given as nothing differs from
one that was not given. -/
structure Draft where
  owner : Option String
  name : Option String
  parameters : Option (List String)
  location : Option (Option String)
deriving DecidableEq, Repr

namespace Draft

/-- No field has been read. -/
def empty : Draft := ⟨none, none, none, none⟩

/-- Whether a field has been read. -/
def has (d : Draft) : Field → Bool
  | .owner => d.owner.isSome
  | .name => d.name.isSome
  | .parameters => d.parameters.isSome
  | .location => d.location.isSome

/-- Reads the value of a field into a draft. -/
def read (d : Draft) (f : Field) (s : Input) : Read Draft :=
  match f with
  | .owner => (readText s).map fun p => ({ d with owner := some p.1 }, p.2)
  | .name => (readText s).map fun p => ({ d with name := some p.1 }, p.2)
  | .parameters => (readTexts s).map fun p => ({ d with parameters := some p.1 }, p.2)
  | .location => (readOptionalText s).map fun p => ({ d with location := some p.1 }, p.2)

theorem read_length {d d' : Draft} {f : Field} {s r : Input} (h : d.read f s = .ok (d', r)) :
    r.length < s.length := by
  cases f with
  | owner | name =>
    obtain ⟨⟨y, r'⟩, hp, hf⟩ := map_ok h
    injection hf with _ hf
    exact hf ▸ readText_length hp
  | parameters =>
    obtain ⟨⟨y, r'⟩, hp, hf⟩ := map_ok h
    injection hf with _ hf
    exact hf ▸ readTexts_length hp
  | location =>
    obtain ⟨⟨y, r'⟩, hp, hf⟩ := map_ok h
    injection hf with _ hf
    exact hf ▸ readOptionalText_length hp

/-- The element of a draft, or the first required field it lacks. -/
def element (d : Draft) : Except Field Element :=
  match d.owner, d.name with
  | none, _ => .error .owner
  | some _, none => .error .name
  | some owner, some name => .ok ⟨owner, name, d.parameters.getD [], d.location.getD none⟩

end Draft

/-! ## Objects -/

/-- Moves to the next member of an object: whether there is one, and the input
at its start or after the end of the object. -/
def nextMember (first : Bool) (s : Input) : Read Bool :=
  match skipSpace s with
  | [] => .error (.before .endInObject [])
  | c :: rest =>
    if c = '\x7d' then .ok (false, rest)
    else if first then .ok (true, c :: rest)
    else if c = ',' then
      match skipSpace rest with
      | [] => .error (.before .endInValue [])
      | d :: rest' =>
        if d = '\x7d' then .error (.after .trailingComma (d :: rest')) else .ok (true, d :: rest')
    else .error (.after .expectedCommaOrBrace (c :: rest))

/-- A key, which no blank precedes. -/
def readKey (s : Input) : Read (List Char) :=
  match s with
  | [] => .error (.after .keyNotString [])
  | c :: rest => if c = '\"' then readChars rest else .error (.after .keyNotString s)

/-- The fault of a field that is given twice.  It is noticed behind the second
key, and behind a closing brace when one follows at once. -/
def duplicate (f : Field) (s : Input) : Fault :=
  match skipSpace s with
  | [] => .before (.duplicateField f.key) []
  | c :: rest =>
    .before (.duplicateField f.key) (if c = '\x7d' then rest else c :: rest)

/-- The value of a member, given its key: a field is read, anything else is
passed over. -/
def readMember (d : Draft) (key : List Char) (s : Input) : Read Draft :=
  match Field.ofKey? key with
  | some f =>
    if d.has f then .error (duplicate f s)
    else (colon s).bind fun rest => d.read f rest
  | none => (colon s).bind fun rest => (skipValue rest).map fun rest' => (d, rest')

theorem nextMember_length {first more : Bool} {s r : Input}
    (h : nextMember first s = .ok (more, r)) : r.length ≤ s.length := by
  have hs := skipSpace_length s
  unfold nextMember at h
  split at h
  · simp at h
  · next c rest heq =>
    rw [heq, List.length_cons] at hs
    split at h
    · injection h with h
      injection h with _ h
      subst h
      omega
    · split at h
      · injection h with h
        injection h with _ h
        subst h
        rw [List.length_cons]; exact hs
      · split at h
        · have hr := skipSpace_length rest
          split at h
          · simp at h
          · next d rest' heq' =>
            rw [heq'] at hr
            split at h
            · simp at h
            · injection h with h
              injection h with _ h
              subst h
              omega
        · simp at h

theorem readKey_length {s r : Input} {k : List Char} (h : readKey s = .ok (k, r)) :
    r.length < s.length := by
  unfold readKey at h
  split at h
  · simp at h
  · next c rest =>
    split at h
    · exact Nat.lt_succ_of_lt (readChars_length h)
    · simp at h

theorem readMember_length {d d' : Draft} {k : List Char} {s r : Input}
    (h : readMember d k s = .ok (d', r)) : r.length < s.length := by
  unfold readMember at h
  split at h
  · split at h
    · simp at h
    · cases hc : colon s with
      | error e => rw [hc] at h; simp [Except.bind] at h
      | ok rest =>
        rw [hc] at h
        exact Nat.lt_trans (Draft.read_length h) (colon_length hc)
  · cases hc : colon s with
    | error e => rw [hc] at h; simp [Except.bind] at h
    | ok rest =>
      rw [hc] at h
      cases hv : skipValue rest with
      | error e => simp [Except.bind, hv, Except.map] at h
      | ok rest' =>
        simp only [Except.bind, hv, Except.map] at h
        injection h with h
        injection h with _ h
        subst h
        exact Nat.lt_trans (skipValue_length hv) (colon_length hc)

/-- The members of an object, from the place after its opening brace or after a
member. -/
def readMembers (first : Bool) (d : Draft) (s : Input) : Read Draft :=
  match _hn : nextMember first s with
  | .error fault => .error fault
  | .ok (false, rest) => .ok (d, rest)
  | .ok (true, rest) =>
    match _hk : readKey rest with
    | .error fault => .error fault
    | .ok (key, rest') =>
      match _hm : readMember d key rest' with
      | .error fault => .error fault
      | .ok (d', rest'') => readMembers false d' rest''
termination_by s.length
decreasing_by
  exact Nat.lt_trans (readMember_length _hm)
    (Nat.lt_of_lt_of_le (readKey_length _hk) (nextMember_length _hn))

/-- An element as an object whose opening brace has been read. -/
def readObject (s : Input) : Read Element :=
  (readMembers true .empty s).bind fun p =>
    match p.1.element with
    | .ok e => .ok (e, p.2)
    | .error f => .error (.before (.missingField f.key) p.2)

/-! ## Lists -/

/-- The fields of a list, in order, as far as they are given: how many there
were, and the input behind the list when it ended early. -/
def readFields (fields : List Field) (first : Bool) (d : Draft) (count : Nat) (s : Input) :
    Except Fault (Draft × Nat × Input) :=
  match fields with
  | [] => (endOfList s).map fun rest => (d, count, rest)
  | f :: fs =>
    match nextItem first s with
    | .error fault => .error fault
    | .ok (false, rest) => .ok (d, count, rest)
    | .ok (true, rest) =>
      match d.read f rest with
      | .error fault => .error fault
      | .ok (d', rest') => readFields fs false d' (count + 1) rest'

/-- An element as a list whose opening bracket has been read. -/
def readList (s : Input) : Read Element :=
  (readFields [.owner, .name, .parameters, .location] true .empty 0 s).bind fun p =>
    match p.1.element with
    | .ok e => .ok (e, p.2.2)
    | .error _ => .error (.before (.tooFewItems p.2.1) p.2.2)

/-! ## Whole texts -/

/-- Nothing but blanks may follow a value. -/
def finish {α : Type} (read : Read α) : Except Fault α :=
  match read with
  | .error fault => .error fault
  | .ok (x, rest) =>
    match skipSpace rest with
    | [] => .ok x
    | c :: rest' => .error (.after .trailingCharacters (c :: rest'))

/-- The element that a text holds. -/
def readElement (s : Input) : Except Fault Element :=
  match skipSpace s with
  | [] => .error (.before .endInValue [])
  | c :: rest =>
    if c = '[' then finish (readList rest)
    else if c = '\x7b' then finish (readObject rest)
    else .error (mismatch .element (c :: rest))

/-- Reads one element and nothing else. -/
def Element.ofText (text : Input) : Except Complaint Element :=
  (readElement text).mapError fun fault => fault.complaint text

/-! ## Severities -/

/-- The name of a severity after its opening quote. -/
def readVariant (s : Input) : Read Severity :=
  match readChars s with
  | .error fault => .error fault
  | .ok (name, rest) =>
    if name = Severity.error.label.toList then .ok (.error, rest)
    else .error (.before (.unknownVariant (String.ofList name)) rest)

/-- A severity as an object whose opening brace has been read: its name as the
only key, with nothing as the value. -/
def readVariantObject (s : Input) : Read Severity :=
  match skipSpace s with
  | [] => .error (.before .endInObject [])
  | c :: rest =>
    if c = '\x7d' then .error (.after .expectedValue (c :: rest))
    else if c = '\"' then
      (readVariant rest).bind fun p =>
        (colon p.2).bind fun s₁ =>
          match skipSpace s₁ with
          | [] => .error (.before .endInValue [])
          | d :: s₂ =>
            if d = 'n' then
              (word ['u', 'l', 'l'] s₂).bind fun s₃ =>
                match skipSpace s₃ with
                | [] => .error (.before .endInObject [])
                | e :: s₄ =>
                  if e = '\x7d' then .ok (p.1, s₄)
                  else .error (.before .expectedValue (e :: s₄))
            else .error (mismatch .nothing (d :: s₂))
    else .error (.after .keyNotString (c :: rest))

/-- The severity that a text holds. -/
def readSeverity (s : Input) : Except Fault Severity :=
  match skipSpace s with
  | [] => .error (.before .endInValue [])
  | c :: rest =>
    if c = '\"' then finish (readVariant rest)
    else if c = '\x7b' then finish (readVariantObject rest)
    else .error (.after .expectedValue (c :: rest))

/-- Reads one severity and nothing else. -/
def Severity.ofText (text : Input) : Except Complaint Severity :=
  (readSeverity text).mapError fun fault => fault.complaint text

end FluentBuilders
