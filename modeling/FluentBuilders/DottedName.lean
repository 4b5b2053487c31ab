/-! # Dotted names

The full name of a type is its package and its simple name joined by dots.  An
owner has to be well formed: it is not empty and has no empty segment.  The name
of a written source is only cut at its last dot and never refused.
-/
namespace FluentBuilders

/-- What is wrong with the name of an owner. -/
inductive NameFault where
  | empty
  | emptySegment
deriving DecidableEq, Repr

/-- The wording of a fault. -/
def NameFault.reason : NameFault → String
  | .empty => "name is empty"
  | .emptySegment => "name contains an empty segment"

/-- An owner whose name is not well formed. -/
structure OwnerError where
  owner : String
  fault : NameFault
deriving DecidableEq, Repr

/-- The wording of the error. -/
def OwnerError.message (e : OwnerError) : String :=
  "Malformed owner type name '" ++ e.owner ++ "': " ++ e.fault.reason

/-- A name as its package, if it has one, and its simple name. -/
structure TypeName where
  package : Option String
  simple : String
deriving DecidableEq, Repr

namespace DottedName

/-- The parts of a name between its dots. -/
def segments (name : List Char) : List (List Char) :=
  name.splitOn '.'

/-- A name cut at its last dot. -/
def splitLast? : List Char → Option (List Char × List Char)
  | [] => none
  | c :: rest =>
    match splitLast? rest with
    | some (front, back) => some (c :: front, back)
    | none => if c = '.' then some ([], rest) else none

@[simp] theorem splitLast?_nil : splitLast? [] = none := rfl

/-- A cut loses the dot and nothing else. -/
theorem eq_of_splitLast? {s a b : List Char} (h : splitLast? s = some (a, b)) :
    s = a ++ '.' :: b := by
  induction s generalizing a with
  | nil => simp at h
  | cons c rest ih =>
    rw [splitLast?] at h
    split at h
    · next front back hr =>
      injection h with h
      injection h with h₁ h₂
      subst h₁ h₂
      rw [ih hr, List.cons_append]
    · split at h
      · next hc =>
        injection h with h
        injection h with h₁ h₂
        subst h₁ h₂ hc
        rfl
      · simp at h

/-- A name that cannot be cut has no dot. -/
theorem splitLast?_eq_none_iff {s : List Char} : splitLast? s = none ↔ '.' ∉ s := by
  induction s with
  | nil => simp
  | cons c rest ih =>
    rw [splitLast?, List.mem_cons, not_or]
    constructor
    · intro h
      split at h
      · simp at h
      · next hr =>
        refine ⟨fun hc => ?_, ih.mp hr⟩
        rw [if_pos hc.symm] at h
        simp at h
    · intro ⟨hc, hrest⟩
      rw [ih.mpr hrest]
      exact if_neg fun h => hc h.symm

/-- What follows the last dot has none. -/
theorem not_mem_of_splitLast? {s a b : List Char} (h : splitLast? s = some (a, b)) :
    '.' ∉ b := by
  induction s generalizing a with
  | nil => simp at h
  | cons c rest ih =>
    rw [splitLast?] at h
    split at h
    · next front back hr =>
      injection h with h
      injection h with _ h₂
      subst h₂
      exact ih hr
    · next hr =>
      split at h
      · injection h with h
        injection h with _ h₂
        subst h₂
        exact splitLast?_eq_none_iff.mp hr
      · simp at h

/-- A name cut at its last dot; all of it is the simple name when it has none. -/
def cut (name : String) : TypeName :=
  match splitLast? name.toList with
  | some (front, back) => ⟨some (String.ofList front), String.ofList back⟩
  | none => ⟨none, name⟩

/-- The parts of a well-formed owner. -/
def ofOwner (owner : String) : Except OwnerError TypeName :=
  if owner.toList = [] then .error ⟨owner, .empty⟩
  else if (segments owner.toList).any List.isEmpty then .error ⟨owner, .emptySegment⟩
  else .ok (cut owner)

/-- A well-formed owner is cut like any other name. -/
theorem cut_of_ofOwner {owner : String} {t : TypeName} (h : ofOwner owner = .ok t) :
    cut owner = t := by
  unfold ofOwner at h
  split at h
  · simp at h
  · split at h
    · simp at h
    · injection h

end DottedName

/-- The full name that a package and a simple name make up. -/
def TypeName.full (t : TypeName) : String :=
  match t.package with
  | some package => package ++ "." ++ t.simple
  | none => t.simple

end FluentBuilders
