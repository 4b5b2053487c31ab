import FluentBuilders.Diagnostic

/-! # Setters

A setter is a tagged element with exactly one parameter whose name starts as the
naming rules demand.  Sifting splits a list of elements into setters and
rejections, each in the order of the input; no element is lost
(`sift_accepted`, `sift_rejected`).
-/
namespace FluentBuilders

/-- A tagged element with one parameter and an admitted name. -/
structure Setter where
  owner : String
  name : String
  /-- The type of the parameter. -/
  parameter : String
deriving DecidableEq, Repr

/-- A tagged element that is no setter, with what is reported about it. -/
structure Rejection where
  element : Element
  message : String
deriving DecidableEq, Repr

/-- What sifting makes of a list of elements. -/
structure Sifted where
  accepted : List Setter
  rejected : List Rejection
deriving DecidableEq, Repr

/-- The message about every element that is no setter. -/
def rejectionMessage : String :=
  "annotated setter must have a single argument and a name beginning with the configured prefix"

/-- The diagnostic of a rejection. -/
def Rejection.diagnostic (r : Rejection) : Diagnostic :=
  ⟨.error, r.message, r.element⟩

namespace Element

/-- Whether the name of an element starts with a text, letter by letter. -/
def nameStartsWith (e : Element) (namePrefix : String) : Bool :=
  namePrefix.toList.isPrefixOf e.name.toList

/-- Whether an element is a setter. -/
def isSetter (e : Element) (namePrefix : String) : Bool :=
  e.parameters.length == 1 && e.nameStartsWith namePrefix

/-- The setter that an element is, if it is one. -/
def setter? (e : Element) (namePrefix : String) : Option Setter :=
  match e.parameters with
  | [parameter] =>
    if e.nameStartsWith namePrefix then some ⟨e.owner, e.name, parameter⟩ else none
  | _ => none

/-- The rejection of an element. -/
def reject (e : Element) : Rejection := ⟨e, rejectionMessage⟩

theorem isSome_setter? (e : Element) (namePrefix : String) :
    (e.setter? namePrefix).isSome = e.isSetter namePrefix := by
  unfold setter? isSetter
  split
  · next p hp =>
    rw [hp]
    cases e.nameStartsWith namePrefix <;> rfl
  · next hne =>
    have hlen : (e.parameters.length == 1) = false := by
      rw [beq_eq_false_iff_ne]
      intro hl
      obtain ⟨p, hp⟩ := List.length_eq_one_iff.mp hl
      exact hne p hp
    rw [hlen]
    rfl

end Element

/-- The setters and the rejections of a list of elements. -/
def sift (namePrefix : String) : List Element → Sifted
  | [] => ⟨[], []⟩
  | e :: es =>
    let rest := sift namePrefix es
    match e.setter? namePrefix with
    | some m => { rest with accepted := m :: rest.accepted }
    | none => { rest with rejected := e.reject :: rest.rejected }

theorem sift_accepted (namePrefix : String) (es : List Element) :
    (sift namePrefix es).accepted = es.filterMap fun e => e.setter? namePrefix := by
  induction es with
  | nil => rfl
  | cons e es ih =>
    rw [sift]
    cases h : e.setter? namePrefix with
    | some m => simp [h, ih]
    | none => simp [h, ih]

theorem sift_rejected (namePrefix : String) (es : List Element) :
    (sift namePrefix es).rejected =
      (es.filter fun e => !e.isSetter namePrefix).map Element.reject := by
  induction es with
  | nil => rfl
  | cons e es ih =>
    have hs := e.isSome_setter? namePrefix
    rw [sift]
    cases h : e.setter? namePrefix with
    | some m =>
      rw [h] at hs
      simp [← hs, ih]
    | none =>
      rw [h] at hs
      simp [← hs, ih]

end FluentBuilders
