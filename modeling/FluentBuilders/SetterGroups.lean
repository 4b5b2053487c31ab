import Std.Data.HashMap
import FluentBuilders.Members
import FluentBuilders.Setter

/-! # Setters by owner

The setters of one owner form a group; groups are listed in the order in which
their owners were first seen.  An index from owners to positions makes looking
up a group independent of the number of groups.
-/
namespace FluentBuilders

/-- The setters of one owner. -/
structure SetterGroup where
  owner : String
  members : Members
deriving DecidableEq

/-- A group with one more setter; a later one with the same name replaces the
earlier one. -/
def SetterGroup.insert (g : SetterGroup) (s : Setter) : SetterGroup :=
  { g with members := g.members.insert s.name s.parameter }

/-- A setter that took the place of an earlier one of the same name. -/
structure Replacement where
  owner : String
  method : String
  /-- The parameter type so far. -/
  previous : String
  /-- The parameter type from now on. -/
  current : String
deriving DecidableEq, Repr

/-- Groups in first-seen order, with the position of each owner. -/
structure SetterGroups where
  groups : Array SetterGroup
  index : Std.HashMap String Nat

namespace SetterGroups

/-- No groups. -/
def empty : SetterGroups := ⟨#[], ∅⟩

/-- The group of an owner. -/
def get? (gs : SetterGroups) (owner : String) : Option SetterGroup :=
  gs.index[owner]?.bind fun i => gs.groups[i]?

/-- The number of groups. -/
def size (gs : SetterGroups) : Nat :=
  gs.groups.size

/-- Whether there is no group. -/
def isEmpty (gs : SetterGroups) : Bool :=
  gs.groups.isEmpty

/-- The groups in first-seen order. -/
def toList (gs : SetterGroups) : List SetterGroup :=
  gs.groups.toList

/-- The owners in first-seen order. -/
def owners (gs : SetterGroups) : List String :=
  gs.toList.map SetterGroup.owner

/-- Puts a setter into the group of its owner, which is opened at the end when
there is none. -/
def insert (gs : SetterGroups) (s : Setter) : SetterGroups :=
  match gs.index[s.owner]? with
  | some i => { gs with groups := gs.groups.modify i fun g => g.insert s }
  | none =>
    { groups := gs.groups.push ((SetterGroup.mk s.owner .empty).insert s)
      index := gs.index.insert s.owner gs.groups.size }

/-- What a setter replaces when it is inserted. -/
def replacement? (gs : SetterGroups) (s : Setter) : Option Replacement :=
  (gs.get? s.owner).bind fun g =>
    (g.members.get? s.name).map fun previous => ⟨s.owner, s.name, previous, s.parameter⟩

/-- Groups with a list of setters put in, in order. -/
def insertAll (gs : SetterGroups) (setters : List Setter) : SetterGroups :=
  setters.foldl insert gs

/-- The replacements that happen while a list of setters is put in. -/
def replacements (gs : SetterGroups) : List Setter → List Replacement
  | [] => []
  | s :: rest => (gs.replacement? s).toList ++ replacements (gs.insert s) rest

/-- The groups of a list of setters. -/
def ofList (setters : List Setter) : SetterGroups :=
  empty.insertAll setters

theorem insertAll_append (gs : SetterGroups) (xs ys : List Setter) :
    gs.insertAll (xs ++ ys) = (gs.insertAll xs).insertAll ys :=
  List.foldl_append

end SetterGroups
end FluentBuilders
