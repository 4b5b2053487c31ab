import FluentBuilders.DottedName

/-! # Paths of sources

The source of a type lies in a directory for each segment of its package, in a
file named for the type.  Every segment has to be a plain component of a path,
so that the source lies below the directory it is placed in.
-/
namespace FluentBuilders

/-- Why a name has no path. -/
inductive PathFault where
  /-- A segment that is empty or holds a separator. -/
  | notPlain (target segment : String)
  /-- An extension that holds a separator. -/
  | separatorInExtension
deriving DecidableEq, Repr

/-- The wording of a fault, where it has one. -/
def PathFault.message? : PathFault → Option String
  | .notPlain target segment =>
    some ("type name '" ++ target ++ "' has segment '" ++ segment ++
      "' that is not a plain path component")
  | .separatorInExtension => none

namespace SourcePath

/-- A segment that can be a component of a path.  It cannot be one of the two
special components, since a segment holds no dot. -/
def isPlain (segment : List Char) : Bool :=
  !segment.isEmpty && !segment.contains '/'

/-- The segments of a name, all of them plain. -/
def components (target : String) : Except PathFault (List String) :=
  let segments := DottedName.segments target.toList
  match segments.find? fun segment => !isPlain segment with
  | some segment => .error (.notPlain target (String.ofList segment))
  | none => .ok (segments.map String.ofList)

/-- Adds an extension to the last component; an empty one is not added. -/
def withExtension (extension : String) : List String → List String
  | [] => []
  | [file] => [if extension = "" then file else file ++ "." ++ extension]
  | directory :: rest => directory :: withExtension extension rest

/-- The components of the path of a source. -/
def relative (target extension : String) : Except PathFault (List String) :=
  match components target with
  | .error fault => .error fault
  | .ok names =>
    if extension.toList.contains '/' then .error .separatorInExtension
    else .ok (withExtension extension names)

/-- The text of a path. -/
def text (names : List String) : String :=
  String.intercalate "/" names

theorem components_eq_ok_iff {target : String} {names : List String} :
    components target = .ok names ↔
      (∀ s ∈ DottedName.segments target.toList, isPlain s = true) ∧
        names = (DottedName.segments target.toList).map String.ofList := by
  unfold components
  dsimp only
  split
  · next s hs =>
    have hmem := List.mem_of_find?_eq_some hs
    have hbad : isPlain s = false := by simpa using List.find?_some hs
    refine ⟨fun h => by simp at h, fun h => ?_⟩
    have := h.1 s hmem
    rw [hbad] at this
    simp at this
  · next hs =>
    have hall : ∀ s ∈ DottedName.segments target.toList, isPlain s = true := by
      simpa using hs
    refine ⟨fun h => ⟨hall, ?_⟩, fun h => by rw [h.2]⟩
    injection h with h
    exact h.symm

end SourcePath
end FluentBuilders
