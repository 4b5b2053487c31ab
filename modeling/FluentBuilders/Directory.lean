import FluentBuilders.Destination
import FluentBuilders.FileSystem

/-! # Directories as destinations

A destination that keeps each source unit in a file below a root.  The name of
the unit decides the path; the directories of its package are made when they are
missing, and an earlier file of the same unit is replaced as a whole or not at
all.  A unit whose name has no path changes nothing
(`destination_of_path_error`).
-/
namespace FluentBuilders

namespace Directory

/-- The extension of the file of a unit. -/
def sourceExtension : String := "java"

/-- The components of the path of a unit, below the root. -/
def components (target : String) : Except PathFault (List String) :=
  SourcePath.relative target sourceExtension

/-- The path that a unit is written to, the root included. -/
def pathOf (root target : String) : Except PathFault String :=
  (components target).map fun names => FilePath.join root (SourcePath.text names)

/-- The path of the directory that the file of a unit lies in. -/
def packagePath (root : String) (names : List String) : String :=
  match names.dropLast with
  | [] => FilePath.trimmed root
  | packages => FilePath.join root (SourcePath.text packages)

/-- Writes a unit at the given components below a root. -/
def place (root : String) (names : List String) (unit : SourceUnit) (s : FileSystem) :
    Answer FileSystem :=
  let path := FilePath.join root (SourcePath.text names)
  let packages := packagePath root names
  let made := s.makeDirectories packages
  match made.2 with
  | .error cause => ⟨made.1, [], .error cause⟩
  | .ok () =>
    let replaced := made.1.replaceFile packages path unit.text.toByteArray
    match replaced.2 with
    | .error cause => ⟨replaced.1, [], .error cause⟩
    | .ok () => ⟨replaced.1, [.written path unit.text.utf8ByteSize], .ok ()⟩

/-- The directory at a root as a destination. -/
def destination (root : String) : Destination FileSystem :=
  fun s unit =>
    match components unit.target with
    | .error fault => ⟨s, [], .error (.path fault)⟩
    | .ok names => place root names unit s

/-- A unit whose name has no path changes nothing. -/
theorem destination_of_path_error {root : String} {s : FileSystem} {unit : SourceUnit}
    {fault : PathFault} (h : components unit.target = .error fault) :
    destination root s unit = ⟨s, [], .error (.path fault)⟩ := by
  simp [destination, h]

end Directory
end FluentBuilders
