import FluentBuilders.FilePath
import FluentBuilders.FileTree

/-! # File systems

A file system is a file tree with a workplace, the directory at which relative
paths start.  A path is walked component by component; the directory above the
top is the top.  Directories are made with all that are missing on the way, and
those already made stay when a later one cannot be made.  A file is replaced by
renaming a temporary one that was written in a directory, so a replacement that
fails leaves the file system as it was (`replaceFile_error`).
-/
namespace FluentBuilders
open FilePath

namespace FileTree

/-! ## Walking -/

/-- Whether something at a location is a directory. -/
def isDirectory : Option Node → Bool
  | some .directory => true
  | _ => false

/-- The location that some components lead to from a directory; all of them have
to lead to directories. -/
def walk (t : FileTree) (place : Location) : List Component → Except FileError Location
  | [] => .ok place
  | .stay :: way => walk t place way
  | .up :: way => walk t place.dropLast way
  | .name name :: way =>
    if isNameTooLong name then .error .nameTooLong
    else
      match t.view (place ++ [name]) with
      | none => .error .notFound
      | some (.file _) => .error .notADirectory
      | some .directory => walk t (place ++ [name]) way

/-- Walking ends at a directory. -/
theorem view_of_walk {t : FileTree} {place there : Location} {way : List Component}
    (h : t.view place = some .directory) (hw : walk t place way = .ok there) :
    t.view there = some .directory := by
  induction way generalizing place with
  | nil =>
    rw [walk] at hw
    injection hw with hw
    exact hw ▸ h
  | cons c way ih =>
    cases c with
    | stay => exact ih h hw
    | up => exact ih (view_dropLast h) hw
    | name name =>
      rw [walk] at hw
      split at hw
      · simp at hw
      · split at hw
        · simp at hw
        · simp at hw
        · next hd => exact ih hd hw

/-! ## Making directories -/

/-- Whether there are components and all of them stay. -/
def onlyStays (way : List Component) : Bool :=
  !way.isEmpty && way.all Component.stays

/-- Why a file stands in the way of a directory.  Before anything was made all of
the way is tried at once, and then one directory after the other. -/
def blocked (made : Bool) (way : List Component) : FileError :=
  if way.isEmpty then .alreadyExists
  else if made && !onlyStays way then .alreadyExists
  else .notADirectory

/-- Makes the directories on a way that starts at a directory.  A last directory
that the way only stays in has to be there already. -/
def makeWay (made : Bool) (place : Location) (t : FileTree) :
    List Component → FileTree × Except FileError Unit
  | [] => (t, .ok ())
  | .stay :: way => makeWay made place t way
  | .up :: way => makeWay made place.dropLast t way
  | .name name :: way =>
    let there := place ++ [name]
    if isNameTooLong name then (t, .error .nameTooLong)
    else
      match t.view there with
      | some .directory => makeWay made there t way
      | some (.file _) => (t, .error (blocked made way))
      | none =>
        if onlyStays way then (t, .error .notFound)
        else makeWay true there (t.put there empty) way

end FileTree

/-- A file tree and the directory at which relative paths start. -/
structure FileSystem where
  tree : FileTree
  workplace : Location

namespace FileSystem

/-- Nothing but an empty workplace. -/
def fresh (workplace : Location) : FileSystem :=
  ⟨workplace.foldr (fun name t => .directory [(name, t)]) .empty, workplace⟩

/-- Everything below the workplace. -/
def contents (s : FileSystem) : List (String × Option ByteArray) :=
  match s.tree.lookup s.workplace with
  | some t => t.contents
  | none => []

/-- The location at which a path starts. -/
def start (s : FileSystem) (path : String) : Location :=
  if isAbsolute path then [] else s.workplace

/-- The location of the directory at a path. -/
def locate (s : FileSystem) (path : String) : Except FileError Location :=
  s.tree.walk (s.start path) (components path)

/-- The directory that a path leads through, and its last component; there is
none when the path is only separators. -/
def approach (s : FileSystem) (path : String) :
    Except FileError (Location × Option Component) :=
  match check path with
  | .error cause => .error cause
  | .ok () =>
    let way := components path
    (s.tree.walk (s.start path) way.dropLast).map fun place => (place, way.getLast?)

/-- Makes a directory with all that are missing above it.  The empty path is the
workplace, which is always there. -/
def makeDirectories (s : FileSystem) (path : String) : FileSystem × Except FileError Unit :=
  match check path with
  | .error cause => (s, .error cause)
  | .ok () =>
    let made := FileTree.makeWay false (s.start path) s.tree (components path)
    ({ s with tree := made.1 }, made.2)

/-- Writes a file into a directory, in place. -/
def writeEntry (s : FileSystem) (place : Location) (name : String) (content : ByteArray) :
    FileSystem × Except FileError Unit :=
  let there := place ++ [name]
  if isNameTooLong name then (s, .error .nameTooLong)
  else if FileTree.isDirectory (s.tree.view there) then (s, .error .isADirectory)
  else ({ s with tree := s.tree.put there (.file content) }, .ok ())

/-- Writes the file at a path, in place. -/
def writeFile (s : FileSystem) (path : String) (content : ByteArray) :
    FileSystem × Except FileError Unit :=
  if path = "" then (s, .error .notFound)
  else
    match s.approach path with
    | .error cause => (s, .error cause)
    | .ok (place, some (.name name)) =>
      if endsInSeparator path then (s, .error .isADirectory) else s.writeEntry place name content
    | .ok _ => (s, .error .isADirectory)

/-- The content of the regular file at a path. -/
def readFile? (s : FileSystem) (path : String) : Option ByteArray :=
  match s.approach path with
  | .ok (place, some (.name name)) =>
    if endsInSeparator path || isNameTooLong name then none
    else
      match s.tree.view (place ++ [name]) with
      | some (.file content) => some content
      | _ => none
  | _ => none

/-- Moves what stands at a location to a path; a file that is there is
replaced. -/
def rename (s : FileSystem) (source : Location) (path : String) : Except FileError FileSystem :=
  match s.tree.lookup source, s.approach path with
  | none, _ => .error .notFound
  | some _, .error cause => .error cause
  | some moved, .ok (place, some (.name name)) =>
    let there := place ++ [name]
    if isNameTooLong name then .error .nameTooLong
    else if FileTree.isDirectory (s.tree.view there) then .error .isADirectory
    else .ok { s with tree := (s.tree.remove source).put there moved }
  | some _, .ok _ => .error .isADirectory

/-- The bytes that the name of a temporary file counts for.  Which name it has does
not matter, as it is gone when the replacement is over. -/
def temporaryNameSize : Nat := 15

/-- The path of a directory from the top, with a separator behind it. -/
def fromTop (s : FileSystem) (path : String) : String :=
  let workplace := "/" ++ String.intercalate "/" s.workplace
  join (if isAbsolute path then path else join workplace path) ""

/-- Whether a temporary file in a directory has too long a path.  It is the path
from the top that counts. -/
def isTemporaryTooLong (s : FileSystem) (directory : String) : Bool :=
  longestPath < (s.fromTop directory).utf8ByteSize + temporaryNameSize

/-- Replaces the file at a path by way of a temporary one in a directory, which
is removed again when the replacement fails. -/
def replaceFile (s : FileSystem) (directory path : String) (content : ByteArray) :
    FileSystem × Except FileError Unit :=
  if s.isTemporaryTooLong directory then (s, .error .nameTooLong)
  else
    match s.locate directory with
    | .error cause => (s, .error cause)
    | .ok place =>
      let temporary := place ++ [s.tree.unusedName place]
      let staged := { s with tree := s.tree.put temporary (.file content) }
      match staged.rename temporary path with
      | .ok renamed => (renamed, .ok ())
      | .error cause => ({ staged with tree := staged.tree.remove temporary }, .error cause)

/-- Both places where paths start, the top and the workplace, are directories. -/
def IsReady (s : FileSystem) : Prop :=
  s.tree.view [] = some .directory ∧ s.tree.view s.workplace = some .directory

/-- Every path starts at a directory. -/
theorem view_start {s : FileSystem} (h : s.IsReady) (path : String) :
    s.tree.view (s.start path) = some .directory := by
  unfold start
  split
  · exact h.1
  · exact h.2

/-- **A replacement that fails leaves the file system as it was.** -/
theorem replaceFile_error {s after : FileSystem} {directory path : String} {content : ByteArray}
    {cause : FileError} (hs : s.IsReady)
    (h : s.replaceFile directory path content = (after, .error cause)) : after = s := by
  unfold replaceFile at h
  split at h
  · injection h with h _
    exact h.symm
  · split at h
    · injection h with h _
      exact h.symm
    · next place hw =>
      have hd := FileTree.view_of_walk (view_start hs directory) hw
      dsimp only at h
      split at h
      · simp at h
      · injection h with h _
        rw [← h, FileTree.remove_put hd (FileTree.view_unusedName hd)]

/-- A fresh file system has its directories. -/
theorem isReady_fresh (workplace : Location) : (fresh workplace).IsReady := by
  unfold fresh IsReady
  dsimp only
  induction workplace with
  | nil => exact ⟨rfl, rfl⟩
  | cons name rest ih =>
    refine ⟨rfl, ?_⟩
    rw [List.foldr_cons, FileTree.view_cons, List.lookup_cons_self, Option.bind_some]
    exact ih.2

end FileSystem
end FluentBuilders
