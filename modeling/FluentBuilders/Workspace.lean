import FluentBuilders.Directory
import FluentBuilders.Ndjson
import FluentBuilders.Round
import FluentBuilders.Text.Utf8

/-! # Workspaces

A workspace is a file system in which files are put, elements are read from
files and rounds are written to a directory.
-/
namespace FluentBuilders
namespace Workspace

/-- The elements of a file.  Anything that is no regular file is not found. -/
def readElements (files : FileSystem) (path : String) : Except ReadError (List Element) :=
  match files.readFile? path with
  | none => .error (.notFound path)
  | some content => Ndjson.readBytes content

/-- What is logged when the elements of a file are read. -/
def readEvents (path : String) (result : Except ReadError (List Element)) : List Event :=
  match result with
  | .ok elements => [.linesRead elements.length, .fileRead path elements.length]
  | .error _ => []

/-- What happens next in a workspace. -/
inductive Step where
  /-- Make a directory, with all that are missing above it. -/
  | makeDirectory (path : String)
  /-- Put a file. -/
  | put (path : String) (content : ByteArray)
  /-- Write a source unit to the directory. -/
  | write (unit : SourceUnit)
  /-- Ask for the path of a source unit. -/
  | pathOf (target : String)
  /-- Read the elements of a file. -/
  | read (path : String)
  /-- Perform a round over the elements of a file. -/
  | readRound (path : String)
  /-- Perform a round over elements. -/
  | round (elements : List Element)
  /-- List everything. -/
  | list

/-- What a step results in. -/
inductive Result where
  | done (outcome : Except FileError Unit)
  | path (path : Except PathFault String)
  | elements (result : Except ReadError (List Element))
  | round (diagnostics : List Diagnostic) (outcome : Except RoundError Summary)
  | unread (error : RoundError)
  | listing (contents : List (String × Option ByteArray))

/-- A result with the file system afterwards and what was logged. -/
structure Outcome where
  files : FileSystem
  log : List Event
  result : Result

variable (naming : Naming) (root : String)

/-- A round that is written to the directory. -/
def round (files : FileSystem) (elements : List Element) : Outcome :=
  let performed := Round.perform naming (Directory.destination root) elements files
  ⟨performed.state, performed.log, .round performed.diagnostics performed.outcome⟩

/-- One step in a workspace. -/
def step (files : FileSystem) : Step → Outcome
  | .makeDirectory path =>
    let made := files.makeDirectories path
    ⟨made.1, [], .done made.2⟩
  | .put path content =>
    let written := files.writeFile path content
    ⟨written.1, [], .done written.2⟩
  | .write unit =>
    let answer := Directory.destination root files unit
    ⟨answer.state, answer.log, .done answer.outcome⟩
  | .pathOf target => ⟨files, [], .path (Directory.pathOf root target)⟩
  | .read path =>
    let result := readElements files path
    ⟨files, readEvents path result, .elements result⟩
  | .readRound path =>
    let result := readElements files path
    match result with
    | .error e => ⟨files, readEvents path result, .unread (.reading e)⟩
    | .ok elements =>
      let outcome := round naming root files elements
      { outcome with log := readEvents path result ++ outcome.log }
  | .round elements => round naming root files elements
  | .list => ⟨files, [], .listing files.contents⟩

/-- The outcomes of a list of steps, in order. -/
def steps : FileSystem → List Step → List Outcome
  | _, [] => []
  | files, s :: rest =>
    let outcome := step naming root files s
    outcome :: steps outcome.files rest

/-- The content of a file as text, with whatever is not UTF-8 replaced. -/
def contentText (content : ByteArray) : String :=
  String.ofList (Text.decodeLossy content.data.toList)

end Workspace
end FluentBuilders
