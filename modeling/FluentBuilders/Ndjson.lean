import FluentBuilders.Element.Reader
import FluentBuilders.Event
import FluentBuilders.ReadError
import FluentBuilders.Text.Blank

/-! # Lines of elements

A text with one element on each line.  Lines of blanks are passed over but
counted, and blanks around an element do not matter; as a carriage return is a
blank, it may stand before a line feed.  The first line that holds no element is
the error.
-/
namespace FluentBuilders
namespace Ndjson

/-- The element of a line, if the line is not blank. -/
def readLine (line : List Char) : Except Json.Complaint (Option Element) :=
  match Text.trim line with
  | [] => .ok none
  | c :: rest => (Element.ofText (c :: rest)).map some

/-- The elements of lines that are numbered from a given one on. -/
def readLines : Nat → List (List Char) → Except LineError (List Element)
  | _, [] => .ok []
  | number, line :: rest =>
    match readLine line with
    | .error complaint => .error ⟨number, complaint⟩
    | .ok none => readLines (number + 1) rest
    | .ok (some e) => (readLines (number + 1) rest).map (e :: ·)

/-- The lines of a text. -/
def lines (text : List Char) : List (List Char) :=
  text.splitOn '\n'

/-- The elements of a text. -/
def read (text : String) : Except LineError (List Element) :=
  readLines 1 (lines text.toList)

/-- What is logged when a text is read. -/
def events (result : Except LineError (List Element)) : List Event :=
  match result with
  | .ok elements => [.linesRead elements.length]
  | .error _ => []

/-- The elements of the bytes of a file, which have to be UTF-8. -/
def readBytes (content : ByteArray) : Except ReadError (List Element) :=
  match String.fromUTF8? content with
  | none => .error (.file .notText)
  | some text => (read text).mapError .invalidLine

end Ndjson
end FluentBuilders
