import FluentBuilders.Ndjson
import FluentBuilders.Text.Split

/-! # Texts put together

Two texts joined by a line feed have the lines of the one and then those of the other
(`lines_append`), and are read one after the other, with the lines of the second one numbered
from where the first one ends (`readLines_append`).  Where numbering starts changes only the
number of the line that is blamed (`readLines_add`). -/
namespace FluentBuilders

/-- The same fault some lines further down. -/
def LineError.below (count : Nat) (e : LineError) : LineError :=
  { e with line := e.line + count }

namespace Ndjson

/-! ## Lines -/

theorem lines_append (a b : List Char) : lines (a ++ '\n' :: b) = lines a ++ lines b :=
  List.splitOn_append_cons_self a b

theorem lines_of_not_mem {line : List Char} (h : '\n' ∉ line) : lines line = [line] :=
  List.splitOn_eq_singleton h

/-- The first line feed ends the first line. -/
theorem lines_line {line : List Char} (h : '\n' ∉ line) (rest : List Char) :
    lines (line ++ '\n' :: rest) = line :: lines rest :=
  List.splitOn_append_cons_self_of_not_mem h rest

theorem length_lines (text : List Char) : (lines text).length = text.count '\n' + 1 :=
  Text.length_splitOn '\n' text

theorem lineFeed_not_mem_of_mem_lines {text line : List Char} (h : line ∈ lines text) :
    '\n' ∉ line :=
  Text.not_mem_of_mem_splitOn h

/-! ## Reading -/

theorem readLines_add (number count : Nat) (ls : List (List Char)) :
    readLines (number + count) ls = (readLines number ls).mapError (.below count) := by
  induction ls generalizing number with
  | nil => rfl
  | cons line ls ih =>
    have hnext : number + count + 1 = number + 1 + count := Nat.add_right_comm _ _ _
    rw [readLines, readLines, hnext, ih]
    cases readLine line with
    | error complaint => rfl
    | ok found =>
      cases found with
      | none => rfl
      | some e => cases readLines (number + 1) ls <;> rfl

/-- Lines that come after others are read once those are, and add their elements to theirs. -/
theorem readLines_append (number : Nat) (xs ys : List (List Char)) :
    readLines number (xs ++ ys) = (readLines number xs).bind fun es =>
      (readLines (number + xs.length) ys).map (es ++ ·) := by
  induction xs generalizing number with
  | nil => cases h : readLines number ys <;> simp [readLines, Except.bind, Except.map, h]
  | cons line xs ih =>
    have hlength : number + (line :: xs).length = number + 1 + xs.length := by
      rw [List.length_cons]
      omega
    rw [List.cons_append, readLines, readLines, hlength, ih]
    cases readLine line with
    | error complaint => rfl
    | ok found =>
      cases found with
      | none => rfl
      | some e =>
        cases readLines (number + 1) xs with
        | error fault => rfl
        | ok es => cases readLines (number + 1 + xs.length) ys <;> rfl

end Ndjson
end FluentBuilders
