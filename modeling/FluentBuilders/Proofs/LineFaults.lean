import FluentBuilders.Proofs.Json.Places
import FluentBuilders.Proofs.WrittenLines

/-! # The line that is blamed

Reading two texts joined by a line feed comes down to reading each of them, and a text is
blamed for its first line that is neither blank nor one element
(`readLines_eq_error_iff`).  What is wrong with that line is what is wrong with it once it is
trimmed and read on its own, so the place that is named lies within it
(`Element.ofText_error`). -/
namespace FluentBuilders
open Json

/-- **A text of one line that is no element** is blamed at the place where its reader
stopped, which lies in the text. -/
theorem Element.ofText_error {text : Input} (hline : '\n' ∉ text) {complaint : Complaint}
    (h : Element.ofText text = .error complaint) :
    ∃ fault, readElement text = .error fault ∧ complaint.cause = fault.cause ∧
      complaint.position.line = 1 ∧
      complaint.position.column + fault.left = Text.byteCount text := by
  cases hread : readElement text with
  | ok e =>
    rw [Element.ofText, hread] at h
    change Except.ok e = Except.error complaint at h
    contradiction
  | error fault =>
    rw [Element.ofText, hread] at h
    obtain rfl : fault.complaint text = complaint := Except.error.inj h
    have hplace := Position.ofOffset_of_not_mem hline (fault.offset_le text)
    have hleft := left_le_of_readElement hread
    refine ⟨fault, rfl, rfl, congrArg Position.line hplace, ?_⟩
    rw [Fault.complaint, hplace, Fault.offset]
    exact Nat.sub_add_cancel hleft

theorem Json.Complaint.message_of_line_one (complaint : Complaint)
    (h : complaint.position.line = 1) : complaint.message =
      complaint.cause.message ++ " at line 1 column " ++ toString complaint.position.column := by
  have hwords : " at line " ++ toString 1 ++ " column " = " at line 1 column " := by decide
  rw [Complaint.message, h, ← hwords]
  simp only [String.append_assoc]

namespace Ndjson

/-! ## One line -/

/-- A line that is blank, or that is one element once it is trimmed. -/
def IsFine (line : List Char) : Prop :=
  Text.trim line = [] ∨ ∃ e, Element.ofText (Text.trim line) = .ok e

theorem isFine_iff {line : List Char} : IsFine line ↔ ∃ found, readLine line = .ok found := by
  unfold IsFine readLine
  split
  · next h => exact ⟨fun _ => ⟨none, rfl⟩, fun _ => .inl h⟩
  · next c rest h =>
    rw [h]
    cases Element.ofText (c :: rest) <;> simp [Except.map]

theorem not_isFine_of_error {line : List Char} {complaint : Complaint}
    (h : readLine line = .error complaint) : ¬ IsFine line := by
  intro hfine
  obtain ⟨found, hfound⟩ := isFine_iff.mp hfine
  rw [h] at hfound
  contradiction

theorem readLine_error_iff {line : List Char} {complaint : Complaint} :
    readLine line = .error complaint ↔
      Text.trim line ≠ [] ∧ Element.ofText (Text.trim line) = .error complaint := by
  unfold readLine
  split
  · next h => simp [h]
  · next c rest h =>
    rw [h]
    cases Element.ofText (c :: rest) <;> simp [Except.map]

theorem readLine_error_trim {line : List Char} {complaint : Complaint}
    (h : readLine line = .error complaint) : readLine (Text.trim line) = .error complaint := by
  rw [readLine_error_iff] at h ⊢
  rw [Text.trim_trim]
  exact h

/-! ## The first line that is not fine -/

/-- The line with a number, counted from one, is not fine, and all lines before it are. -/
def IsFirstFault (ls : List (List Char)) (number : Nat) (line : List Char) : Prop :=
  ∃ earlier later, ls = earlier ++ line :: later ∧ number = earlier.length + 1 ∧
    (∀ l ∈ earlier, IsFine l) ∧ ¬ IsFine line

theorem readLines_cons_of_isFine {line : List Char} (h : IsFine line) {number : Nat}
    {ls : List (List Char)} {e : LineError} :
    readLines number (line :: ls) = .error e ↔ readLines (number + 1) ls = .error e := by
  obtain ⟨found, hline⟩ := isFine_iff.mp h
  rw [readLines, hline]
  cases found with
  | none => rfl
  | some _ => cases readLines (number + 1) ls <;> simp [Except.map]

/-- A cut in front of a member is in front of the head or in the tail. -/
theorem exists_cut_cons_iff {first : List Char} {ls : List (List Char)}
    {P : List (List Char) → List Char → Prop} :
    (∃ earlier line later, first :: ls = earlier ++ line :: later ∧ P earlier line) ↔
      P [] first ∨ ∃ earlier line later, ls = earlier ++ line :: later ∧
        P (first :: earlier) line := by
  constructor
  · rintro ⟨earlier, line, later, hls, h⟩
    cases earlier with
    | nil =>
      obtain ⟨rfl, rfl⟩ := List.cons.inj hls
      exact .inl h
    | cons l earlier =>
      obtain ⟨rfl, rfl⟩ := List.cons.inj hls
      exact .inr ⟨earlier, line, later, rfl, h⟩
  · rintro (h | ⟨earlier, line, later, rfl, h⟩)
    · exact ⟨[], first, ls, rfl, h⟩
    · exact ⟨first :: earlier, line, later, rfl, h⟩

/-- Reading fails at the first line that is not fine. -/
theorem readLines_eq_error_iff {number : Nat} {ls : List (List Char)} {e : LineError} :
    readLines number ls = .error e ↔ ∃ earlier line later, ls = earlier ++ line :: later ∧
      e.line = number + earlier.length ∧ (∀ l ∈ earlier, IsFine l) ∧
      readLine line = .error e.complaint := by
  induction ls generalizing number with
  | nil => simp [readLines]
  | cons first ls ih =>
    have hnext : ∀ earlier : List (List Char),
        number + (first :: earlier).length = number + 1 + earlier.length := fun earlier => by
      rw [List.length_cons]
      omega
    rw [exists_cut_cons_iff]
    simp only [hnext, List.forall_mem_cons]
    by_cases hfine : IsFine first
    · have hfirst : readLine first ≠ .error e.complaint := fun h => not_isFine_of_error h hfine
      simp only [readLines_cons_of_isFine hfine, ih, hfine, hfirst, true_and, and_false, false_or]
    · simp only [hfine, false_and, and_false, exists_false, or_false]
      cases hfirst : readLine first with
      | ok found => exact absurd (isFine_iff.mpr ⟨found, hfirst⟩) hfine
      | error complaint =>
        obtain ⟨line, complaint'⟩ := e
        rw [readLines, hfirst]
        simp [eq_comm]

/-! ## Lines as they are counted -/

/-- The lines of a text as they are counted: behind the last line feed there is a line only
if there is something. -/
def rows (text : List Char) : List (List Char) :=
  if (lines text).getLast? = some [] then (lines text).dropLast else lines text

theorem lines_eq_rows (text : List Char) :
    lines text = rows text ∨ lines text = rows text ++ [[]] := by
  unfold rows
  split
  · next h =>
    obtain ⟨front, hfront⟩ := List.getLast?_eq_some_iff.mp h
    rw [hfront, List.dropLast_concat]
    exact .inr rfl
  · exact .inl rfl

theorem readLines_rows (number : Nat) (text : List Char) :
    readLines number (rows text) = readLines number (lines text) := by
  rcases lines_eq_rows text with h | h
  · rw [h]
  · rw [h, readLines_append]
    cases readLines number (rows text) with
    | error e => rfl
    | ok es =>
      have hlast : readLines (number + (rows text).length) [[]] = .ok [] := rfl
      simp [Except.bind, hlast, Except.map]

theorem lineFeed_not_mem_of_mem_rows {text line : List Char} (h : line ∈ rows text) :
    '\n' ∉ line := by
  rcases lines_eq_rows text with hlines | hlines
  · exact lineFeed_not_mem_of_mem_lines (hlines ▸ h)
  · exact lineFeed_not_mem_of_mem_lines (hlines ▸ List.mem_append_left _ h)

/-- **A text is blamed for its first line that is not fine**, with what is wrong with that
line once it is trimmed. -/
theorem read_error_iff {text : String} {number : Nat} {complaint : Complaint} :
    read text = .error ⟨number, complaint⟩ ↔
      ∃ line, IsFirstFault (rows text.toList) number line ∧
        Element.ofText (Text.trim line) = .error complaint := by
  rw [read, ← readLines_rows, readLines_eq_error_iff]
  constructor
  · rintro ⟨earlier, line, later, hls, hnumber, hearlier, hline⟩
    exact ⟨line, ⟨earlier, later, hls, hnumber.trans (Nat.add_comm _ _), hearlier,
      not_isFine_of_error hline⟩, (readLine_error_iff.mp hline).2⟩
  · rintro ⟨line, ⟨earlier, later, hls, hnumber, hearlier, hbad⟩, hcomplaint⟩
    exact ⟨earlier, line, later, hls, hnumber.trans (Nat.add_comm _ _), hearlier,
      readLine_error_iff.mpr ⟨fun hblank => hbad (.inl hblank), hcomplaint⟩⟩

/-- Two texts joined by a line feed. -/
theorem read_append (a b : String) : read (a ++ "\n" ++ b) =
    (read a).bind fun es =>
      ((read b).mapError (.below (a.toList.count '\n' + 1))).map (es ++ ·) := by
  have htext : (a ++ "\n" ++ b).toList = a.toList ++ '\n' :: b.toList := by
    simp only [String.toList_append, List.append_assoc]
    rfl
  rw [read, htext, lines_append, readLines_append, length_lines]
  simp only [readLines_add]
  rfl

/-- A line that is not fine is no element once it is trimmed. -/
theorem exists_complaint_of_not_isFine {line : List Char} (h : ¬ IsFine line) :
    ∃ complaint, Element.ofText (Text.trim line) = .error complaint := by
  cases hread : Element.ofText (Text.trim line) with
  | error complaint => exact ⟨complaint, rfl⟩
  | ok e => exact absurd (.inr ⟨e, hread⟩) h

/-- The lines up to the first one that is not fine decide which one it is. -/
theorem IsFirstFault.congr {ls ls' : List (List Char)} {number : Nat} {line : List Char}
    (h : IsFirstFault ls number line) (htake : ls'.take number = ls.take number) :
    IsFirstFault ls' number line := by
  obtain ⟨earlier, later, rfl, rfl, hearlier, hbad⟩ := h
  refine ⟨earlier, ls'.drop (earlier.length + 1), ?_, rfl, hearlier, hbad⟩
  have hfront : (earlier ++ line :: later).take (earlier.length + 1) = earlier ++ [line] := by
    rw [List.take_length_add_append]
    rfl
  calc ls' = ls'.take (earlier.length + 1) ++ ls'.drop (earlier.length + 1) :=
        (List.take_append_drop _ _).symm
    _ = earlier ++ line :: ls'.drop (earlier.length + 1) := by
        rw [htake, hfront, List.append_assoc]
        rfl

theorem IsFirstFault.mem {ls : List (List Char)} {number : Nat} {line : List Char}
    (h : IsFirstFault ls number line) : line ∈ ls := by
  obtain ⟨earlier, later, rfl, -⟩ := h
  exact List.mem_append_right _ List.mem_cons_self

theorem IsFirstFault.not_isFine {ls : List (List Char)} {number : Nat} {line : List Char}
    (h : IsFirstFault ls number line) : ¬ IsFine line := by
  obtain ⟨_, _, _, _, _, hbad⟩ := h
  exact hbad

theorem IsFirstFault.number_le {ls : List (List Char)} {number : Nat} {line : List Char}
    (h : IsFirstFault ls number line) : 1 ≤ number ∧ number ≤ ls.length := by
  obtain ⟨earlier, later, rfl, rfl, -⟩ := h
  rw [List.length_append, List.length_cons]
  omega

/-- A line is blamed on its own, once it is trimmed, for what it is blamed for in a text. -/
theorem read_trim_of_error {line : List Char} (hline : '\n' ∉ line) {complaint : Complaint}
    (h : readLine line = .error complaint) :
    read (String.ofList (Text.trim line)) = .error ⟨1, complaint⟩ := by
  have htrim : '\n' ∉ Text.trim line := fun hmem => hline (Text.mem_of_mem_trim hmem)
  rw [read, String.toList_ofList, lines_of_not_mem htrim, readLines, readLine_error_trim h]

/-- **Reading goes line by line.**  Two texts joined by a line feed are read one after the
other: a fault of the first one stays as it is, one of the second one moves down by the lines
of the first, and if there is none the elements are put together.  A text is blamed for its
first line that is not fine: nothing after that line matters, and what is wrong with it is
what is wrong with it on its own once it is trimmed, at a place in its only line that lies
within it. -/
theorem read_joined :
    (∀ a b : String, read (a ++ "\n" ++ b) =
      match read a, read b with
      | .error e, _ => .error e
      | .ok _, .error e => .error ⟨e.line + a.toList.count '\n' + 1, e.complaint⟩
      | .ok es, .ok fs => .ok (es ++ fs)) ∧
    (∀ (text : String) (number : Nat),
      (∃ complaint, read text = .error ⟨number, complaint⟩) ↔
        ∃ line, IsFirstFault (rows text.toList) number line) ∧
    ∀ (text : String) (number : Nat) (complaint : Complaint),
      read text = .error ⟨number, complaint⟩ →
        1 ≤ number ∧ number ≤ (rows text.toList).length ∧
        (∀ other : String, (rows other.toList).take number = (rows text.toList).take number →
          read other = .error ⟨number, complaint⟩) ∧
        ∃ line fault, IsFirstFault (rows text.toList) number line ∧
          read (String.ofList (Text.trim line)) = .error ⟨1, complaint⟩ ∧
          readElement (Text.trim line) = .error fault ∧
          complaint.message = fault.cause.message ++ " at line 1 column " ++
            toString complaint.position.column ∧
          complaint.position.column ≤ Text.byteCount (Text.trim line) ∧
          complaint.position.column + fault.left = Text.byteCount (Text.trim line) := by
  refine ⟨fun a b => ?_, fun text number => ?_, fun text number complaint h => ?_⟩
  · rw [read_append]
    cases read a with
    | error e => rfl
    | ok es => cases read b <;> rfl
  · constructor
    · rintro ⟨complaint, h⟩
      obtain ⟨line, hfirst, -⟩ := read_error_iff.mp h
      exact ⟨line, hfirst⟩
    · rintro ⟨line, hfirst⟩
      obtain ⟨complaint, hcomplaint⟩ := exists_complaint_of_not_isFine hfirst.not_isFine
      exact ⟨complaint, read_error_iff.mpr ⟨line, hfirst, hcomplaint⟩⟩
  · obtain ⟨line, hfirst, hcomplaint⟩ := read_error_iff.mp h
    have hline := lineFeed_not_mem_of_mem_rows hfirst.mem
    obtain ⟨fault, hfault, hcause, hnumber, hcolumn⟩ := Element.ofText_error
      (fun hmem => hline (Text.mem_of_mem_trim hmem)) hcomplaint
    have hown := readLine_error_iff.mpr ⟨fun hblank => hfirst.not_isFine (.inl hblank), hcomplaint⟩
    refine ⟨hfirst.number_le.1, hfirst.number_le.2, fun other hother => ?_, line, fault, hfirst,
      read_trim_of_error hline hown, hfault, ?_, ?_, hcolumn⟩
    · exact read_error_iff.mpr ⟨line, hfirst.congr hother, hcomplaint⟩
    · rw [complaint.message_of_line_one hnumber, hcause]
    · omega

/-- A written element and a bad line with a blank one in front of it, joined: the bad line
is the fourth one, as the line feed at the end of the first text leaves an empty line. -/
theorem read_joined_fourth_line :
    let elements : List Element := [⟨"a.B", "set", [], none⟩]
    let a := document .carriageReturnLineFeed true elements
    let b := " \n\u00a0x"
    let complaint : Complaint := ⟨.expectedValue, ⟨1, 1⟩⟩
    read a = .ok elements ∧ read b = .error ⟨2, complaint⟩ ∧
      read (a ++ "\n" ++ b) = .error ⟨4, complaint⟩ ∧
      ∃ line, IsFirstFault (rows (a ++ "\n" ++ b).toList) 4 line := by
  intro elements a b complaint
  have ha : read a = .ok elements := by
    rw [read, toList_document]
    exact readLines_written .carriageReturnLineFeed true elements 1
  have hb : read " \n\u00a0x" = .error ⟨2, ⟨.expectedValue, ⟨1, 1⟩⟩⟩ := by rfl
  have hcount : a.toList.count '\n' = 1 := by
    rw [toList_document]
    rfl
  obtain ⟨hjoin, hfirst, hfault⟩ := read_joined
  have hread : read (a ++ "\n" ++ b) = .error ⟨4, complaint⟩ := by
    rw [hjoin, ha, hcount]
    simp only [b, hb]
    rfl
  obtain ⟨_, _, _, line, _, hline, _⟩ := hfault _ 4 complaint hread
  exact ⟨ha, hb, hread, line, hline⟩

end Ndjson
end FluentBuilders
