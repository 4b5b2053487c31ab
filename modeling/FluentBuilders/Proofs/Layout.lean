import FluentBuilders.Proofs.WrittenLines
import Mathlib.Algebra.GroupWithZero.Nat

/-! # The layout of lines

A text may be laid out anew: its lines are padded, their ends are changed, lines of blanks are
put in, and the end of the last line is added or removed (`Relaid`).  All of this may be done
at once and at any place.  Reading does not see it, apart from the number of the line that is
blamed, which counts the lines that were put in above it (`read_relaid`). -/
namespace FluentBuilders
namespace Ndjson

/-! ## Texts laid out anew -/

/-- Blanks that end no line. -/
def IsPadding (s : List Char) : Prop :=
  ∀ c ∈ s, Text.isBlank c = true ∧ c ≠ '\n'

instance (s : List Char) : Decidable (IsPadding s) :=
  decidable_of_iff ((s.all fun c => Text.isBlank c && c != '\n') = true) (by simp [IsPadding])

/-- A number of lines made of blanks, each with its end. -/
inductive BlankLines : Nat → List Char → Prop where
  | none : BlankLines 0 []
  | line {count : Nat} {blanks below : List Char} (h : IsPadding blanks)
      (hbelow : BlankLines count below) : BlankLines (count + 1) (blanks ++ '\n' :: below)

/-- A line with padding on its two sides, below a number of lines that were put in. -/
def IsMoved (count : Nat) (line moved : List Char) : Prop :=
  ∃ above front back, BlankLines count above ∧ IsPadding front ∧ IsPadding back ∧
    moved = above ++ (front ++ (line ++ back))

/-- A text that is laid out anew, with the number of lines that were put in above each of its
lines.  What stands behind the last line feed counts as a line. -/
inductive Relaid : List Char → List Nat → List Char → Prop where
  /-- A line keeps an end, of the same kind or of the other one. -/
  | line {line moved rest rest' : List Char} {count : Nat} {inserted : List Nat}
      {ending ending' : LineEnd} (hline : '\n' ∉ line) (hmoved : IsMoved count line moved)
      (hrest : Relaid rest inserted rest') :
      Relaid (line ++ ending.back ++ '\n' :: rest) (count :: inserted)
        (moved ++ ending'.back ++ '\n' :: rest')
  /-- The last line has no end and gets none. -/
  | last {line moved : List Char} {count : Nat} (hline : '\n' ∉ line)
      (hmoved : IsMoved count line moved) : Relaid line [count] moved
  /-- The last line gets an end, and lines of blanks may come below it. -/
  | closed {line moved below : List Char} {count more : Nat} {ending' : LineEnd}
      (hline : '\n' ∉ line) (hmoved : IsMoved count line moved)
      (hbelow : IsMoved more [] below) :
      Relaid line [count] (moved ++ ending'.back ++ '\n' :: below)
  /-- The last line loses its end. -/
  | opened {line moved : List Char} {count : Nat} {ending : LineEnd} (hline : '\n' ∉ line)
      (hmoved : IsMoved count line moved) :
      Relaid (line ++ ending.back ++ ['\n']) [count, 0] moved

theorem isPadding_nil : IsPadding [] := List.forall_mem_nil _

theorem IsPadding.isBlank {s : List Char} (h : IsPadding s) : ∀ c ∈ s, Text.isBlank c = true :=
  fun c hc => (h c hc).1

theorem IsPadding.lineFeed_not_mem {s : List Char} (h : IsPadding s) : '\n' ∉ s :=
  fun hmem => (h _ hmem).2 rfl

theorem isPadding_back (ending : LineEnd) : IsPadding ending.back := fun _ hc =>
  ⟨LineEnd.isBlank_of_mem_back hc, fun h => ending.lineFeed_not_mem_back (h ▸ hc)⟩

theorem lineFeed_not_mem_padded {front line back : List Char} (hfront : IsPadding front)
    (hline : '\n' ∉ line) (hback : IsPadding back) : '\n' ∉ front ++ (line ++ back) := by
  simp only [List.mem_append, not_or]
  exact ⟨hfront.lineFeed_not_mem, hline, hback.lineFeed_not_mem⟩

theorem lineFeed_not_mem_line {line : List Char} (hline : '\n' ∉ line) (ending : LineEnd) :
    '\n' ∉ line ++ ending.back :=
  lineFeed_not_mem_padded isPadding_nil hline (isPadding_back ending)

theorem isMoved_refl (line : List Char) : IsMoved 0 line line :=
  ⟨[], [], [], .none, isPadding_nil, isPadding_nil, (List.append_nil line).symm⟩

/-- Every text is laid out as it is, with nothing put in. -/
theorem relaid_refl (text : List Char) :
    ∃ inserted, (∀ count ∈ inserted, count = 0) ∧ Relaid text inserted text := by
  by_cases h : '\n' ∈ text
  · obtain ⟨line, rest, rfl, hline⟩ := List.eq_append_cons_of_mem h
    obtain ⟨inserted, hzero, hrest⟩ := relaid_refl rest
    have htext : line ++ LineEnd.lineFeed.back ++ '\n' :: rest = line ++ '\n' :: rest := by
      rw [LineEnd.back, List.append_nil]
    refine ⟨0 :: inserted, List.forall_mem_cons.mpr ⟨rfl, hzero⟩, ?_⟩
    rw [← htext]
    exact .line hline (isMoved_refl line) hrest
  · exact ⟨[0], List.forall_mem_singleton.mpr rfl, .last h (isMoved_refl text)⟩
termination_by text.length

/-- There is a number for each line. -/
theorem Relaid.length_inserted {text text' : List Char} {inserted : List Nat}
    (h : Relaid text inserted text') : inserted.length = (lines text).length := by
  induction h with
  | @line line _ _ _ _ _ ending _ hline _ _ ih =>
    rw [lines_line (lineFeed_not_mem_line hline ending), List.length_cons, List.length_cons, ih]
  | last hline => rw [lines_of_not_mem hline]; rfl
  | closed hline => rw [lines_of_not_mem hline]; rfl
  | @opened _ _ _ ending hline => rw [lines_line (lineFeed_not_mem_line hline ending)]; rfl

/-! ## Reading -/

theorem readLine_padded {front back : List Char} (hfront : IsPadding front)
    (hback : IsPadding back) (line : List Char) :
    readLine (front ++ (line ++ back)) = readLine line := by
  rw [readLine, readLine, Text.trim_append hfront.isBlank hback.isBlank]

theorem readLines_cons_congr {line line' : List Char} (h : readLine line = readLine line')
    (number : Nat) (ls : List (List Char)) :
    readLines number (line :: ls) = readLines number (line' :: ls) := by
  rw [readLines, readLines, h]

/-- A line end of either kind is not seen. -/
theorem readLines_lineEnd {line : List Char} (hline : '\n' ∉ line) (ending : LineEnd)
    (number : Nat) (rest : List Char) :
    readLines number (lines (line ++ ending.back ++ '\n' :: rest)) =
      readLines number (line :: lines rest) := by
  rw [lines_line (lineFeed_not_mem_line hline ending)]
  exact readLines_cons_congr (readLine_padded isPadding_nil (isPadding_back ending) line) _ _

/-- Lines of blanks only count. -/
theorem readLines_blankLines {count : Nat} {above : List Char} (h : BlankLines count above)
    (number : Nat) (rest : List Char) :
    readLines number (lines (above ++ rest)) = readLines (number + count) (lines rest) := by
  induction h generalizing number with
  | none => rfl
  | @line count blanks below h _ ih =>
    have hnext : number + (count + 1) = number + 1 + count := by omega
    rw [List.append_assoc, List.cons_append, lines_line h.lineFeed_not_mem, readLines,
      readLine_blank h.isBlank, hnext]
    exact ih (number + 1)

/-- A line that is moved without an end. -/
theorem readLines_moved {count : Nat} {line moved : List Char} (hline : '\n' ∉ line)
    (h : IsMoved count line moved) (number : Nat) :
    readLines number (lines moved) = readLines (number + count) [line] := by
  obtain ⟨above, front, back, habove, hfront, hback, rfl⟩ := h
  rw [readLines_blankLines habove, lines_of_not_mem (lineFeed_not_mem_padded hfront hline hback)]
  exact readLines_cons_congr (readLine_padded hfront hback line) _ _

/-- A line that is moved with an end. -/
theorem readLines_moved_lineEnd {count : Nat} {line moved : List Char} (hline : '\n' ∉ line)
    (h : IsMoved count line moved) (ending : LineEnd) (number : Nat) (rest : List Char) :
    readLines number (lines (moved ++ ending.back ++ '\n' :: rest)) =
      readLines (number + count) (line :: lines rest) := by
  obtain ⟨above, front, back, habove, hfront, hback, rfl⟩ := h
  rw [List.append_assoc above, List.append_assoc above, readLines_blankLines habove,
    readLines_lineEnd (lineFeed_not_mem_padded hfront hline hback)]
  exact readLines_cons_congr (readLine_padded hfront hback line) _ _

/-- A fault with the lines that were put in above it counted. -/
def moveDown (inserted : List Nat) (e : LineError) : LineError :=
  e.below (inserted.take e.line).sum

/-- Below a first line everything moves by one line and by the lines put in above it. -/
theorem moveDown_cons_below (count : Nat) (inserted : List Nat) (e : LineError) :
    moveDown (count :: inserted) (e.below 1) = ((moveDown inserted e).below 1).below count := by
  simp only [moveDown, LineError.below, List.take_succ_cons, List.sum_cons, LineError.mk.injEq,
    and_true]
  omega

/-- **One line laid out anew**: when reading the lines after it does not see that they are laid
out anew, neither does reading it and them. -/
theorem readLines_cons_moveDown {ls ls' : List (List Char)} {inserted : List Nat}
    (h : readLines 1 ls' = (readLines 1 ls).mapError (moveDown inserted)) (line : List Char)
    (count : Nat) : readLines (1 + count) (line :: ls') =
      (readLines 1 (line :: ls)).mapError (moveDown (count :: inserted)) := by
  have hnext := readLines_add 1 1 ls
  have hnext' := readLines_add 1 1 ls'
  rw [h] at hnext'
  rw [readLines_add, readLines, readLines, hnext, hnext']
  cases readLine line with
  | error complaint => rfl
  | ok found =>
    cases readLines 1 ls with
    | error e =>
      have hmove := moveDown_cons_below count inserted e
      cases found <;> exact congrArg Except.error hmove.symm
    | ok es => cases found <;> rfl

theorem Relaid.readLines {s s' : List Char} {inserted : List Nat} (h : Relaid s inserted s') :
    Ndjson.readLines 1 (lines s') =
      (Ndjson.readLines 1 (lines s)).mapError (moveDown inserted) := by
  induction h with
  | line hline hmoved _ ih =>
    rw [readLines_moved_lineEnd hline hmoved, readLines_lineEnd hline]
    exact readLines_cons_moveDown ih _ _
  | last hline hmoved =>
    rw [readLines_moved hline hmoved, lines_of_not_mem hline]
    exact readLines_cons_moveDown rfl _ _
  | closed hline hmoved hbelow =>
    rw [readLines_moved_lineEnd hline hmoved, lines_of_not_mem hline]
    refine readLines_cons_moveDown ?_ _ _
    -- what comes below the last line is one more blank line
    rw [readLines_moved List.not_mem_nil hbelow]
    rfl
  | opened hline hmoved =>
    rw [readLines_moved hline hmoved, readLines_lineEnd hline]
    exact readLines_cons_moveDown rfl _ _

/-- **Layout does not matter.**  A text that is laid out anew is read alike: as the same
elements, or it is blamed for the same reason at the same line, whose number then counts the
lines that were put in above it. -/
theorem read_relaid {text text' : String} {inserted : List Nat}
    (h : Relaid text.toList inserted text'.toList) :
    read text' = match read text with
      | .ok es => .ok es
      | .error e => .error ⟨e.line + (inserted.take e.line).sum, e.complaint⟩ := by
  rw [read, h.readLines, read]
  cases readLines 1 (lines text.toList) <;> rfl

/-- Two lines, a blank one and a bad one, with other ends, with padding and with a line of
blanks put in above each of them. -/
theorem read_relaid_two_lines :
    let text := "\nx\r\n"
    let text' := "\u000b\r\n\u3000\r\n\u2028\n\u00a0x\u0085"
    let complaint : Json.Complaint := ⟨.expectedValue, ⟨1, 1⟩⟩
    Relaid text.toList [1, 1, 0] text'.toList ∧
      read text = .error ⟨2, complaint⟩ ∧ read text' = .error ⟨4, complaint⟩ := by
  intro text text' complaint
  have hblank : ∀ {blanks : List Char}, IsPadding blanks → BlankLines 1 (blanks ++ ['\n']) :=
    fun h => .line h .none
  have hfirst : IsMoved 1 [] ['\u000b', '\r', '\n', '\u3000'] :=
    ⟨['\u000b', '\r'] ++ ['\n'], ['\u3000'], [], hblank (by decide), by decide, isPadding_nil, rfl⟩
  have hsecond : IsMoved 1 ['x'] ['\u2028', '\n', '\u00a0', 'x', '\u0085'] :=
    ⟨['\u2028'] ++ ['\n'], ['\u00a0'], ['\u0085'], hblank (by decide), by decide, by decide, rfl⟩
  have htext : text.toList = ['\n', 'x', '\r', '\n'] := by decide
  have htext' : text'.toList = ['\u000b', '\r', '\n', '\u3000', '\r', '\n',
      '\u2028', '\n', '\u00a0', 'x', '\u0085'] := by decide
  have h : Relaid text.toList [1, 1, 0] text'.toList := by
    rw [htext, htext']
    exact @Relaid.line [] _ _ _ _ _ .lineFeed .carriageReturnLineFeed List.not_mem_nil hfirst
      (@Relaid.opened _ _ _ .carriageReturnLineFeed (by decide) hsecond)
  have hread : read "\nx\r\n" = .error ⟨2, ⟨.expectedValue, ⟨1, 1⟩⟩⟩ := by rfl
  refine ⟨h, hread, ?_⟩
  rw [read_relaid h, hread]
  rfl

end Ndjson
end FluentBuilders
