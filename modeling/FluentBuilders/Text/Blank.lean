import FluentBuilders.Text.Range

/-! # Blank characters

The Unicode property White_Space as a table of ranges, and trimming by it.  The
property is wider than the four blanks that may stand between the tokens of a
data format: it also holds of the next-line character, the no-break space and
the separators of the general punctuation block.
-/
namespace FluentBuilders
namespace Text

/-- The code points with the property White_Space, as closed ranges. -/
def blankRanges : List (Nat × Nat) :=
  [(0x09, 0x0D), (0x20, 0x20), (0x85, 0x85), (0xA0, 0xA0), (0x1680, 0x1680),
    (0x2000, 0x200A), (0x2028, 0x2029), (0x202F, 0x202F), (0x205F, 0x205F), (0x3000, 0x3000)]

/-- Whether a character has the property White_Space. -/
def isBlank (c : Char) : Bool :=
  inRanges c.toNat blankRanges

/-- A text without the blanks at its start. -/
def trimStart (s : List Char) : List Char :=
  s.dropWhile isBlank

/-- A text without the blanks at its two ends. -/
def trim (s : List Char) : List Char :=
  (trimStart (trimStart s).reverse).reverse

/-- What trimming leaves does not start with a blank. -/
theorem trimStart_head {s r : List Char} {c : Char} (h : trimStart s = c :: r) :
    isBlank c = false := by
  induction s with
  | nil => simp [trimStart] at h
  | cons d s ih =>
    by_cases hd : isBlank d = true
    · exact ih (by simpa [trimStart, List.dropWhile_cons, hd] using h)
    · simp only [trimStart, List.dropWhile_cons, hd, Bool.false_eq_true, if_false] at h
      injection h with h₁ h₂
      subst h₁
      simpa using hd

/-- Blanks in front of a text are trimmed away. -/
theorem trimStart_append {b : List Char} (hb : ∀ c ∈ b, isBlank c = true) (s : List Char) :
    trimStart (b ++ s) = trimStart s := by
  induction b with
  | nil => rfl
  | cons c b ih =>
    have hc : isBlank c = true := hb c List.mem_cons_self
    simp only [trimStart, List.cons_append, List.dropWhile_cons, hc, if_true]
    exact ih fun d hd => hb d (List.mem_cons_of_mem c hd)

/-- Blanks alone are trimmed away. -/
theorem trimStart_blanks {b : List Char} (hb : ∀ c ∈ b, isBlank c = true) :
    trimStart b = [] := by
  have h := trimStart_append hb []
  rwa [List.append_nil] at h

/-- Blanks on the two sides of a text are trimmed away. -/
theorem trim_append {a b : List Char} (ha : ∀ c ∈ a, isBlank c = true)
    (hb : ∀ c ∈ b, isBlank c = true) (s : List Char) : trim (a ++ (s ++ b)) = trim s := by
  have hback : ∀ c ∈ b.reverse, isBlank c = true := fun c hc => hb c (List.mem_reverse.mp hc)
  have hcut : trimStart (s ++ b) =
      if (trimStart s).isEmpty = true then trimStart b else trimStart s ++ b :=
    List.dropWhile_append
  rw [trim, trimStart_append ha, hcut, trim]
  split
  · next hs => rw [trimStart_blanks hb, List.isEmpty_iff.mp hs]
  · rw [List.reverse_append, trimStart_append hback]

/-- Trimming takes blanks from the start of a text. -/
theorem exists_append_trimStart (s : List Char) :
    ∃ a, (∀ c ∈ a, isBlank c = true) ∧ s = a ++ trimStart s :=
  ⟨s.takeWhile isBlank, List.all_eq_true.mp List.all_takeWhile,
    List.takeWhile_append_dropWhile.symm⟩

/-- And then from its end. -/
theorem exists_trim_append (s : List Char) :
    ∃ b, (∀ c ∈ b, isBlank c = true) ∧ trimStart s = trim s ++ b := by
  obtain ⟨b, hb, hs⟩ := exists_append_trimStart (trimStart s).reverse
  refine ⟨b.reverse, fun c hc => hb c (List.mem_reverse.mp hc), ?_⟩
  rw [trim, ← List.reverse_append, ← hs, List.reverse_reverse]

theorem exists_append_trim (s : List Char) :
    ∃ a b, (∀ c ∈ a, isBlank c = true) ∧ (∀ c ∈ b, isBlank c = true) ∧
      s = a ++ (trim s ++ b) := by
  obtain ⟨a, ha, hs⟩ := exists_append_trimStart s
  obtain ⟨b, hb, hback⟩ := exists_trim_append s
  exact ⟨a, b, ha, hb, hback ▸ hs⟩

@[simp] theorem trim_trim (s : List Char) : trim (trim s) = trim s := by
  obtain ⟨a, b, ha, hb, hs⟩ := exists_append_trim s
  calc trim (trim s) = trim (a ++ (trim s ++ b)) := (trim_append ha hb _).symm
    _ = trim s := congrArg trim hs.symm

/-- Trimming adds nothing. -/
theorem mem_of_mem_trim {s : List Char} {c : Char} (h : c ∈ trim s) : c ∈ s := by
  obtain ⟨a, b, _, _, hs⟩ := exists_append_trim s
  rw [hs]
  exact List.mem_append_right a (List.mem_append_left b h)

end Text
end FluentBuilders
