/-! # Cutting a text at a character

A text is cut at each occurrence of a character, so there is one part more than there are
occurrences (`length_splitOn`), and no part holds the character (`not_mem_of_mem_splitOn`).
Where the character stands tells whether a part is empty (`nil_mem_splitOn_iff`).
-/
namespace FluentBuilders
namespace Text

theorem length_splitOn (c : Char) (s : List Char) : (s.splitOn c).length = s.count c + 1 := by
  induction s with
  | nil => rfl
  | cons d s ih =>
    rw [List.splitOn_cons_eq_if_modifyHead, List.count_cons]
    split
    · rw [List.length_cons, ih]
    · rw [List.length_modifyHead, ih, Nat.add_zero]

theorem not_mem_of_mem_splitOn {c : Char} {s part : List Char} (h : part ∈ s.splitOn c) :
    c ∉ part := by
  by_cases hc : c ∈ s
  · obtain ⟨front, back, rfl, hfront⟩ := List.eq_append_cons_of_mem hc
    rw [List.splitOn_append_cons_self_of_not_mem hfront] at h
    rcases List.mem_cons.mp h with rfl | hback
    · exact hfront
    · exact not_mem_of_mem_splitOn hback
  · rw [List.splitOn_eq_singleton hc] at h
    obtain rfl := List.mem_singleton.mp h
    exact hc
termination_by s.length

/-- Behind a part that does not hold a character, two of it stand in a row at the cut or
later. -/
theorem pair_infix_append_cons_iff {c : Char} {front : List Char} (h : c ∉ front)
    (back : List Char) :
    [c, c] <:+: front ++ c :: back ↔ back.head? = some c ∨ [c, c] <:+: back := by
  induction front with
  | nil =>
    rw [List.nil_append, List.infix_cons_iff, List.cons_prefix_cons]
    cases back with
    | nil => simp
    | cons d back => simp [List.cons_prefix_cons, eq_comm]
  | cons d front ih =>
    rw [List.mem_cons, not_or] at h
    rw [List.cons_append, List.infix_cons_iff, List.cons_prefix_cons, ih h.2]
    simp [h.1]

/-- **An empty part** comes of a text that is empty, or has the character at one of its ends
or twice in a row. -/
theorem nil_mem_splitOn_iff {c : Char} {s : List Char} :
    [] ∈ s.splitOn c ↔
      s = [] ∨ s.head? = some c ∨ s.getLast? = some c ∨ [c, c] <:+: s := by
  by_cases hc : c ∈ s
  · obtain ⟨front, back, rfl, hfront⟩ := List.eq_append_cons_of_mem hc
    have hhead : (front ++ c :: back).head? = some c ↔ front = [] := by
      cases front with
      | nil => simp
      | cons d front =>
        rw [List.mem_cons, not_or] at hfront
        simp [Ne.symm hfront.1]
    have hlast : (front ++ c :: back).getLast? = some c ↔
        back = [] ∨ back.getLast? = some c := by
      cases back with
      | nil => simp
      | cons d back => simp [List.getLast?_append, List.getLast?_cons]
    rw [List.splitOn_append_cons_self_of_not_mem hfront, List.mem_cons, nil_mem_splitOn_iff, hhead,
      hlast, pair_infix_append_cons_iff hfront]
    simp [eq_comm, or_assoc, or_left_comm]
  · rw [List.splitOn_eq_singleton hc, List.mem_singleton]
    constructor
    · intro h
      exact Or.inl h.symm
    · rintro (h | h | h | h)
      · exact h.symm
      · exact absurd (List.mem_of_head? h) hc
      · exact absurd (List.mem_of_getLast? h) hc
      · exact absurd (h.subset List.mem_cons_self) hc
termination_by s.length

/-- Other characters than the one cut at are in a text when they are in a part of it. -/
theorem mem_iff_exists_mem_splitOn {c d : Char} (h : d ≠ c) (s : List Char) :
    d ∈ s ↔ ∃ part ∈ s.splitOn c, d ∈ part := by
  by_cases hc : c ∈ s
  · obtain ⟨front, back, rfl, hfront⟩ := List.eq_append_cons_of_mem hc
    rw [List.splitOn_append_cons_self_of_not_mem hfront, List.mem_append, List.mem_cons,
      or_iff_right h, mem_iff_exists_mem_splitOn h back]
    simp
  · rw [List.splitOn_eq_singleton hc]
    simp
termination_by s.length

/-- Parts that were joined by one character are joined by another one. -/
theorem map_intercalate {c d : Char} {parts : List (List Char)} (h : ∀ part ∈ parts, c ∉ part) :
    ([c].intercalate parts).map (fun a => if a = c then d else a) = [d].intercalate parts := by
  have hpart : ∀ part ∈ parts, part.map (fun a => if a = c then d else a) = part := by
    intro part hpart
    refine (List.map_congr_left fun a ha => if_neg ?_).trans (List.map_id _)
    rintro rfl
    exact h part hpart ha
  induction parts with
  | nil => rfl
  | cons part parts ih =>
    cases parts with
    | nil => simpa using hpart part List.mem_cons_self
    | cons next parts =>
      have hrest := ih (fun p hp => h p (List.mem_cons_of_mem _ hp))
        fun p hp => hpart p (List.mem_cons_of_mem _ hp)
      rw [List.intercalate_cons_cons, List.intercalate_cons_cons, List.map_append,
        List.map_append, hpart part List.mem_cons_self, hrest]
      simp

end Text
end FluentBuilders
