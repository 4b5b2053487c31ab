import Mathlib.Data.List.Infix

/-! # Nested brackets

A text is well nested when every bracket in it is closed by one of its kind (`Nested`).  A
count of the braces then never falls below zero, and it stays within the height of the
nesting (`Nested.depth_bounds`).

The source of a class is such a text of the height 2.  Its body is a row of blocks that do
not lie in each other (`IsBody`), and rows of blocks are put together by
`IsBody.append`.  With a front and the braces of the class around it, a body becomes a
class (`IsBody.isClass`): the depth is zero in front of it and behind it, and it rises from
1 to 2 once for each block. -/
namespace FluentBuilders
namespace BuilderClass

/-! ## Nested brackets -/

/-- The brackets of a source. -/
def brackets : List Char := ['(', ')', '\x7b', '\x7d']

/-- The brackets of a text are well nested, with at most `height` pairs of braces around
each other. -/
inductive Nested : Nat → List Char → Prop
  | nil {height : Nat} : Nested height []
  | plain {height : Nat} {c : Char} {s : List Char} (hc : c ∉ brackets)
      (h : Nested height s) : Nested height (c :: s)
  | round {height : Nat} {inner s : List Char} (hinner : Nested height inner)
      (h : Nested height s) : Nested height ('(' :: (inner ++ ')' :: s))
  | curly {height : Nat} {inner s : List Char} (hinner : Nested height inner)
      (h : Nested (height + 1) s) : Nested (height + 1) ('\x7b' :: (inner ++ '\x7d' :: s))

/-- A text without brackets. -/
def Unbracketed (s : List Char) : Prop := ∀ c ∈ s, c ∉ brackets

instance (s : List Char) : Decidable (Unbracketed s) :=
  List.decidableBAll (fun c => c ∉ brackets) s

theorem Unbracketed.nested {s : List Char} (h : Unbracketed s) (height : Nat) :
    Nested height s := by
  induction s with
  | nil => exact .nil
  | cons c s ih =>
    obtain ⟨hc, hs⟩ := List.forall_mem_cons.mp h
    exact .plain hc (ih hs)

theorem Nested.append {height : Nat} {s t : List Char} (hs : Nested height s)
    (ht : Nested height t) : Nested height (s ++ t) := by
  induction hs with
  | nil => exact ht
  | plain hc _ ih => exact .plain hc (ih ht)
  | round hinner _ _ ih =>
    rw [List.cons_append, List.append_assoc]
    exact .round hinner (ih ht)
  | curly hinner _ _ ih =>
    rw [List.cons_append, List.append_assoc]
    exact .curly hinner (ih ht)

theorem nested_lineFeed (height : Nat) : Nested height ['\n'] := .plain (by decide) .nil

/-- More braces are allowed. -/
theorem Nested.succ {height : Nat} {s : List Char} (h : Nested height s) :
    Nested (height + 1) s := by
  induction h with
  | nil => exact .nil
  | plain hc _ ih => exact .plain hc ih
  | round _ _ ihinner ih => exact .round ihinner ih
  | curly _ _ ihinner ih => exact .curly ihinner ih

/-- No brace is allowed at the height 0. -/
theorem Nested.brace_not_mem {s : List Char} (h : Nested 0 s) : '\x7b' ∉ s := by
  generalize hheight : 0 = height at h
  induction h with
  | nil => exact List.not_mem_nil
  | @plain _ c s hc _ ih =>
    rw [List.mem_cons, not_or]
    refine ⟨fun heq => hc ?_, ih hheight⟩
    rw [← heq]
    decide
  | round _ _ ihinner ih =>
    simp only [List.mem_cons, List.mem_append, not_or]
    exact ⟨by decide, ihinner hheight, by decide, ih hheight⟩
  | curly => cases hheight

/-! ## Depth -/

/-- What a character adds to the number of open braces. -/
def weight (c : Char) : Int :=
  if c = '\x7b' then 1 else if c = '\x7d' then -1 else 0

/-- The number of braces that a text opens and does not close. -/
def depth : List Char → Int
  | [] => 0
  | c :: s => weight c + depth s

@[simp] theorem depth_nil : depth [] = 0 := rfl

@[simp] theorem depth_cons (c : Char) (s : List Char) :
    depth (c :: s) = weight c + depth s := rfl

@[simp] theorem depth_append (s t : List Char) : depth (s ++ t) = depth s + depth t := by
  induction s with
  | nil => rw [List.nil_append, depth_nil, Int.zero_add]
  | cons c s ih => rw [List.cons_append, depth_cons, depth_cons, ih, Int.add_assoc]

@[simp] theorem weight_opening : weight '\x7b' = 1 := rfl

@[simp] theorem weight_closing : weight '\x7d' = -1 := rfl

theorem weight_of_not_mem_brackets {c : Char} (h : c ∉ brackets) : weight c = 0 := by
  simp only [brackets, List.mem_cons, not_or] at h
  rw [weight, if_neg h.2.2.1, if_neg h.2.2.2.1]

/-- A prefix of two texts ends in the first one or in the second one. -/
theorem prefix_of_append {s t p : List Char} (h : p <+: s ++ t) :
    p <+: s ∨ ∃ q, q <+: t ∧ p = s ++ q := by
  obtain ⟨rest, hrest⟩ := h
  rcases List.append_eq_append_iff.mp hrest with ⟨a, hs, -⟩ | ⟨q, hp, ht⟩
  · exact .inl ⟨a, hs.symm⟩
  · exact .inr ⟨q, ⟨rest, ht.symm⟩, hp⟩

/-- A prefix of a text that starts with a pair of brackets. -/
theorem prefix_of_pair {first last : Char} {inner s p : List Char}
    (h : p <+: first :: (inner ++ last :: s)) :
    p = [] ∨ (∃ q, q <+: inner ∧ p = first :: q) ∨
      ∃ q, q <+: s ∧ p = first :: (inner ++ last :: q) := by
  rcases List.prefix_cons_iff.mp h with rfl | ⟨q, rfl, hq⟩
  · exact .inl rfl
  rcases prefix_of_append hq with hq | ⟨r, hr, rfl⟩
  · exact .inr (.inl ⟨q, hq, rfl⟩)
  rcases List.prefix_cons_iff.mp hr with rfl | ⟨r', rfl, hr⟩
  · exact .inr (.inl ⟨inner, List.prefix_rfl, by rw [List.append_nil]⟩)
  · exact .inr (.inr ⟨r', (List.cons_prefix_cons.mp hr).2, rfl⟩)

theorem Nested.depth_eq_zero {height : Nat} {s : List Char} (h : Nested height s) :
    depth s = 0 := by
  induction h with
  | nil => rfl
  | plain hc _ ih => rw [depth_cons, weight_of_not_mem_brackets hc, ih]; rfl
  | round _ _ ihinner ih =>
    rw [depth_cons, depth_append, depth_cons, ihinner, ih]
    rfl
  | curly _ _ ihinner ih =>
    rw [depth_cons, depth_append, depth_cons, ihinner, ih]
    rfl

/-- **The depth along a nested text** is never below zero and never above the height. -/
theorem Nested.depth_bounds {height : Nat} {s p : List Char} (h : Nested height s)
    (hp : p <+: s) : 0 ≤ depth p ∧ depth p ≤ height := by
  induction h generalizing p with
  | nil =>
    rw [List.prefix_nil.mp hp, depth_nil]
    omega
  | plain hc _ ih =>
    rcases List.prefix_cons_iff.mp hp with rfl | ⟨q, rfl, hq⟩
    · rw [depth_nil]
      omega
    · rw [depth_cons, weight_of_not_mem_brackets hc, Int.zero_add]
      exact ih hq
  | round hinner _ ihinner ih =>
    have hopen : weight '(' = 0 := rfl
    have hclose : weight ')' = 0 := rfl
    rcases prefix_of_pair hp with rfl | ⟨q, hq, rfl⟩ | ⟨q, hq, rfl⟩
    · rw [depth_nil]
      omega
    · have := ihinner hq
      rw [depth_cons]
      omega
    · have := ih hq
      rw [depth_cons, depth_append, depth_cons, hinner.depth_eq_zero]
      omega
  | curly hinner _ ihinner ih =>
    rcases prefix_of_pair hp with rfl | ⟨q, hq, rfl⟩ | ⟨q, hq, rfl⟩
    · rw [depth_nil]
      omega
    · have := ihinner hq
      rw [depth_cons, weight_opening]
      omega
    · have := ih hq
      rw [depth_cons, depth_append, depth_cons, hinner.depth_eq_zero, weight_opening,
        weight_closing]
      omega

/-- The number of characters of a text that take the depth from 1 to 2, where `start` is
the depth in front of the text. -/
def rises (start : Int) : List Char → Nat
  | [] => 0
  | c :: s => (if start = 1 ∧ start + weight c = 2 then 1 else 0) + rises (start + weight c) s

theorem rises_append (start : Int) (s t : List Char) :
    rises start (s ++ t) = rises start s + rises (start + depth s) t := by
  induction s generalizing start with
  | nil => rw [List.nil_append, rises, depth_nil, Int.add_zero, Nat.zero_add]
  | cons c s ih =>
    rw [List.cons_append, rises, rises, ih, depth_cons, Int.add_assoc, Nat.add_assoc]

/-- Nothing but an opening brace takes the depth up. -/
theorem rises_eq_zero {s : List Char} (h : '\x7b' ∉ s) (start : Int) : rises start s = 0 := by
  induction s generalizing start with
  | nil => rfl
  | cons c s ih =>
    rw [List.mem_cons, not_or] at h
    have hweight : weight c ≤ 0 := by
      rw [weight, if_neg (Ne.symm h.1)]
      split <;> decide
    have hstep : ¬ (start = 1 ∧ start + weight c = 2) := by omega
    rw [rises, if_neg hstep, ih h.2]

/-- An opening brace takes it up to 2 when it is 1. -/
theorem rises_opening (start : Int) (s : List Char) :
    rises start ('\x7b' :: s) = (if start = 1 then 1 else 0) + rises (start + 1) s := by
  have hstep : (start = 1 ∧ start + 1 = 2) ↔ start = 1 := by omega
  rw [rises, weight_opening]
  simp only [hstep]

/-! ## Bodies and classes -/

/-- A piece of the body of a class, with a number of blocks in it that do not lie in each
other. -/
structure IsBody (blocks : Nat) (s : List Char) : Prop where
  nested : Nested 1 s
  rises_eq : rises 1 s = blocks

/-- A class: its front, its body in a pair of braces and a line feed. -/
structure IsClass (front body : List Char) (blocks : Nat) (text : List Char) : Prop where
  text_eq : text = front ++ '\x7b' :: (body ++ ['\x7d', '\n'])
  nested : Nested 2 text
  depth_bounds : ∀ p, p <+: text → 0 ≤ depth p ∧ depth p ≤ 2
  /-- No brace is open until the body starts, and none again as soon as it is closed. -/
  depth_eq_zero_iff : ∀ p, p <+: text →
    (depth p = 0 ↔ p <+: front ∨ front ++ '\x7b' :: (body ++ ['\x7d']) <+: p)
  rises_eq : rises 0 text = blocks

theorem isBody_nil : IsBody 0 [] := ⟨.nil, rfl⟩

/-- Pieces of a body follow each other. -/
theorem IsBody.append {m n : Nat} {s t : List Char} (hs : IsBody m s) (ht : IsBody n t) :
    IsBody (m + n) (s ++ t) where
  nested := hs.nested.append ht.nested
  rises_eq := by
    rw [rises_append, hs.nested.depth_eq_zero, Int.add_zero, hs.rises_eq, ht.rises_eq]

/-- A block with nothing but text without braces in it and around it. -/
theorem isBody_frame {front inner back : List Char} (hfront : Nested 0 front)
    (hinner : Nested 0 inner) (hback : Nested 0 back) :
    IsBody 1 (front ++ '\x7b' :: (inner ++ '\x7d' :: back)) where
  nested := hfront.succ.append (.curly hinner hback.succ)
  rises_eq := by
    have hafter : '\x7b' ∉ inner ++ '\x7d' :: back := by
      simp only [List.mem_append, List.mem_cons, not_or]
      exact ⟨hinner.brace_not_mem, by decide, hback.brace_not_mem⟩
    rw [rises_append, hfront.depth_eq_zero, rises_eq_zero hfront.brace_not_mem, Int.add_zero,
      rises_opening, rises_eq_zero hafter]
    rfl

/-- The depth is zero in front of a class and behind it, and nowhere else. -/
theorem IsBody.depth_class_eq_zero_iff {blocks : Nat} {front body p : List Char}
    (hbody : IsBody blocks body) (hfront : Nested 0 front)
    (hp : p <+: front ++ '\x7b' :: (body ++ ['\x7d', '\n'])) :
    depth p = 0 ↔ p <+: front ∨ front ++ '\x7b' :: (body ++ ['\x7d']) <+: p := by
  rcases prefix_of_append hp with hp | ⟨q, hq, rfl⟩
  · have hdepth := hfront.depth_bounds hp
    exact iff_of_true (by omega) (.inl hp)
  rw [depth_append, hfront.depth_eq_zero, Int.zero_add, List.prefix_append_right_inj]
  rcases prefix_of_pair hq with rfl | ⟨r, hr, rfl⟩ | ⟨r, hr, rfl⟩
  · rw [List.append_nil]
    exact iff_of_true rfl (.inl List.prefix_rfl)
  · -- a prefix that ends in the body is longer than the front and shorter than the class
    have hdepth := hbody.nested.depth_bounds hr
    have hlength := hr.length_le
    rw [depth_cons, weight_opening]
    refine iff_of_false (by omega) ?_
    rintro (hshort | hlong)
    · have hle := hshort.length_le
      rw [List.length_append, List.length_cons] at hle
      omega
    · have hle := (List.cons_prefix_cons.mp hlong).2.length_le
      rw [List.length_append, List.length_singleton] at hle
      omega
  · have hdepth := (nested_lineFeed 0).depth_bounds hr
    rw [depth_cons, depth_append, depth_cons, hbody.nested.depth_eq_zero, weight_opening,
      weight_closing, List.cons_prefix_cons, List.prefix_append_right_inj, List.cons_prefix_cons]
    exact iff_of_true (by omega) (.inr ⟨rfl, rfl, List.nil_prefix⟩)

/-- **A class is a frame around its body**: the braces of the body lie one deeper, and
only the class itself opens at the depth 0. -/
theorem IsBody.isClass {blocks : Nat} {front body : List Char} (hbody : IsBody blocks body)
    (hfront : Nested 0 front) :
    IsClass front body blocks (front ++ '\x7b' :: (body ++ ['\x7d', '\n'])) := by
  have hnested : Nested 2 (front ++ '\x7b' :: (body ++ ['\x7d', '\n'])) :=
    hfront.succ.succ.append (.curly hbody.nested (nested_lineFeed 2))
  have hrises : rises 0 (front ++ '\x7b' :: (body ++ ['\x7d', '\n'])) = blocks := by
    have hback : '\x7b' ∉ ['\x7d', '\n'] := by decide
    rw [rises_append, hfront.depth_eq_zero, rises_eq_zero hfront.brace_not_mem, Int.add_zero,
      rises_opening, Int.zero_add, rises_append, hbody.rises_eq, rises_eq_zero hback,
      if_neg Int.zero_ne_one, Nat.zero_add, Nat.zero_add, Nat.add_zero]
  exact ⟨rfl, hnested, fun p hp => hnested.depth_bounds hp,
    fun p hp => hbody.depth_class_eq_zero_iff hfront hp, hrises⟩

end BuilderClass
end FluentBuilders
