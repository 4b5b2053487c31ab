import FluentBuilders.Element.Written
import FluentBuilders.Json.Typed

/-! # Reading written strings

Reading a string, an optional string or a list of strings undoes writing it,
whatever characters it holds.  A character is written either as it is or by an
escape (`Spelling`), and each of the two is read back on its own; a written text
is then read back by induction.  No written text holds a control character,
which is what later keeps a written value on one line. -/
namespace FluentBuilders
namespace Json

/-! ## Characters -/

theorem hexValue?_hexDigit {n : Nat} (h : n < 16) : hexValue? (hexDigit n) = some n := by
  have hall : ∀ m < 16, hexValue? (hexDigit m) = some m := by decide
  exact hall n h

theorem hexDigit_printed {n : Nat} (h : n < 16) : 0x20 ≤ (hexDigit n).toNat := by
  have hall : ∀ m < 16, 0x20 ≤ (hexDigit m).toNat := by decide
  exact hall n h

/-- A text without control characters. -/
def IsPrinted (s : List Char) : Prop := ∀ c ∈ s, 0x20 ≤ c.toNat

theorem isPrinted_append {s t : List Char} : IsPrinted (s ++ t) ↔ IsPrinted s ∧ IsPrinted t :=
  List.forall_mem_append

theorem isPrinted_cons {c : Char} {s : List Char} :
    IsPrinted (c :: s) ↔ 0x20 ≤ c.toNat ∧ IsPrinted s :=
  List.forall_mem_cons

theorem IsPrinted.not_mem_lineFeed {s : List Char} (h : IsPrinted s) : '\n' ∉ s := by
  intro hm
  have := h '\n' hm
  revert this
  decide

/-- The ways to write a character inside a string. -/
inductive Spelling (c : Char) : List Char → Prop where
  /-- The character itself, which must not be read as anything else. -/
  | plain (hq : c ≠ '\"') (hb : c ≠ '\\') (hp : 0x20 ≤ c.toNat) : Spelling c [c]
  /-- A backslash and what `readEscape` takes for the character. -/
  | escaped (escape : List Char) (hp : IsPrinted escape)
      (hr : ∀ rest, readEscape (escape ++ rest) = .ok (c, rest)) : Spelling c ('\\' :: escape)

/-- A control character is read back from its number in four digits. -/
theorem numberedChar_control {c : Char} (hc : c.toNat < 0x20) (rest : Input) :
    numberedChar ('0' :: '0' :: hexDigit (c.toNat / 16) :: hexDigit (c.toNat % 16) :: rest) =
      .ok (c, rest) := by
  have h₀ : hexValue? '0' = some 0 := by decide
  have h₁ := hexValue?_hexDigit (n := c.toNat / 16) (by omega)
  have h₂ := hexValue?_hexDigit (n := c.toNat % 16) (Nat.mod_lt _ (by decide))
  have hn : ((0 * 16 + 0) * 16 + c.toNat / 16) * 16 + c.toNat % 16 = c.toNat := by omega
  have hq : hexQuad ('0' :: '0' :: hexDigit (c.toNat / 16) :: hexDigit (c.toNat % 16) :: rest) =
      .ok (c.toNat, rest) := by
    simp only [hexQuad, h₀, h₁, h₂, hn]
  have ht : isTrailing c.toNat = false := by simp only [isTrailing]; grind
  have hl : isLeading c.toNat = false := by simp only [isLeading]; grind
  simp only [numberedChar, hq, ht, hl, Bool.false_eq_true, if_false, Char.ofNat_toNat]

/-- Every character is written by one of its spellings. -/
theorem spelling_encodeChar (c : Char) : Spelling c (encodeChar c) := by
  have letter : ∀ l : Char, letterEscape? l = some c → 0x20 ≤ l.toNat → Spelling c ['\\', l] := by
    intro l hl hp
    refine .escaped [l] (isPrinted_cons.mpr ⟨hp, List.forall_mem_nil _⟩) ?_
    intro rest
    simp only [List.cons_append, List.nil_append, readEscape, hl]
  unfold encodeChar
  -- seven characters have an escape with a letter of its own
  split
  · next h => subst h; exact letter _ (by decide) (by decide)
  split
  · next h => subst h; exact letter _ (by decide) (by decide)
  split
  · next h => subst h; exact letter _ (by decide) (by decide)
  split
  · next h => subst h; exact letter _ (by decide) (by decide)
  split
  · next h => subst h; exact letter _ (by decide) (by decide)
  split
  · next h => subst h; exact letter _ (by decide) (by decide)
  split
  · next h => subst h; exact letter _ (by decide) (by decide)
  split
  · -- any other control is written by its number
    next hc =>
    have h₁ := hexDigit_printed (n := c.toNat / 16) (by omega)
    have h₂ := hexDigit_printed (n := c.toNat % 16) (Nat.mod_lt _ (by decide))
    refine .escaped _ ?_ fun rest => ?_
    · simp only [isPrinted_cons]
      exact ⟨by decide, by decide, by decide, h₁, h₂, List.forall_mem_nil _⟩
    · have hu : letterEscape? 'u' = none := by decide
      simp only [List.cons_append, List.nil_append, readEscape, hu, if_true]
      exact numberedChar_control hc rest
  · next hq hb _ _ _ _ _ hc => exact .plain hq hb (Nat.le_of_not_lt hc)

theorem Spelling.isPrinted {c : Char} {w : List Char} (h : Spelling c w) : IsPrinted w := by
  cases h with
  | plain _ _ hp => exact isPrinted_cons.mpr ⟨hp, List.forall_mem_nil _⟩
  | escaped escape hp _ => exact isPrinted_cons.mpr ⟨by decide, hp⟩

/-- An escape inside a string is read as the character it stands for. -/
theorem readChars_escape {c : Char} {s rest : Input} (h : readEscape s = .ok (c, rest)) :
    readChars ('\\' :: s) = (readChars rest).map fun p => (c :: p.1, p.2) := by
  rw [readChars, if_neg (by decide), if_pos rfl]
  split
  · next fault he => rw [h] at he; simp at he
  · next x rest' he =>
    rw [h] at he
    injection he with he
    injection he with hx hr
    rw [hx, hr]

/-- A character that is written as it is stands for itself. -/
theorem readChars_plain {c : Char} (hq : c ≠ '\"') (hb : c ≠ '\\') (hp : 0x20 ≤ c.toNat)
    (rest : Input) :
    readChars (c :: rest) = (readChars rest).map fun p => (c :: p.1, p.2) := by
  rw [readChars, if_neg hq, if_neg hb, if_neg (Nat.not_lt.mpr hp)]

/-- A spelling inside a string is read as its character. -/
theorem readChars_of_spelling {c : Char} {w : List Char} (h : Spelling c w) (rest : Input) :
    readChars (w ++ rest) = (readChars rest).map fun p => (c :: p.1, p.2) := by
  cases h with
  | plain hq hb hp => exact readChars_plain hq hb hp rest
  | escaped escape _ hr => exact readChars_escape (hr rest)

/-! ## Strings -/

/-- **Reading undoes writing**, up to the closing quote of the string. -/
theorem readChars_encode (s : List Char) (rest : Input) :
    readChars (s.flatMap encodeChar ++ '\"' :: rest) = .ok (s, rest) := by
  induction s with
  | nil => rw [List.flatMap_nil, List.nil_append, readChars, if_pos rfl]
  | cons c s ih =>
    rw [List.flatMap_cons, List.append_assoc, readChars_of_spelling (spelling_encodeChar c), ih]
    rfl

theorem isPrinted_encode (s : List Char) : IsPrinted (encode s) := by
  refine isPrinted_cons.mpr ⟨by decide, isPrinted_append.mpr ⟨?_, ?_⟩⟩
  · intro d hd
    obtain ⟨c, _, hdc⟩ := List.mem_flatMap.mp hd
    exact (spelling_encodeChar c).isPrinted d hdc
  · exact isPrinted_cons.mpr ⟨by decide, List.forall_mem_nil _⟩

theorem encode_append (s rest : List Char) :
    encode s ++ rest = '\"' :: (s.flatMap encodeChar ++ '\"' :: rest) := by
  rw [encode, List.cons_append, List.append_assoc, List.singleton_append]

/-- A quote is no blank. -/
theorem skipSpace_quote (s : Input) : skipSpace ('\"' :: s) = '\"' :: s := rfl

theorem readText_encode (s : String) (rest : Input) :
    readText (encode s.toList ++ rest) = .ok (s, rest) := by
  rw [encode_append, readText, skipSpace_quote]
  dsimp only
  rw [if_pos rfl, readChars_encode]
  simp only [Except.map, String.ofList_toList]

theorem readOptionalText_encode (s : String) (rest : Input) :
    readOptionalText (encode s.toList ++ rest) = .ok (some s, rest) := by
  have hr := readText_encode s rest
  rw [encode_append] at hr ⊢
  rw [readOptionalText, skipSpace_quote]
  dsimp only
  rw [if_neg (by decide), hr]
  rfl

/-! ## Lists of strings -/

/-- The items of a list when there is another one. -/
theorem readItems_of_more {first : Bool} {s rest rest' : Input} {x : String}
    (hn : nextItem first s = .ok (true, rest)) (hx : readText rest = .ok (x, rest')) :
    readItems first s = (readItems false rest').map fun p => (x :: p.1, p.2) := by
  rw [readItems]
  split
  · next he => rw [hn] at he; simp at he
  · next he => rw [hn] at he; simp at he
  · next s he =>
    obtain rfl : rest = s := by rw [hn] at he; simpa using he
    split
    · next he => rw [hx] at he; simp at he
    · next y s he =>
      obtain ⟨rfl, rfl⟩ : x = y ∧ rest' = s := by rw [hx] at he; simpa using he
      rfl

/-- The items of a list at its end. -/
theorem readItems_of_end {first : Bool} {s rest : Input}
    (hn : nextItem first s = .ok (false, rest)) : readItems first s = .ok ([], rest) := by
  rw [readItems]
  split
  · next he => rw [hn] at he; simp at he
  · next s he =>
    obtain rfl : rest = s := by rw [hn] at he; simpa using he
    rfl
  · next he => rw [hn] at he; simp at he

/-- What stands between an item and the one before it, if there is one. -/
def separator : Bool → List Char
  | true => []
  | false => [',']

theorem nextItem_separator (first : Bool) (s : Input) :
    nextItem first (separator first ++ '\"' :: s) = .ok (true, '\"' :: s) := by
  cases first <;> rfl

/-- One more item is read. -/
theorem readItems_item (first : Bool) (x : String) (rest : Input) :
    readItems first (separator first ++ (encode x.toList ++ rest)) =
      (readItems false rest).map fun p => (x :: p.1, p.2) := by
  have hx := readText_encode x rest
  rw [encode_append] at hx ⊢
  exact readItems_of_more (nextItem_separator first _) hx

theorem readItems_end (first : Bool) (rest : Input) :
    readItems first (']' :: rest) = .ok ([], rest) :=
  readItems_of_end rfl

/-- What comes after the first item is read one separator and item at a time. -/
theorem readItems_further (xs : List String) (rest : Input) :
    readItems false ((xs.flatMap fun x => ',' :: encode x.toList) ++ ']' :: rest) =
      .ok (xs, rest) := by
  induction xs with
  | nil => exact readItems_end false rest
  | cons x xs ih =>
    rw [List.flatMap_cons, List.append_assoc, List.cons_append]
    rw [← List.singleton_append]
    refine (readItems_item false x _).trans ?_
    rw [ih]
    rfl

theorem intercalate_cons (x : List Char) (xs : List (List Char)) :
    List.intercalate [','] (x :: xs) = x ++ xs.flatMap fun y => ',' :: y := by
  induction xs generalizing x with
  | nil => rw [List.intercalate_singleton, List.flatMap_nil, List.append_nil]
  | cons y ys ih =>
    rw [List.intercalate_cons_cons, ih, List.flatMap_cons, List.append_assoc,
      List.singleton_append, List.cons_append]

/-- **A written list of strings is read back**, with what follows it left over. -/
theorem readTexts_texts (xs : List String) (rest : Input) :
    readTexts (texts xs ++ rest) = .ok (xs, rest) := by
  have hs : ∀ s, skipSpace ('[' :: s) = '[' :: s := fun _ => rfl
  rw [texts, List.cons_append, List.append_assoc, List.singleton_append, readTexts, hs]
  dsimp only
  rw [if_pos rfl]
  cases xs with
  | nil => exact readItems_end true rest
  | cons x xs =>
    rw [List.map_cons, intercalate_cons, List.flatMap_map, List.append_assoc]
    refine (readItems_item true x _).trans ?_
    rw [readItems_further]
    rfl

theorem isPrinted_intercalate {parts : List (List Char)} (h : ∀ p ∈ parts, IsPrinted p) :
    IsPrinted (List.intercalate [','] parts) := by
  cases parts with
  | nil => exact List.forall_mem_nil _
  | cons p parts =>
    rw [intercalate_cons]
    refine isPrinted_append.mpr ⟨h p List.mem_cons_self, ?_⟩
    intro d hd
    obtain ⟨q, hq, hdq⟩ := List.mem_flatMap.mp hd
    exact isPrinted_cons.mpr ⟨by decide, h q (List.mem_cons_of_mem p hq)⟩ d hdq

theorem isPrinted_texts (xs : List String) : IsPrinted (texts xs) := by
  refine isPrinted_cons.mpr ⟨by decide, isPrinted_append.mpr ⟨?_, ?_⟩⟩
  · apply isPrinted_intercalate
    intro p hp
    obtain ⟨x, _, rfl⟩ := List.mem_map.mp hp
    exact isPrinted_encode x.toList
  · exact isPrinted_cons.mpr ⟨by decide, List.forall_mem_nil _⟩

end Json
end FluentBuilders
