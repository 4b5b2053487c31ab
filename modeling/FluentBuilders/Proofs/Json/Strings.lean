import FluentBuilders.Json.Ignored
import FluentBuilders.Proofs.Json.Grammar
import FluentBuilders.Proofs.WrittenText

/-! # Strings and their grammar

The two readers of strings take exactly the texts of the grammar.  One of them only
passes over a string and takes every row of pieces; the other one wants the characters and
takes the rows that have some.  Escapes come first, then the rows. -/
namespace FluentBuilders
namespace Json

/-! ## Digits and letters -/

theorem hexValue?_eq_some_iff {c : Char} {n : Nat} :
    hexValue? c = some n ↔ (c, n) ∈ hexDigits := by
  constructor
  · intro h
    have hall : ∀ k < 128, ∀ m ∈ hexValue? (Char.ofNat k), (Char.ofNat k, m) ∈ hexDigits := by
      decide
    have hc : c.toNat < 128 := by
      have hle : ∀ d : Char, c ≤ d → c.toNat ≤ d.toNat := fun d hd => hd
      unfold hexValue? at h
      split at h
      · next hd => exact Nat.lt_of_le_of_lt (hle _ hd.2) (by decide)
      split at h
      · next hd => exact Nat.lt_of_le_of_lt (hle _ hd.2) (by decide)
      split at h
      · next hd => exact Nat.lt_of_le_of_lt (hle _ hd.2) (by decide)
      · simp at h
    have hm := hall c.toNat hc n
    rw [Char.ofNat_toNat] at hm
    exact hm h
  · intro h
    have hall : ∀ p ∈ hexDigits, hexValue? p.1 = some p.2 := by decide
    exact hall (c, n) h

theorem letterEscape?_eq_some_iff {l c : Char} :
    letterEscape? l = some c ↔ (l, c) ∈ escapeLetters := by
  constructor
  · intro h
    unfold letterEscape? at h
    unfold escapeLetters
    grind
  · intro h
    have hall : ∀ p ∈ escapeLetters, letterEscape? p.1 = some p.2 := by decide
    exact hall (l, c) h

theorem hexQuad_quad {n : Nat} {q : List Char} (h : IsQuad n q) (r : Input) :
    hexQuad (q ++ r) = .ok (n, r) := by
  cases h with
  | digits ha hb hc hd =>
    simp only [hexQuad, List.cons_append, List.nil_append, hexValue?_eq_some_iff.mpr ha,
      hexValue?_eq_some_iff.mpr hb, hexValue?_eq_some_iff.mpr hc, hexValue?_eq_some_iff.mpr hd]

theorem hexQuad_ok {s r : Input} {n : Nat} (h : hexQuad s = .ok (n, r)) :
    ∃ q, IsQuad n q ∧ s = q ++ r := by
  unfold hexQuad at h
  dsimp only at h
  split at h
  · split at h
    · next a b c d rest _ _ _ _ i j k l ha hb hc hd =>
      injection h with h
      injection h with hn hr
      subst hn hr
      exact ⟨_, .digits (hexValue?_eq_some_iff.mp ha) (hexValue?_eq_some_iff.mp hb)
        (hexValue?_eq_some_iff.mp hc) (hexValue?_eq_some_iff.mp hd), rfl⟩
    · simp at h
  · simp at h

theorem IsQuad.lt {n : Nat} {q : List Char} (h : IsQuad n q) : n < 0x10000 := by
  cases h with
  | digits ha hb hc hd =>
    have hall : ∀ p ∈ hexDigits, p.2 < 16 := by decide
    have h₁ := hall _ ha
    have h₂ := hall _ hb
    have h₃ := hall _ hc
    have h₄ := hall _ hd
    dsimp only at h₁ h₂ h₃ h₄
    omega

theorem isLeading_iff {n : Nat} : isLeading n = true ↔ IsHighHalf n := by
  simp only [isLeading, IsHighHalf, Bool.and_eq_true, decide_eq_true_eq]

theorem isTrailing_iff {n : Nat} : isTrailing n = true ↔ IsLowHalf n := by
  simp only [isTrailing, IsLowHalf, Bool.and_eq_true, decide_eq_true_eq]

/-- The number of four digits is that of a character or of half a surrogate pair. -/
theorem IsQuad.isValidChar_iff {n : Nat} {q : List Char} (h : IsQuad n q) :
    n.isValidChar ↔ ¬ IsHighHalf n ∧ ¬ IsLowHalf n := by
  have hn := h.lt
  simp only [Nat.isValidChar, IsHighHalf, IsLowHalf]
  omega

/-! ## Escapes -/

theorem secondHalf_ok_iff {n : Nat} {s r : Input} {x : Char} :
    secondHalf n s = .ok (x, r) ↔ ∃ m q, IsQuad m q ∧ IsLowHalf m ∧ x = joinSurrogates n m ∧
      s = '\\' :: 'u' :: (q ++ r) := by
  constructor
  · intro h
    unfold secondHalf at h
    split at h
    · simp at h
    · next c rest =>
      split at h
      · simp at h
      · next hc =>
        obtain rfl := Decidable.not_not.mp hc
        split at h
        · simp at h
        · next u quad =>
          split at h
          · simp at h
          · next hu =>
            obtain rfl := Decidable.not_not.mp hu
            split at h
            · simp at h
            · next m rest' hquad =>
              obtain ⟨q, hq, rfl⟩ := hexQuad_ok hquad
              split at h
              · next hm =>
                injection h with h
                injection h with hx hr
                subst hx hr
                exact ⟨m, q, hq, isTrailing_iff.mp hm, rfl, rfl⟩
              · simp at h
  · rintro ⟨m, q, hq, hm, hx, rfl⟩
    simp only [secondHalf, ne_eq, not_true, if_false, hexQuad_quad hq r, isTrailing_iff.mpr hm, if_true, hx]

theorem numberedChar_unit {n : Nat} {q : List Char} (hq : IsQuad n q) (hn : n.isValidChar)
    (r : Input) : numberedChar (q ++ r) = .ok (Char.ofNat n, r) := by
  obtain ⟨hhigh, hlow⟩ := hq.isValidChar_iff.mp hn
  simp only [numberedChar, hexQuad_quad hq r, isTrailing_iff, isLeading_iff, hhigh, hlow, if_false]

theorem numberedChar_pair {n m : Nat} {q p : List Char} (hq : IsQuad n q) (hp : IsQuad m p)
    (hn : IsHighHalf n) (hm : IsLowHalf m) (r : Input) :
    numberedChar (q ++ '\\' :: 'u' :: (p ++ r)) = .ok (joinSurrogates n m, r) := by
  have hlow : ¬ IsLowHalf n := by
    simp only [IsHighHalf, IsLowHalf] at hn ⊢
    omega
  simp only [numberedChar, hexQuad_quad hq, isTrailing_iff, isLeading_iff, hn, hlow, if_false,
    if_true]
  exact secondHalf_ok_iff.mpr ⟨m, p, hp, hm, rfl, rfl⟩

/-- An escape with a number is that of a character, or it is the first half of a surrogate
pair whose second half follows. -/
theorem numberedChar_ok {s r : Input} {x : Char} (h : numberedChar s = .ok (x, r)) :
    ∃ n q, IsQuad n q ∧ ((n.isValidChar ∧ x = Char.ofNat n ∧ s = q ++ r) ∨
      (IsHighHalf n ∧ ∃ m p, IsQuad m p ∧ IsLowHalf m ∧ x = joinSurrogates n m ∧
        s = q ++ '\\' :: 'u' :: (p ++ r))) := by
  unfold numberedChar at h
  split at h
  · simp at h
  · next n rest hquad =>
    obtain ⟨q, hq, rfl⟩ := hexQuad_ok hquad
    split at h
    · simp at h
    · next hl =>
      split at h
      · next hn =>
        obtain ⟨m, p, hp, hm, hx, rfl⟩ := secondHalf_ok_iff.mp h
        exact ⟨n, q, hq, .inr ⟨isLeading_iff.mp hn, m, p, hp, hm, hx, rfl⟩⟩
      · next hn =>
        injection h with h
        injection h with hx hr
        subst hx hr
        have hvalid := hq.isValidChar_iff.mpr
          ⟨fun h => hn (isLeading_iff.mpr h), fun h => hl (isTrailing_iff.mpr h)⟩
        exact ⟨n, q, hq, .inl ⟨hvalid, rfl, rfl⟩⟩

theorem readEscape_letter {l c : Char} (h : (l, c) ∈ escapeLetters) (r : Input) :
    readEscape (l :: r) = .ok (c, r) := by
  simp only [readEscape, letterEscape?_eq_some_iff.mpr h]

theorem readEscape_number (s : Input) : readEscape ('u' :: s) = numberedChar s := by
  have hu : letterEscape? 'u' = none := by decide
  simp only [readEscape, hu, if_true]

theorem readEscape_ok {s r : Input} {x : Char} (h : readEscape s = .ok (x, r)) :
    (∃ l, (l, x) ∈ escapeLetters ∧ s = l :: r) ∨
      ∃ t, numberedChar t = .ok (x, r) ∧ s = 'u' :: t := by
  unfold readEscape at h
  split at h
  · simp at h
  · next l rest =>
    split at h
    · next y hl =>
      injection h with h
      injection h with hx hr
      subst hx hr
      exact .inl ⟨l, letterEscape?_eq_some_iff.mp hl, rfl⟩
    · split at h
      · next hu => exact .inr ⟨rest, h, hu ▸ rfl⟩
      · simp at h

theorem skipEscape_ok_iff {s r : Input} :
    skipEscape s = .ok r ↔ ∃ p t, IsPiece p ('\\' :: t) ∧ s = t ++ r := by
  constructor
  · intro h
    unfold skipEscape at h
    split at h
    · simp at h
    · next l rest =>
      split at h
      · next y hl =>
        injection h with h
        subst h
        exact ⟨_, [l], .letter (letterEscape?_eq_some_iff.mp hl), rfl⟩
      · split at h
        · next hu =>
          obtain ⟨n, hn⟩ := map_snd_ok h
          obtain ⟨q, hq, rfl⟩ := hexQuad_ok hn
          exact ⟨.unit n, 'u' :: q, .unit hq, hu ▸ rfl⟩
        · simp at h
  · rintro ⟨p, t, hp, rfl⟩
    cases hp with
    | plain _ hb _ => exact absurd rfl hb
    | letter hl =>
      simp only [skipEscape, List.singleton_append, letterEscape?_eq_some_iff.mpr hl]
    | @unit n q hq =>
      have hu : letterEscape? 'u' = none := by decide
      simp only [skipEscape, List.cons_append, hu, if_true, hexQuad_quad hq r, Except.map]

/-! ## Rows of pieces -/

/-- A piece is a character that is written as it is, or it starts with a backslash. -/
theorem IsPiece.plain_or_escape {p : Piece} {s : List Char} (h : IsPiece p s) :
    (∃ c, c ≠ '\"' ∧ c ≠ '\\' ∧ 0x20 ≤ c.toNat ∧ s = [c]) ∨ ∃ e, s = '\\' :: e := by
  cases h with
  | plain hq hb hp => exact .inl ⟨_, hq, hb, hp, rfl⟩
  | letter _ => exact .inr ⟨_, rfl⟩
  | unit _ => exact .inr ⟨_, rfl⟩

/-- A row of characters that are written as they are. -/
theorem isContent_plain {s : List Char}
    (h : (s.all fun c => c ≠ '\"' ∧ c ≠ '\\' ∧ 0x20 ≤ c.toNat) = true) :
    IsContent (s.map .character) s := by
  induction s with
  | nil => exact .nil
  | cons c s ih =>
    rw [List.all_cons, Bool.and_eq_true, decide_eq_true_eq] at h
    obtain ⟨⟨hq, hb, hp⟩, hs⟩ := h
    exact .cons (.plain hq hb hp) (ih hs)

theorem content?_unit {n : Nat} (h : n.isValidChar) (ps : List Piece) :
    content? (.unit n :: ps) = (content? ps).map (Char.ofNat n :: ·) := by
  rw [content?.eq_def]
  dsimp only
  rw [if_pos h]

theorem content?_pair {n m : Nat} (hn : IsHighHalf n) (hm : IsLowHalf m) (ps : List Piece) :
    content? (.unit n :: .unit m :: ps) = (content? ps).map (joinSurrogates n m :: ·) := by
  have hinvalid : ¬ n.isValidChar := by
    simp only [Nat.isValidChar, IsHighHalf] at hn ⊢
    omega
  rw [content?.eq_def]
  dsimp only
  rw [if_neg hinvalid, if_pos ⟨hn, hm⟩]
  rfl

/-- The characters of a row of pieces are read up to the quote behind it. -/
theorem readChars_content {ps : List Piece} {t x : List Char} (ht : IsContent ps t)
    (hx : content? ps = some x) (r : Input) : readChars (t ++ '\"' :: r) = .ok (x, r) := by
  -- as in the definition, two halves of a surrogate pair are one step
  fun_induction content? ps generalizing t x with
  | case1 =>
    cases ht
    injection hx with hx
    subst hx
    rw [List.nil_append, readChars, if_pos rfl]
  | case2 c ps ih =>
    obtain ⟨y, hy, rfl⟩ := Option.map_eq_some_iff.mp hx
    cases ht with
    | cons hp hrest =>
      rw [List.append_assoc]
      cases hp with
      | plain hq hb hc =>
        rw [List.singleton_append, readChars_plain hq hb hc, ih hrest hy]
        rfl
      | letter hl =>
        rw [List.cons_append, List.singleton_append, readChars_escape (readEscape_letter hl _),
          ih hrest hy]
        rfl
  | case3 n ps hn ih =>
    obtain ⟨y, hy, rfl⟩ := Option.map_eq_some_iff.mp hx
    cases ht with
    | cons hp hrest =>
      cases hp with
      | unit hq =>
        have he (r : Input) := (readEscape_number _).trans (numberedChar_unit hq hn r)
        rw [List.append_assoc, List.cons_append, List.cons_append, readChars_escape (he _),
          ih hrest hy]
        rfl
  | case4 n _ m ps hpair ih =>
    obtain ⟨y, hy, rfl⟩ := Option.map_eq_some_iff.mp hx
    cases ht with
    | cons hp hrest =>
      cases hp with
      | unit hq =>
        cases hrest with
        | cons hp' hrest =>
          cases hp' with
          | unit hq' =>
            have he (r : Input) :=
              (readEscape_number _).trans (numberedChar_pair hq hq' hpair.1 hpair.2 r)
            simp only [List.append_assoc, List.cons_append]
            rw [readChars_escape (he _), ih hrest hy]
            rfl
  | case5 | case6 => simp at hx

theorem skipChars_escape {s rest : Input} (h : skipEscape s = .ok rest) :
    skipChars ('\\' :: s) = skipChars rest := by
  rw [skipChars, if_neg (by decide), if_pos rfl]
  split
  · next fault he => rw [h] at he; simp at he
  · next rest' he =>
    rw [h] at he
    injection he with he
    rw [he]

/-- A row of pieces is passed over up to the quote behind it. -/
theorem skipChars_content {ps : List Piece} {t : List Char} (h : IsContent ps t) (r : Input) :
    skipChars (t ++ '\"' :: r) = .ok r := by
  induction h with
  | nil => rw [List.nil_append, skipChars, if_pos rfl]
  | @cons p ps s t hp _ ih =>
    rw [List.append_assoc]
    rcases hp.plain_or_escape with ⟨c, hq, hb, hc, rfl⟩ | ⟨e, rfl⟩
    · rw [List.singleton_append, skipChars, if_neg hq, if_neg hb, if_neg (Nat.not_lt.mpr hc), ih]
    · rw [List.cons_append, skipChars_escape (skipEscape_ok_iff.mpr ⟨p, e, hp, rfl⟩), ih]

/-- **A string that is passed over** is a row of pieces with a quote behind it. -/
theorem skipChars_ok {s r : Input} (h : skipChars s = .ok r) :
    ∃ ps t, IsContent ps t ∧ s = t ++ '\"' :: r := by
  fun_induction skipChars s with
  | case1 | case3 | case5 => simp at h
  | case2 rest =>
    injection h with h
    subst h
    exact ⟨[], [], .nil, rfl⟩
  | case4 rest rest' he _ ih =>
    obtain ⟨p, t, hp, rfl⟩ := skipEscape_ok_iff.mp he
    obtain ⟨ps, u, hu, rfl⟩ := ih h
    refine ⟨p :: ps, ('\\' :: t) ++ u, .cons hp hu, ?_⟩
    rw [List.cons_append, List.cons_append, List.append_assoc]
  | case6 c rest hq hb hp ih =>
    obtain ⟨ps, u, hu, rfl⟩ := ih h
    exact ⟨.character c :: ps, [c] ++ u, .cons (.plain hq hb (Nat.le_of_not_lt hp)) hu, rfl⟩

/-- **A string that is wanted** is a row of pieces that stand for characters, with a quote
behind it. -/
theorem readChars_ok {s r : Input} {x : List Char} (h : readChars s = .ok (x, r)) :
    ∃ ps t, IsContent ps t ∧ content? ps = some x ∧ s = t ++ '\"' :: r := by
  fun_induction readChars s generalizing x with
  | case1 | case3 | case5 => simp at h
  | case2 rest =>
    injection h with h
    injection h with hx hr
    subst hx hr
    exact ⟨[], [], .nil, rfl, rfl⟩
  | case4 rest y rest' he _ ih =>
    obtain ⟨⟨ys, r'⟩, hrest, hf⟩ := map_ok h
    injection hf with hx hr
    dsimp only at hx hr
    subst hx hr
    obtain ⟨ps, u, hu, hps, rfl⟩ := ih hrest
    rcases readEscape_ok he with ⟨l, hl, rfl⟩ | ⟨t, ht, rfl⟩
    · refine ⟨.character y :: ps, ['\\', l] ++ u, .cons (.letter hl) hu, ?_, rfl⟩
      rw [content?, hps, Option.map_some]
    · obtain ⟨n, q, hq, hn⟩ := numberedChar_ok ht
      rcases hn with ⟨hn, hy, rfl⟩ | ⟨hn, m, p, hp, hm, hy, rfl⟩
      · refine ⟨.unit n :: ps, ('\\' :: 'u' :: q) ++ u, .cons (.unit hq) hu, ?_, ?_⟩
        · rw [content?_unit hn, hps, Option.map_some, hy]
        · simp only [List.cons_append, List.append_assoc]
      · refine ⟨.unit n :: .unit m :: ps,
          ('\\' :: 'u' :: q) ++ (('\\' :: 'u' :: p) ++ u),
          .cons (.unit hq) (.cons (.unit hp) hu), ?_, ?_⟩
        · rw [content?_pair hn hm, hps, Option.map_some, hy]
        · simp only [List.cons_append, List.append_assoc]
  | case6 c rest hq hb hp ih =>
    obtain ⟨⟨ys, r'⟩, hrest, hf⟩ := map_ok h
    injection hf with hx hr
    dsimp only at hx hr
    subst hx hr
    obtain ⟨ps, u, hu, hps, rfl⟩ := ih hrest
    refine ⟨.character c :: ps, [c] ++ u, .cons (.plain hq hb (Nat.le_of_not_lt hp)) hu, ?_, rfl⟩
    rw [content?, hps, Option.map_some]

end Json
end FluentBuilders
