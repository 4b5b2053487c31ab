import FluentBuilders.Element.Reader
import FluentBuilders.Proofs.Json.Wanted

/-! # Where faults are noticed

A reader that fails has something left of the text it was given, and never more than that
(`IsWithin`).  So the place of a fault is as many bytes into the text as the reader has
gone through.
-/
namespace FluentBuilders
open Json

namespace Json
open Text

/-- What is left of some bytes, behind a value or at a fault, is no more than these. -/
def IsWithin {α : Type} (left : α → Nat) (bytes : Nat) : Except Fault α → Prop
  | .error fault => fault.left ≤ bytes
  | .ok x => left x ≤ bytes

/-- The bytes behind a value. -/
def behind {α : Type} (p : α × Input) : Nat := byteCount p.2

section

variable {α β : Type} {left : α → Nat} {left' : β → Nat} {bytes bytes' : Nat}

@[simp] theorem isWithin_ok {x : α} : IsWithin left bytes (.ok x) ↔ left x ≤ bytes := Iff.rfl

@[simp] theorem isWithin_error {fault : Fault} :
    IsWithin left bytes (.error fault) ↔ fault.left ≤ bytes := Iff.rfl

@[simp] theorem behind_mk (x : α) (s : Input) : behind (x, s) = byteCount s := rfl

@[simp] theorem left_after (cause : Cause) (s : Input) :
    (Fault.after cause s).left = byteCount s - 1 := rfl

theorem byteCount_cons (c : Char) (s : Input) : byteCount (c :: s) = c.utf8Size + byteCount s :=
  rfl

theorem byteCount_le_cons (c : Char) (s : Input) : byteCount s ≤ byteCount (c :: s) :=
  Nat.le_add_left _ _

theorem IsWithin.mono {x : Except Fault α} (h : IsWithin left bytes x) (hle : bytes ≤ bytes') :
    IsWithin left bytes' x := by
  cases x with
  | error fault => exact Nat.le_trans h hle
  | ok x => exact Nat.le_trans h hle

theorem IsWithin.bind {x : Except Fault α} {f : α → Except Fault β} (h : IsWithin left bytes x)
    (hf : ∀ a, IsWithin left' (left a) (f a)) : IsWithin left' bytes (x.bind f) := by
  cases x with
  | error fault => exact h
  | ok a => exact (hf a).mono h

theorem IsWithin.map {x : Except Fault α} {f : α → β} (h : IsWithin left bytes x)
    (hf : ∀ a, left' (f a) ≤ left a) : IsWithin left' bytes (x.map f) := by
  cases x with
  | error fault => exact h
  | ok a => exact Nat.le_trans (hf a) h

theorem IsWithin.error {x : Except Fault α} {fault : Fault} (h : IsWithin left bytes x)
    (hx : x = .error fault) : fault.left ≤ bytes := by
  subst hx
  exact h

theorem IsWithin.ok {x : Except Fault α} {a : α} (h : IsWithin left bytes x) (hx : x = .ok a) :
    left a ≤ bytes := by
  subst hx
  exact h

end

/-! ## Small tokens -/

theorem byteCount_dropWhile_le (p : Char → Bool) (s : Input) :
    byteCount (s.dropWhile p) ≤ byteCount s := by
  induction s with
  | nil => exact Nat.le_refl _
  | cons c s ih =>
    rw [List.dropWhile_cons]
    split
    · exact Nat.le_trans ih (byteCount_le_cons c s)
    · exact Nat.le_refl _

theorem byteCount_skipSpace_le (s : Input) : byteCount (skipSpace s) ≤ byteCount s :=
  byteCount_dropWhile_le isSpace s

theorem byteCount_cons_le_of_skipSpace {s rest : Input} {c : Char}
    (h : skipSpace s = c :: rest) : byteCount (c :: rest) ≤ byteCount s :=
  h ▸ byteCount_skipSpace_le s

theorem byteCount_le_of_skipSpace {s rest : Input} {c : Char} (h : skipSpace s = c :: rest) :
    byteCount rest ≤ byteCount s :=
  Nat.le_trans (byteCount_le_cons c rest) (byteCount_cons_le_of_skipSpace h)

theorem isWithin_word (w : List Char) (s : Input) :
    IsWithin byteCount (byteCount s) (word w s) := by
  induction w generalizing s with
  | nil => exact Nat.le_refl _
  | cons e es ih =>
    cases s with
    | nil => exact Nat.le_refl _
    | cons c s =>
      rw [word]
      split
      · exact (ih s).mono (byteCount_le_cons c s)
      · exact Nat.sub_le _ _

theorem isWithin_colon (s : Input) : IsWithin byteCount (byteCount s) (colon s) := by
  unfold colon
  split
  · exact Nat.zero_le _
  · next c rest hs =>
    split
    · exact byteCount_le_of_skipSpace hs
    · exact Nat.le_trans (Nat.sub_le _ _) (byteCount_cons_le_of_skipSpace hs)

/-! ## Strings -/

theorem isWithin_hexQuad (s : Input) : IsWithin behind (byteCount s) (hexQuad s) := by
  have hfault : IsWithin (behind (α := Nat)) (byteCount s) (.error
      (if byteCount s < 4 then .before .endInString [] else .past 4 .invalidEscape s)) := by
    split
    · exact Nat.zero_le _
    · exact Nat.sub_le _ _
  unfold hexQuad
  dsimp only
  split
  · next a b c d rest =>
    split
    · simp only [isWithin_ok, behind_mk, byteCount_cons]
      omega
    · exact hfault
  · exact hfault

theorem isWithin_secondHalf (leading : Nat) (s : Input) :
    IsWithin behind (byteCount s) (secondHalf leading s) := by
  unfold secondHalf
  split
  · exact Nat.le_refl _
  · next c rest =>
    split
    · simp only [isWithin_error, left_after, Nat.sub_le]
    · refine IsWithin.mono ?_ (byteCount_le_cons c rest)
      split
      · exact Nat.le_refl _
      · next u quad =>
        split
        · simp only [isWithin_error, left_after, Nat.sub_le]
        · have hquad := (isWithin_hexQuad quad).mono (byteCount_le_cons u quad)
          split
          · next fault h => exact hquad.error h
          · next n rest h =>
            have hrest : byteCount rest ≤ _ := hquad.ok h
            split
            · exact hrest
            · exact hrest

theorem isWithin_numberedChar (s : Input) : IsWithin behind (byteCount s) (numberedChar s) := by
  have hquad := isWithin_hexQuad s
  unfold numberedChar
  split
  · next fault h => exact hquad.error h
  · next n rest h =>
    have hrest := hquad.ok h
    split
    · exact hrest
    · split
      · exact (isWithin_secondHalf n rest).mono hrest
      · exact hrest

theorem isWithin_readEscape (s : Input) : IsWithin behind (byteCount s) (readEscape s) := by
  unfold readEscape
  split
  · exact Nat.le_refl _
  · next c rest =>
    split
    · exact byteCount_le_cons c rest
    · split
      · exact (isWithin_numberedChar rest).mono (byteCount_le_cons c rest)
      · exact Nat.sub_le _ _

theorem isWithin_skipEscape (s : Input) : IsWithin byteCount (byteCount s) (skipEscape s) := by
  unfold skipEscape
  split
  · exact Nat.le_refl _
  · next c rest =>
    split
    · exact byteCount_le_cons c rest
    · split
      · have hquad : IsWithin byteCount (byteCount rest) ((hexQuad rest).map Prod.snd) :=
          (isWithin_hexQuad rest).map fun _ => Nat.le_refl _
        exact hquad.mono (byteCount_le_cons c rest)
      · exact Nat.sub_le _ _

theorem isWithin_readChars (s : Input) : IsWithin behind (byteCount s) (readChars s) := by
  fun_induction readChars s with
  | case1 => exact Nat.le_refl _
  | case2 rest => exact byteCount_le_cons _ rest
  | case3 rest fault he =>
    exact ((isWithin_readEscape rest).mono (byteCount_le_cons _ rest)).error he
  | case4 rest y rest' he _ ih =>
    have hrest := (isWithin_readEscape rest).ok he
    exact (ih.mono hrest).mono (byteCount_le_cons _ rest) |>.map fun _ => Nat.le_refl _
  | case5 => exact Nat.sub_le _ _
  | case6 c rest _ _ _ ih => exact (ih.mono (byteCount_le_cons c rest)).map fun _ => Nat.le_refl _

theorem isWithin_skipChars (s : Input) : IsWithin byteCount (byteCount s) (skipChars s) := by
  fun_induction skipChars s with
  | case1 => exact Nat.le_refl _
  | case2 rest => exact byteCount_le_cons _ rest
  | case3 rest fault he =>
    exact ((isWithin_skipEscape rest).mono (byteCount_le_cons _ rest)).error he
  | case4 rest rest' he _ ih =>
    exact (ih.mono ((isWithin_skipEscape rest).ok he)).mono (byteCount_le_cons _ rest)
  | case5 => exact Nat.le_refl _
  | case6 c rest _ _ _ ih => exact ih.mono (byteCount_le_cons c rest)

/-! ## Numbers -/

theorem byteCount_afterDigits_le (s : Input) : byteCount (afterDigits s) ≤ byteCount s :=
  byteCount_dropWhile_le Char.isDigit s

/-- The digits of an exponent, as far as there is one. -/
def exponentDigits (exponent : Option (Bool × List Char)) : List Char :=
  (exponent.map Prod.snd).getD []

theorem length_le_byteCount (s : Input) : s.length ≤ byteCount s := by
  induction s with
  | nil => exact Nat.le_refl _
  | cons c s ih =>
    have hc := c.utf8Size_pos
    rw [List.length_cons, byteCount_cons]
    omega

theorem isWithin_wholePart (atEnd : Cause) (s : Input) :
    IsWithin behind (byteCount s) (wholePart atEnd s) := by
  unfold wholePart
  split
  · exact Nat.le_refl _
  · next c rest =>
    split
    · split
      · next d more =>
        split
        · exact Nat.le_trans (Nat.sub_le _ _) (byteCount_le_cons c _)
        · exact byteCount_le_cons c _
      · exact Nat.zero_le _
    · split
      · exact byteCount_afterDigits_le _
      · exact Nat.sub_le _ _

theorem isWithin_fractionPart (atEnd : Cause) (s : Input) :
    IsWithin behind (byteCount s) (fractionPart atEnd s) := by
  unfold fractionPart
  split
  · next rest =>
    refine IsWithin.mono ?_ (byteCount_le_cons '.' rest)
    split
    · exact Nat.le_refl _
    · next d more =>
      split
      · exact byteCount_afterDigits_le _
      · exact Nat.sub_le _ _
  · exact Nat.le_refl _

theorem byteCount_exponentSign_le (s : Input) :
    byteCount (exponentSign s).2 ≤ byteCount s := by
  unfold exponentSign
  split
  · exact byteCount_le_cons _ _
  · exact byteCount_le_cons _ _
  · exact Nat.le_refl _

/-- An exponent takes a byte for each of its digits. -/
theorem isWithin_exponentPart (atEnd : Cause) (s : Input) :
    IsWithin (fun p => (exponentDigits p.1).length + byteCount p.2) (byteCount s)
      (exponentPart atEnd s) := by
  unfold exponentPart
  split
  · exact Nat.le_refl _
  · next e rest =>
    split
    · refine IsWithin.mono ?_ (Nat.le_trans (byteCount_exponentSign_le rest)
        (byteCount_le_cons e rest))
      dsimp only
      split
      · exact Nat.zero_le _
      · split
        · have hparts := congrArg byteCount (digits_append_afterDigits (exponentSign rest).2)
          have hdigits := length_le_byteCount (digits (exponentSign rest).2)
          rw [byteCount_append] at hparts
          show (digits _).length + byteCount (afterDigits _) ≤ _
          omega
        · exact Nat.sub_le _ _
    · exact Nat.le_of_eq (Nat.zero_add _)

theorem isWithin_number (atEnd : Cause) (negative : Bool) (s : Input) :
    IsWithin (fun p => (exponentDigits p.1.exponent).length + byteCount p.2) (byteCount s)
      (number atEnd negative s) := by
  have hwhole := isWithin_wholePart atEnd s
  unfold number
  split
  · next fault h => exact hwhole.error h
  · next whole s₁ h =>
    have hfraction := (isWithin_fractionPart atEnd s₁).mono (hwhole.ok h)
    split
    · next fault h => exact hfraction.error h
    · next fraction s₂ h =>
      have hexponent := (isWithin_exponentPart atEnd s₂).mono (hfraction.ok h)
      split
      · next fault h => exact hexponent.error h
      · next exponent s₃ h => exact hexponent.ok h

theorem length_absorb_le (limit value : Nat) (ds : List Char) :
    (absorb limit value ds).2.length ≤ ds.length := by
  induction ds generalizing value with
  | nil => exact Nat.le_refl _
  | cons d ds ih =>
    rw [absorb]
    split
    · exact Nat.le_refl _
    · exact Nat.le_succ_of_le (ih _)

/-- A number that is too large is noticed behind it or among the digits of its
exponent. -/
theorem isWithin_found (n : Number) (rest : Input) :
    IsWithin (fun _ => byteCount rest) ((exponentDigits n.exponent).length + byteCount rest)
      (n.found rest) := by
  unfold Number.found
  dsimp only
  split
  · split
    · exact Nat.le_add_left _ _
    · split
      · exact Nat.le_add_left _ _
      · exact Nat.le_add_left _ _
  · next down ds hexponent =>
    split
    · split
      · exact Nat.le_add_left _ _
      · exact Nat.le_add_left _ _
    · next c unread hunread =>
      split
      · -- the digit that is too much and those after it are left
        have hlength := length_absorb_le largestExponent 0 ds
        rw [hunread, List.length_cons] at hlength
        have hdigits : exponentDigits n.exponent = ds := by rw [hexponent]; rfl
        rw [hdigits]
        show unread.length + byteCount rest ≤ _
        omega
      · split
        · exact Nat.le_add_left _ _
        · exact Nat.le_add_left _ _

/-! ## Values that are skipped -/

theorem isWithin_number_snd (atEnd : Cause) (negative : Bool) (s : Input) :
    IsWithin byteCount (byteCount s) ((number atEnd negative s).map Prod.snd) :=
  (isWithin_number atEnd negative s).map fun _ => Nat.le_add_left _ _

theorem isWithin_skipScalar (c : Char) (rest : Input) :
    IsWithin byteCount (byteCount (c :: rest)) (skipScalar c rest) := by
  have hrest := byteCount_le_cons c rest
  unfold skipScalar
  split
  · exact (isWithin_word _ rest).mono hrest
  · split
    · exact (isWithin_word _ rest).mono hrest
    · split
      · exact (isWithin_word _ rest).mono hrest
      · split
        · exact (isWithin_number_snd _ _ rest).mono hrest
        · split
          · exact isWithin_number_snd _ _ (c :: rest)
          · split
            · exact (isWithin_skipChars rest).mono hrest
            · exact Nat.sub_le _ _

theorem isWithin_skipKey (s : Input) : IsWithin byteCount (byteCount s) (skipKey s) := by
  unfold skipKey
  split
  · exact Nat.zero_le _
  · next c rest hs =>
    have hrest := byteCount_le_of_skipSpace hs
    split
    · have hchars := (isWithin_skipChars rest).mono hrest
      split
      · next fault h => exact hchars.error h
      · next rest' h => exact (isWithin_colon rest').mono (hchars.ok h)
    · exact Nat.le_trans (Nat.sub_le _ _) (byteCount_cons_le_of_skipSpace hs)

/-- The machine that passes over values never goes back in the text. -/
theorem isWithin_skip (awaiting : Awaiting) (stack : List Frame) (s : Input) :
    IsWithin byteCount (byteCount s) (skip awaiting stack s) := by
  fun_induction skip awaiting stack s with
  | case1 | case7 | case13 => exact Nat.zero_le _
  | case6 | case12 => exact Nat.le_refl _
  | case2 _ _ _ hs ih | case3 _ _ _ hs _ ih | case8 _ _ _ _ hs ih | case14 _ _ _ _ hs ih
  | case15 _ _ _ hs _ ih => exact ih.mono (byteCount_le_of_skipSpace hs)
  | case4 _ _ c rest hs _ _ fault hc =>
    exact ((isWithin_skipScalar c rest).mono (byteCount_cons_le_of_skipSpace hs)).error hc
  | case5 _ _ c rest hs _ _ rest' hc ih =>
    exact ih.mono (((isWithin_skipScalar c rest).mono (byteCount_cons_le_of_skipSpace hs)).ok hc)
  | case9 _ _ _ _ _ _ ih => exact ih
  | case10 s _ _ _ _ _ hk => exact (isWithin_skipKey s).error hk
  | case11 s _ _ _ _ _ hk _ ih => exact ih.mono ((isWithin_skipKey s).ok hk)
  | case16 _ _ rest _ hk hs =>
    exact ((isWithin_skipKey rest).mono (byteCount_le_of_skipSpace hs)).error hk
  | case17 _ _ rest _ hk hs _ ih =>
    exact ih.mono (((isWithin_skipKey rest).mono (byteCount_le_of_skipSpace hs)).ok hk)
  | case18 _ _ _ _ _ hs =>
    exact Nat.le_trans (Nat.sub_le _ _) (byteCount_cons_le_of_skipSpace hs)

/-! ## Values of a wanted kind -/

theorem isWithin_describe (s : Input) : IsWithin behind (byteCount s) (describe s) := by
  have hnumber : ∀ (negative : Bool) (t : Input), IsWithin behind (byteCount t)
      ((number .endInValue negative t).bind fun p =>
        (p.1.found p.2).map fun found => (found, p.2)) := fun negative t =>
    (isWithin_number .endInValue negative t).bind fun p =>
      (isWithin_found p.1 p.2).map fun _ => Nat.le_refl _
  unfold describe
  split
  · exact Nat.le_refl _
  · next c rest =>
    have hrest := byteCount_le_cons c rest
    have hword : ∀ (w : List Char) (found : Found), IsWithin behind (byteCount (c :: rest))
        ((word w rest).map fun r => (found, r)) := fun w found =>
      ((isWithin_word w rest).mono hrest).map fun _ => Nat.le_refl _
    split
    · exact hword _ _
    · split
      · exact hword _ _
      · split
        · exact hword _ _
        · split
          · exact (hnumber true rest).mono hrest
          · split
            · exact hnumber false (c :: rest)
            · split
              · exact ((isWithin_readChars rest).mono hrest).map fun _ => Nat.le_refl _
              · split
                · exact Nat.le_refl _
                · split
                  · exact Nat.le_refl _
                  · exact Nat.sub_le _ _

theorem left_mismatch_le (expected : Expected) (s : Input) :
    (mismatch expected s).left ≤ byteCount s := by
  have hdescribe := isWithin_describe s
  unfold mismatch
  split
  · next fault h => exact hdescribe.error h
  · next found rest h => exact hdescribe.ok h

theorem isWithin_readText (s : Input) : IsWithin behind (byteCount s) (readText s) := by
  unfold readText
  split
  · exact Nat.zero_le _
  · next c rest hs =>
    split
    · exact ((isWithin_readChars rest).mono (byteCount_le_of_skipSpace hs)).map fun _ =>
        Nat.le_refl _
    · exact Nat.le_trans (left_mismatch_le _ _) (byteCount_cons_le_of_skipSpace hs)

theorem isWithin_readOptionalText (s : Input) :
    IsWithin behind (byteCount s) (readOptionalText s) := by
  unfold readOptionalText
  split
  · exact Nat.zero_le _
  · next c rest hs =>
    split
    · exact ((isWithin_word _ rest).mono (byteCount_le_of_skipSpace hs)).map fun _ =>
        Nat.le_refl _
    · exact ((isWithin_readText (c :: rest)).mono (byteCount_cons_le_of_skipSpace hs)).map fun _ =>
        Nat.le_refl _

theorem isWithin_nextIn (frame : Frame) (first : Bool) (s : Input) :
    IsWithin behind (byteCount s) (nextIn frame first s) := by
  unfold nextIn
  split
  · exact Nat.zero_le _
  · next c rest hs =>
    split
    · exact byteCount_le_of_skipSpace hs
    · split
      · exact byteCount_cons_le_of_skipSpace hs
      · split
        · refine IsWithin.mono ?_ (byteCount_le_of_skipSpace hs)
          split
          · exact Nat.zero_le _
          · next d rest' hs' =>
            split
            · exact Nat.le_trans (Nat.sub_le _ _) (byteCount_cons_le_of_skipSpace hs')
            · exact byteCount_cons_le_of_skipSpace hs'
        · exact Nat.le_trans (Nat.sub_le _ _) (byteCount_cons_le_of_skipSpace hs)

theorem isWithin_nextItem (first : Bool) (s : Input) :
    IsWithin behind (byteCount s) (nextItem first s) :=
  isWithin_nextIn .list first s

theorem isWithin_endOfList (s : Input) : IsWithin byteCount (byteCount s) (endOfList s) := by
  unfold endOfList
  split
  · exact Nat.zero_le _
  · next c rest hs =>
    split
    · exact byteCount_le_of_skipSpace hs
    · split
      · refine IsWithin.mono ?_ (byteCount_le_of_skipSpace hs)
        split
        · exact Nat.zero_le _
        · next d rest' hs' =>
          exact Nat.le_trans (Nat.sub_le _ _) (byteCount_cons_le_of_skipSpace hs')
      · exact Nat.le_trans (Nat.sub_le _ _) (byteCount_cons_le_of_skipSpace hs)

theorem isWithin_readItems (first : Bool) (s : Input) :
    IsWithin behind (byteCount s) (readItems first s) := by
  fun_induction readItems first s with
  | case1 first s fault hn => exact (isWithin_nextItem first s).error hn
  | case2 first s rest hn => exact (isWithin_nextItem first s).ok hn
  | case3 first s rest hn fault hx =>
    exact ((isWithin_readText rest).mono ((isWithin_nextItem first s).ok hn)).error hx
  | case4 first s rest hn x rest' hx ih =>
    have hrest := ((isWithin_readText rest).mono ((isWithin_nextItem first s).ok hn)).ok hx
    exact (ih.mono hrest).map fun _ => Nat.le_refl _

theorem isWithin_readTexts (s : Input) : IsWithin behind (byteCount s) (readTexts s) := by
  unfold readTexts
  split
  · exact Nat.zero_le _
  · next c rest hs =>
    split
    · exact (isWithin_readItems true rest).mono (byteCount_le_of_skipSpace hs)
    · exact Nat.le_trans (left_mismatch_le _ _) (byteCount_cons_le_of_skipSpace hs)

end Json

/-! ## Elements -/

theorem Draft.isWithin_read (d : Draft) (f : Field) (s : Input) :
    IsWithin behind (Text.byteCount s) (d.read f s) := by
  cases f with
  | owner => exact (isWithin_readText s).map fun _ => Nat.le_refl _
  | name => exact (isWithin_readText s).map fun _ => Nat.le_refl _
  | parameters => exact (isWithin_readTexts s).map fun _ => Nat.le_refl _
  | location => exact (isWithin_readOptionalText s).map fun _ => Nat.le_refl _

theorem isWithin_nextMember (first : Bool) (s : Input) :
    IsWithin behind (Text.byteCount s) (nextMember first s) :=
  isWithin_nextIn .object first s

theorem isWithin_readKey (s : Input) : IsWithin behind (Text.byteCount s) (readKey s) := by
  unfold readKey
  split
  · exact Nat.le_refl _
  · next c rest =>
    split
    · exact (isWithin_readChars rest).mono (byteCount_le_cons c rest)
    · exact Nat.sub_le _ _

theorem left_duplicate_le (f : Field) (s : Input) : (duplicate f s).left ≤ Text.byteCount s := by
  unfold duplicate
  split
  · exact Nat.zero_le _
  · next c rest hs =>
    split
    · exact byteCount_le_of_skipSpace hs
    · exact byteCount_cons_le_of_skipSpace hs

theorem isWithin_readMember (d : Draft) (key : List Char) (s : Input) :
    IsWithin behind (Text.byteCount s) (readMember d key s) := by
  unfold readMember
  split
  · next f _ =>
    split
    · exact left_duplicate_le f s
    · exact (isWithin_colon s).bind fun rest => d.isWithin_read f rest
  · exact (isWithin_colon s).bind fun rest =>
      (isWithin_skip .value [] rest).map fun _ => Nat.le_refl _

theorem isWithin_readMembers (first : Bool) (d : Draft) (s : Input) :
    IsWithin behind (Text.byteCount s) (readMembers first d s) := by
  fun_induction readMembers first d s with
  | case1 first d s fault hn => exact (isWithin_nextMember first s).error hn
  | case2 first d s rest hn => exact (isWithin_nextMember first s).ok hn
  | case3 first d s rest hn fault hk =>
    exact ((isWithin_readKey rest).mono ((isWithin_nextMember first s).ok hn)).error hk
  | case4 first d s rest hn key rest' hk fault hm =>
    have hkey := ((isWithin_readKey rest).mono ((isWithin_nextMember first s).ok hn)).ok hk
    exact ((isWithin_readMember d key rest').mono hkey).error hm
  | case5 first d s rest hn key rest' hk d' rest'' hm ih =>
    have hkey := ((isWithin_readKey rest).mono ((isWithin_nextMember first s).ok hn)).ok hk
    exact ih.mono (((isWithin_readMember d key rest').mono hkey).ok hm)

theorem isWithin_readObject (s : Input) : IsWithin behind (Text.byteCount s) (readObject s) := by
  refine (isWithin_readMembers true .empty s).bind fun p => ?_
  split
  · exact Nat.le_refl _
  · exact Nat.le_refl _

theorem isWithin_readFields (fields : List Field) (first : Bool) (d : Draft) (count : Nat)
    (s : Input) : IsWithin (fun p => Text.byteCount p.2.2) (Text.byteCount s)
      (readFields fields first d count s) := by
  induction fields generalizing first d count s with
  | nil => exact (isWithin_endOfList s).map fun _ => Nat.le_refl _
  | cons f fs ih =>
    have hitem := isWithin_nextItem first s
    rw [readFields]
    split
    · next fault h => exact hitem.error h
    · next rest h => exact hitem.ok h
    · next rest h =>
      have hread := (d.isWithin_read f rest).mono (hitem.ok h)
      split
      · next fault h => exact hread.error h
      · next d' rest' h => exact (ih false d' (count + 1) rest').mono (hread.ok h)

theorem isWithin_readList (s : Input) : IsWithin behind (Text.byteCount s) (readList s) := by
  refine (isWithin_readFields _ true .empty 0 s).bind fun p => ?_
  split
  · exact Nat.le_refl _
  · exact Nat.le_refl _

theorem isWithin_finish {α : Type} {bytes : Nat} {x : Read α} (h : IsWithin behind bytes x) :
    IsWithin (fun _ => 0) bytes (finish x) := by
  unfold finish
  split
  · exact h
  · next y rest =>
    split
    · exact Nat.zero_le _
    · next c rest' hs =>
      exact Nat.le_trans (Nat.sub_le _ _) (Nat.le_trans (byteCount_cons_le_of_skipSpace hs) h)

/-- **A fault lies in its text.**  What is left of a text at the fault for which it is
no element is no more than the text. -/
theorem left_le_of_readElement {s : Input} {fault : Fault} (h : readElement s = .error fault) :
    fault.left ≤ Text.byteCount s := by
  have hread : IsWithin (fun _ => 0) (Text.byteCount s) (readElement s) := by
    unfold readElement
    split
    · exact Nat.zero_le _
    · next c rest hs =>
      have hrest := byteCount_le_of_skipSpace hs
      split
      · exact isWithin_finish ((isWithin_readList rest).mono hrest)
      · split
        · exact isWithin_finish ((isWithin_readObject rest).mono hrest)
        · exact Nat.le_trans (left_mismatch_le _ _) (byteCount_cons_le_of_skipSpace hs)
  exact hread.error h

end FluentBuilders
