import FluentBuilders.Proofs.Json.Skipped

/-! # The grammar is unambiguous

A text spells at most one value, and where the value ends is settled by what stands behind
it: two values whose texts, with something behind them, are the same text are the same value
and have the same behind them.  Only a number needs a condition on what that is. -/
namespace FluentBuilders
namespace Json

/-! ## Strings -/

theorem IsPiece.unique {p p' : Piece} {s s' r r' : List Char} (h : IsPiece p s)
    (h' : IsPiece p' s') (heq : s ++ r = s' ++ r') : p = p' ∧ r = r' := by
  have hu : ∀ c, ('u', c) ∉ escapeLetters := by
    intro c hc
    have := letterEscape?_eq_some_iff.mpr hc
    simp [letterEscape?] at this
  cases h with
  | plain _ hb _ =>
    cases h' with
    | plain _ _ _ =>
      injection heq with hc hr
      exact ⟨congrArg Piece.character hc, hr⟩
    | letter _ =>
      injection heq with hc _
      exact absurd hc hb
    | unit _ =>
      injection heq with hc _
      exact absurd hc hb
  | letter hl =>
    cases h' with
    | plain _ hb _ =>
      injection heq with hc _
      exact absurd hc.symm hb
    | letter hl' =>
      injection heq with _ heq
      injection heq with hll hr
      subst hll
      rw [← letterEscape?_eq_some_iff] at hl hl'
      rw [hl] at hl'
      injection hl' with hc
      exact ⟨congrArg Piece.character hc, hr⟩
    | unit _ =>
      injection heq with _ heq
      injection heq with hlu _
      exact absurd (hlu ▸ hl) (hu _)
  | unit hq =>
    cases h' with
    | plain _ hb _ =>
      injection heq with hc _
      exact absurd hc.symm hb
    | letter hl' =>
      injection heq with _ heq
      injection heq with hlu _
      exact absurd (hlu ▸ hl') (hu _)
    | unit hq' =>
      injection heq with _ heq
      injection heq with _ heq
      have hn := hexQuad_quad hq r
      have hn' := hexQuad_quad hq' r'
      change _ ++ r = _ ++ r' at heq
      rw [heq, hn'] at hn
      injection hn with hn
      injection hn with hn hr
      exact ⟨congrArg Piece.unit hn.symm, hr.symm⟩

theorem IsPiece.ne_quote {p : Piece} {s : List Char} (h : IsPiece p s) (r r' : List Char) :
    s ++ r ≠ '\"' :: r' := by
  intro heq
  rcases h.plain_or_escape with ⟨c, hq, _, _, rfl⟩ | ⟨e, rfl⟩
  · injection heq with hc _
    exact hq hc
  · injection heq with hc _
    exact absurd hc (by decide)

theorem IsContent.unique {ps ps' : List Piece} {s s' r r' : List Char} (h : IsContent ps s)
    (h' : IsContent ps' s') (heq : s ++ '\"' :: r = s' ++ '\"' :: r') : ps = ps' ∧ r = r' := by
  induction h generalizing ps' s' with
  | nil =>
    cases h' with
    | nil =>
      injection heq with _ hr
      exact ⟨rfl, hr⟩
    | cons hp _ =>
      rw [List.append_assoc] at heq
      exact absurd heq.symm (hp.ne_quote _ _)
  | cons hp _ ih =>
    rw [List.append_assoc] at heq
    cases h' with
    | nil => exact absurd heq (hp.ne_quote _ _)
    | cons hp' hps' =>
      rw [List.append_assoc] at heq
      obtain ⟨rfl, heq⟩ := hp.unique hp' heq
      obtain ⟨rfl, hr⟩ := ih hps' heq
      exact ⟨rfl, hr⟩

/-! ## Numbers -/

theorem IsNumber.unique {s s' r r' : List Char} (h : IsNumber s) (h' : IsNumber s')
    (heq : s ++ r = s' ++ r') (hr : Stops r) (hr' : Stops r') : s = s' ∧ r = r' := by
  have hskip := skip_number h [] hr
  have hskip' := skip_number h' [] hr'
  rw [← heq, hskip, skip, skip] at hskip'
  injection hskip' with hrr
  subst hrr
  exact ⟨List.append_cancel_right heq, rfl⟩

theorem IsNumber.exists_cons {s : List Char} (h : IsNumber s) :
    ∃ c s', s = c :: s' ∧ (c = '-' ∨ c.isDigit = true) := by
  cases h with
  | positive h =>
    obtain ⟨d, s', rfl, hd⟩ := h.exists_cons
    exact ⟨d, s', rfl, .inr hd⟩
  | negative _ => exact ⟨_, _, rfl, .inl rfl⟩

theorem IsNumber.ne_cons {s : List Char} (h : IsNumber s) {c : Char}
    (hc : c ≠ '-' ∧ c.isDigit = false) (r r' : List Char) : c :: r' ≠ s ++ r := by
  obtain ⟨d, s', rfl, hd⟩ := h.exists_cons
  intro heq
  injection heq with hcd _
  subst hcd
  rcases hd with hd | hd
  · exact hc.1 hd
  · rw [hc.2] at hd
    simp at hd

/-! ## Rows -/

/-- What stands in front of an item or a member ends where the next token starts. -/
theorem IsLead.unique {first : Bool} {a a' s s' : List Char} (h : IsLead first a)
    (h' : IsLead first a') (hs : skipSpace s = s) (hs' : skipSpace s' = s')
    (heq : a ++ s = a' ++ s') : s = s' := by
  cases h with
  | first ha =>
    cases h' with
    | first ha' =>
      have hskip := congrArg skipSpace heq
      rwa [skipSpace_append ha, skipSpace_append ha', hs, hs'] at hskip
  | further ha hb =>
    cases h' with
    | further ha' hb' =>
      simp only [List.append_assoc, List.cons_append] at heq
      have hskip := congrArg skipSpace heq
      rw [skipSpace_blank_cons ha (by decide), skipSpace_blank_cons ha' (by decide)] at hskip
      injection hskip with _ hskip
      have hskip := congrArg skipSpace hskip
      rwa [skipSpace_append hb, skipSpace_append hb', hs, hs'] at hskip

/-- What stands in front of an item or a member is not the end of the frame. -/
theorem IsLead.ne_close {first : Bool} {a b s r : List Char} {c close : Char}
    (h : IsLead first a) (hb : IsBlank b) (hs : isSpace c = false) (hclose : isSpace close = false)
    (hc : c ≠ close) (hcomma : ',' ≠ close) : a ++ c :: s ≠ b ++ close :: r := by
  intro heq
  cases h with
  | first ha =>
    have hskip := congrArg skipSpace heq
    rw [skipSpace_blank_cons ha hs, skipSpace_blank_cons hb hclose] at hskip
    injection hskip with hskip _
    exact hc hskip
  | further ha _ =>
    simp only [List.append_assoc, List.cons_append] at heq
    have hskip := congrArg skipSpace heq
    rw [skipSpace_blank_cons ha (by decide), skipSpace_blank_cons hb hclose] at hskip
    injection hskip with hskip _
    exact hcomma hskip

theorem close_unique {b b' r r' : List Char} {close : Char} (hb : IsBlank b) (hb' : IsBlank b')
    (hclose : isSpace close = false) (heq : b ++ close :: r = b' ++ close :: r') : r = r' := by
  have hskip := congrArg skipSpace heq
  rw [skipSpace_blank_cons hb hclose, skipSpace_blank_cons hb' hclose] at hskip
  injection hskip

theorem IsValue.skipSpace_append {v : Value} {s : List Char} (h : IsValue v s) (r : List Char) :
    skipSpace (s ++ r) = s ++ r := by
  obtain ⟨c, s, rfl, hc, _⟩ := h.exists_cons
  exact skipSpace_cons hc _

/-! ## Values -/

mutual

/-- **A text spells at most one value.** -/
theorem IsValue.unique {v v' : Value} {s s' r r' : List Char} (h : IsValue v s)
    (h' : IsValue v' s') (heq : s ++ r = s' ++ r') (hr : Stops r) (hr' : Stops r') :
    v = v' ∧ r = r' := by
  cases h with
  | null =>
    cases h' with
    | number hn => exact absurd heq (hn.ne_cons (by decide) _ _)
    | null =>
      simp only [List.append_cancel_left_eq] at heq
      exact ⟨rfl, heq⟩
    | _ => simp at heq
  | yes =>
    cases h' with
    | number hn => exact absurd heq (hn.ne_cons (by decide) _ _)
    | yes =>
      simp only [List.append_cancel_left_eq] at heq
      exact ⟨rfl, heq⟩
    | _ => simp at heq
  | no =>
    cases h' with
    | number hn => exact absurd heq (hn.ne_cons (by decide) _ _)
    | no =>
      simp only [List.append_cancel_left_eq] at heq
      exact ⟨rfl, heq⟩
    | _ => simp at heq
  | number hn =>
    cases h' with
    | number hn' =>
      obtain ⟨rfl, hr⟩ := hn.unique hn' heq hr hr'
      exact ⟨rfl, hr⟩
    | _ => exact absurd heq.symm (hn.ne_cons (by decide) _ _)
  | text ht =>
    cases h' with
    | number hn => exact absurd heq (hn.ne_cons (by decide) _ _)
    | text ht' =>
      simp only [List.cons_append, List.append_assoc, List.cons.injEq, true_and] at heq
      obtain ⟨rfl, hr⟩ := ht.unique ht' heq
      exact ⟨rfl, hr⟩
    | _ => simp at heq
  | list ht =>
    cases h' with
    | number hn => exact absurd heq (hn.ne_cons (by decide) _ _)
    | list ht' =>
      injection heq with _ heq
      obtain ⟨rfl, hr⟩ := ht.unique ht' heq
      exact ⟨rfl, hr⟩
    | _ => simp at heq
  | object ht =>
    cases h' with
    | number hn => exact absurd heq (hn.ne_cons (by decide) _ _)
    | object ht' =>
      injection heq with _ heq
      obtain ⟨rfl, hr⟩ := ht.unique ht' heq
      exact ⟨rfl, hr⟩
    | _ => simp at heq

theorem IsItems.unique {first : Bool} {vs vs' : List Value} {t t' r r' : List Char}
    (h : IsItems first vs t) (h' : IsItems first vs' t') (heq : t ++ r = t' ++ r') :
    vs = vs' ∧ r = r' := by
  cases h with
  | close hb =>
    rw [List.append_assoc] at heq
    cases h' with
    | close hb' =>
      rw [List.append_assoc] at heq
      exact ⟨rfl, close_unique hb hb' (by decide) heq⟩
    | item ha' hs' _ =>
      obtain ⟨c, s, rfl, hc, hclose⟩ := hs'.exists_cons
      simp only [List.append_assoc, List.cons_append] at heq
      exact absurd heq.symm (ha'.ne_close hb hc (by decide) hclose (by decide))
  | item ha hs ht =>
    cases h' with
    | close hb' =>
      obtain ⟨c, s, rfl, hc, hclose⟩ := hs.exists_cons
      simp only [List.append_assoc, List.cons_append] at heq
      exact absurd heq (ha.ne_close hb' hc (by decide) hclose (by decide))
    | item ha' hs' ht' =>
      simp only [List.append_assoc] at heq
      have heq := ha.unique ha' (hs.skipSpace_append _) (hs'.skipSpace_append _) heq
      obtain ⟨rfl, heq⟩ := hs.unique hs' heq (ht.stops r) (ht'.stops r')
      obtain ⟨rfl, hr⟩ := ht.unique ht' heq
      exact ⟨rfl, hr⟩

theorem IsMembers.unique {first : Bool} {ms ms' : List (List Piece × Value)}
    {t t' r r' : List Char} (h : IsMembers first ms t) (h' : IsMembers first ms' t')
    (heq : t ++ r = t' ++ r') : ms = ms' ∧ r = r' := by
  cases h with
  | close hb =>
    rw [List.append_assoc] at heq
    cases h' with
    | close hb' =>
      rw [List.append_assoc] at heq
      exact ⟨rfl, close_unique hb hb' (by decide) heq⟩
    | member ha' _ _ _ _ _ =>
      simp only [List.append_assoc, List.cons_append] at heq
      exact absurd heq.symm (ha'.ne_close hb (by decide) (by decide) (by decide) (by decide))
  | member ha hkey hb hc hs ht =>
    cases h' with
    | close hb' =>
      simp only [List.append_assoc, List.cons_append] at heq
      exact absurd heq (ha.ne_close hb' (by decide) (by decide) (by decide) (by decide))
    | member ha' hkey' hb' hc' hs' ht' =>
      simp only [List.append_assoc, List.cons_append] at heq
      have heq := ha.unique ha' (skipSpace_quote _) (skipSpace_quote _) heq
      injection heq with _ heq
      obtain ⟨rfl, heq⟩ := hkey.unique hkey' heq
      -- the blanks around the colon are settled like the ones in front of a key
      have heq := close_unique hb hb' (by decide) heq
      have heq := (IsLead.first hc).unique (.first hc') (hs.skipSpace_append _)
        (hs'.skipSpace_append _) heq
      obtain ⟨rfl, heq⟩ := hs.unique hs' heq (ht.stops r) (ht'.stops r')
      obtain ⟨rfl, hr⟩ := ht.unique ht' heq
      exact ⟨rfl, hr⟩

end

end Json
end FluentBuilders
