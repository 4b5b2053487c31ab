import FluentBuilders.Proofs.Json.Skipped

/-! # Wanted values and their meaning

The reader of a string, of an optional string and of a list of strings each take exactly the
values that mean one (`Takes`).  A meaning is a partial function on values, so a value of
another kind, or a string without characters, has none and is refused. -/
namespace FluentBuilders
namespace Json

namespace Value

/-- The text that a value is. -/
def text? : Value → Option String
  | .text ps => (content? ps).map String.ofList
  | _ => none

/-- The text that a value is, or nothing when the value is none. -/
def optionalText? : Value → Option (Option String)
  | .null => some none
  | v => v.text?.map some

/-- The texts that a value lists. -/
def texts? : Value → Option (List String)
  | .list vs => vs.mapM text?
  | _ => none

theorem text?_eq_some {v : Value} {x : String} (h : v.text? = some x) :
    ∃ ps y, v = .text ps ∧ content? ps = some y ∧ x = String.ofList y := by
  cases v with
  | text ps =>
    obtain ⟨y, hy, rfl⟩ := Option.map_eq_some_iff.mp h
    exact ⟨ps, y, rfl, hy, rfl⟩
  | _ => simp [text?] at h

theorem optionalText?_eq_some {v : Value} {x : Option String} (h : v.optionalText? = some x) :
    (v = .null ∧ x = none) ∨ ∃ y, v.text? = some y ∧ x = some y := by
  unfold optionalText? at h
  split at h
  · injection h with h
    exact .inl ⟨rfl, h.symm⟩
  · obtain ⟨y, hy, rfl⟩ := Option.map_eq_some_iff.mp h
    exact .inr ⟨y, hy, rfl⟩

theorem optionalText?_of_text? {v : Value} {x : String} (h : v.text? = some x) :
    v.optionalText? = some (some x) := by
  unfold optionalText?
  split
  · simp [text?] at h
  · rw [h, Option.map_some]

theorem texts?_eq_some {v : Value} {xs : List String} (h : v.texts? = some xs) :
    ∃ vs, v = .list vs ∧ vs.mapM text? = some xs := by
  cases v with
  | list vs => exact ⟨vs, rfl, h⟩
  | _ => simp [texts?] at h

end Value

/-- What succeeds after a step was given what the step gave. -/
theorem bind_ok {ε α β : Type} {x : Except ε α} {f : α → Except ε β} {y : β}
    (h : x.bind f = .ok y) : ∃ a, x = .ok a ∧ f a = .ok y := by
  cases x with
  | error e => simp [Except.bind] at h
  | ok a => exact ⟨a, rfl, h⟩

theorem image_ok {ε α β : Type} {x : Except ε α} {f : α → β} {y : β} (h : x.map f = .ok y) :
    ∃ a, x = .ok a ∧ f a = y := by
  cases x with
  | error e => simp [Except.map] at h
  | ok a =>
    injection h with h
    exact ⟨a, rfl, h⟩

/-- **A reader takes the values with a meaning**: whatever it reads is one, with blanks in
front of it, and one with blanks in front of it is read, whatever stands behind it. -/
structure Takes {α : Type} (read : Input → Read α) (meaning : Value → Option α) : Prop where
  sound : ∀ {s r : Input} {x : α}, read s = .ok (x, r) →
    ∃ a v t, IsBlank a ∧ IsValue v t ∧ meaning v = some x ∧ s = a ++ (t ++ r)
  complete : ∀ {a t : List Char} {v : Value} {x : α}, IsBlank a → IsValue v t →
    meaning v = some x → ∀ r, read (a ++ (t ++ r)) = .ok (x, r)

/-- What is done with the meaning of a value does not change which values are taken. -/
theorem Takes.map {α β : Type} {read : Input → Read α} {meaning : Value → Option α}
    (h : Takes read meaning) (f : α → β) :
    Takes (fun s => (read s).map fun p => (f p.1, p.2)) (fun v => (meaning v).map f) where
  sound := by
    intro s r y hy
    obtain ⟨⟨x, r'⟩, hx, hf⟩ := map_ok hy
    injection hf with hxy hr
    dsimp only at hxy hr
    subst hxy hr
    obtain ⟨a, v, t, ha, ht, hv, rfl⟩ := h.sound hx
    exact ⟨a, v, t, ha, ht, by rw [hv, Option.map_some], rfl⟩
  complete := by
    intro a t v y ha ht hy r
    obtain ⟨x, hx, rfl⟩ := Option.map_eq_some_iff.mp hy
    rw [h.complete ha ht hx r]
    rfl

/-! ## Strings -/

theorem takes_readText : Takes readText Value.text? where
  sound := by
    intro s r x h
    unfold readText at h
    split at h
    · simp at h
    · next c rest heq =>
      obtain ⟨a, ha, rfl⟩ := skipSpace_eq_cons heq
      split at h
      · next hc =>
        subst hc
        obtain ⟨⟨y, r'⟩, hy, hf⟩ := map_ok h
        injection hf with hx hr
        dsimp only at hx hr
        subst hx hr
        obtain ⟨ps, t, ht, hps, rfl⟩ := readChars_ok hy
        refine ⟨a, .text ps, '\"' :: (t ++ ['\"']), ha, .text ht, ?_, by simp⟩
        rw [Value.text?, hps, Option.map_some]
      · simp at h
  complete := by
    intro a t v x ha ht hx r
    obtain ⟨ps, y, rfl, hy, rfl⟩ := Value.text?_eq_some hx
    cases ht with
    | text ht =>
      simp only [List.cons_append, List.append_assoc, List.nil_append]
      rw [readText, skipSpace_blank_cons ha (by decide)]
      dsimp only
      rw [if_pos rfl, readChars_content ht hy]
      rfl

theorem IsBlank.append {a b : List Char} (ha : IsBlank a) (hb : IsBlank b) :
    IsBlank (a ++ b) :=
  List.forall_mem_append.mpr ⟨ha, hb⟩

theorem takes_readOptionalText : Takes readOptionalText Value.optionalText? where
  sound := by
    intro s r x h
    unfold readOptionalText at h
    split at h
    · simp at h
    · next c rest heq =>
      obtain ⟨a, ha, rfl⟩ := skipSpace_eq_cons heq
      split at h
      · next hc =>
        subst hc
        obtain ⟨r', hw, hf⟩ := image_ok h
        injection hf with hx hr
        subst hx hr
        exact ⟨a, .null, _, ha, .null, rfl, by rw [word_ok hw]; rfl⟩
      · obtain ⟨⟨y, r'⟩, hy, hf⟩ := map_ok h
        injection hf with hx hr
        dsimp only at hx hr
        subst hx hr
        obtain ⟨b, v, t, hb, ht, hv, hs⟩ := takes_readText.sound hy
        refine ⟨a ++ b, v, t, ha.append hb, ht, Value.optionalText?_of_text? hv, ?_⟩
        rw [hs, List.append_assoc]
  complete := by
    intro a t v x ha ht hx r
    rcases Value.optionalText?_eq_some hx with ⟨rfl, rfl⟩ | ⟨y, hy, rfl⟩
    · cases ht with
      | null =>
        rw [List.cons_append, readOptionalText, skipSpace_blank_cons ha (by decide)]
        dsimp only
        rw [if_pos rfl, word_append]
        rfl
    · have hread := takes_readText.complete isBlank_nil ht hy r
      obtain ⟨ps, z, rfl, _, rfl⟩ := Value.text?_eq_some hy
      cases ht with
      | text ht =>
        rw [List.cons_append, readOptionalText, skipSpace_blank_cons ha (by decide)]
        dsimp only
        rw [if_neg (by decide)]
        change (readText _).map _ = _
        rw [List.nil_append, List.cons_append] at hread
        rw [hread]
        rfl

/-! ## Lists -/

theorem IsLead.append {first : Bool} {a b : List Char} (ha : IsLead first a) (hb : IsBlank b) :
    IsLead first (a ++ b) := by
  cases ha with
  | first ha => exact .first (ha.append hb)
  | further ha hc =>
    rw [List.append_assoc, List.cons_append]
    exact .further ha (hc.append hb)

/-- Moves to the next part of a frame: whether there is one, and the input at its start or
after the end of the frame. -/
def nextIn (frame : Frame) (first : Bool) (s : Input) : Read Bool :=
  match skipSpace s with
  | [] => .error (.before frame.atEnd [])
  | c :: rest =>
    if c = frame.close then .ok (false, rest)
    else if first then .ok (true, c :: rest)
    else if c = ',' then
      match skipSpace rest with
      | [] => .error (.before .endInValue [])
      | d :: rest' =>
        if d = frame.close then .error (.after .trailingComma (d :: rest'))
        else .ok (true, d :: rest')
    else .error (.after frame.unseparated (c :: rest))

theorem nextItem_eq (first : Bool) (s : Input) : nextItem first s = nextIn .list first s := rfl

namespace Frame

theorem isSpace_close (frame : Frame) : isSpace frame.close = false := by
  cases frame <;> decide

theorem comma_ne_close (frame : Frame) : ',' ≠ frame.close := by
  cases frame <;> decide

end Frame

theorem nextIn_close (frame : Frame) {b : List Char} (hb : IsBlank b) (first : Bool) (r : Input) :
    nextIn frame first (b ++ frame.close :: r) = .ok (false, r) := by
  rw [nextIn, skipSpace_blank_cons hb frame.isSpace_close]
  dsimp only
  rw [if_pos rfl]

theorem nextIn_lead (frame : Frame) {first : Bool} {a : List Char} (ha : IsLead first a) {c : Char}
    (hc : isSpace c = false) (hclose : c ≠ frame.close) (r : Input) :
    nextIn frame first (a ++ c :: r) = .ok (true, c :: r) := by
  cases ha with
  | first ha =>
    rw [nextIn, skipSpace_blank_cons ha hc]
    dsimp only
    rw [if_neg hclose, if_pos rfl]
  | further ha hb =>
    rw [nextIn, List.append_assoc, List.cons_append, skipSpace_blank_cons ha (by decide)]
    dsimp only
    rw [if_neg frame.comma_ne_close, if_neg (by decide), if_pos rfl, skipSpace_blank_cons hb hc]
    dsimp only
    rw [if_neg hclose]

/-- Moving on has either met the end of the frame or passed what stands in front of the next
part. -/
theorem nextIn_ok {frame : Frame} {first more : Bool} {s r : Input}
    (h : nextIn frame first s = .ok (more, r)) :
    (more = false ∧ ∃ b, IsBlank b ∧ s = b ++ frame.close :: r) ∨
      (more = true ∧ ∃ a, IsLead first a ∧ s = a ++ r) := by
  unfold nextIn at h
  split at h
  · simp at h
  · next c rest heq =>
    obtain ⟨a, ha, rfl⟩ := skipSpace_eq_cons heq
    split at h
    · next hc =>
      injection h with h
      injection h with hm hr
      subst hc hm hr
      exact .inl ⟨rfl, a, ha, rfl⟩
    split at h
    · next hfirst =>
      injection h with h
      injection h with hm hr
      subst hfirst hm hr
      exact .inr ⟨rfl, a, .first ha, rfl⟩
    · next hfirst =>
      split at h
      · next hc =>
        subst hc
        split at h
        · simp at h
        · next d rest' heq' =>
          obtain ⟨b, hb, rfl⟩ := skipSpace_eq_cons heq'
          split at h
          · simp at h
          · injection h with h
            injection h with hm hr
            subst hm hr
            obtain rfl := Bool.not_eq_true first ▸ hfirst
            refine .inr ⟨rfl, a ++ ',' :: b, .further ha hb, ?_⟩
            rw [List.append_assoc, List.cons_append]
      · simp at h

theorem nextIn_close_ok {frame : Frame} {first : Bool} {s r : Input}
    (h : nextIn frame first s = .ok (false, r)) :
    ∃ b, IsBlank b ∧ s = b ++ frame.close :: r := by
  rcases nextIn_ok h with ⟨_, hb⟩ | ⟨hmore, _⟩
  · exact hb
  · simp at hmore

theorem nextIn_lead_ok {frame : Frame} {first : Bool} {s r : Input}
    (h : nextIn frame first s = .ok (true, r)) : ∃ a, IsLead first a ∧ s = a ++ r := by
  rcases nextIn_ok h with ⟨hmore, _⟩ | ⟨_, ha⟩
  · simp at hmore
  · exact ha

theorem readItems_ok {first : Bool} {s r : Input} {xs : List String}
    (h : readItems first s = .ok (xs, r)) :
    ∃ vs t, IsItems first vs t ∧ vs.mapM Value.text? = some xs ∧ s = t ++ r := by
  fun_induction readItems first s generalizing xs with
  | case1 | case3 => simp at h
  | case2 first s rest hn =>
    injection h with h
    injection h with hx hr
    subst hx hr
    rw [nextItem_eq] at hn
    obtain ⟨b, hb, rfl⟩ := nextIn_close_ok hn
    exact ⟨[], b ++ [']'], .close hb, rfl, by simp [Frame.close]⟩
  | case4 first s rest hn x rest' hx ih =>
    obtain ⟨⟨ys, r'⟩, hy, hf⟩ := map_ok h
    injection hf with hxs hr
    dsimp only at hxs hr
    subst hxs hr
    obtain ⟨b, v, u, hb, hu, hv, rfl⟩ := takes_readText.sound hx
    obtain ⟨vs, t, ht, hvs, rfl⟩ := ih hy
    rw [nextItem_eq] at hn
    obtain ⟨a, ha, rfl⟩ := nextIn_lead_ok hn
    refine ⟨v :: vs, (a ++ b) ++ (u ++ t), .item (ha.append hb) hu ht, ?_, ?_⟩
    · simp only [List.mapM_cons, hv, hvs]
      rfl
    · simp only [List.append_assoc]

theorem readItems_items {vs : List Value} {first : Bool} {t : List Char}
    (h : IsItems first vs t) {xs : List String} (hx : vs.mapM Value.text? = some xs)
    (r : Input) : readItems first (t ++ r) = .ok (xs, r) := by
  induction vs generalizing first t xs with
  | nil =>
    cases h with
    | close hb =>
      injection hx with hx
      subst hx
      rw [List.append_assoc]
      exact readItems_of_end (nextIn_close .list hb first r)
  | cons v vs ih =>
    cases h with
    | @item _ _ _ a s t ha hs ht =>
      obtain ⟨y, hy, ys, hys, rfl⟩ : ∃ y, v.text? = some y ∧ ∃ ys, vs.mapM Value.text? = some ys ∧
          y :: ys = xs := by
        simpa [List.mapM_cons, Option.bind_eq_some_iff] using hx
      have hread := takes_readText.complete isBlank_nil hs hy (t ++ r)
      obtain ⟨c, s, rfl, hc, hclose⟩ := hs.exists_cons
      rw [List.append_assoc, List.append_assoc]
      refine (readItems_of_more (nextIn_lead .list ha hc hclose _) hread).trans ?_
      rw [ih ht hys]
      rfl

theorem takes_readTexts : Takes readTexts Value.texts? where
  sound := by
    intro s r xs h
    unfold readTexts at h
    split at h
    · simp at h
    · next c rest heq =>
      obtain ⟨a, ha, rfl⟩ := skipSpace_eq_cons heq
      split at h
      · next hc =>
        subst hc
        obtain ⟨vs, t, ht, hvs, rfl⟩ := readItems_ok h
        exact ⟨a, .list vs, '[' :: t, ha, .list ht, hvs, rfl⟩
      · simp at h
  complete := by
    intro a t v xs ha ht hx r
    obtain ⟨vs, rfl, hvs⟩ := Value.texts?_eq_some hx
    cases ht with
    | list ht =>
      rw [List.cons_append, readTexts, skipSpace_blank_cons ha (by decide)]
      dsimp only
      rw [if_pos rfl]
      exact readItems_items ht hvs r

end Json
end FluentBuilders
