import FluentBuilders.Proofs.Json.Numbers
import FluentBuilders.Proofs.Json.Strings

/-! # Skipped values and their grammar

Passing over a value takes exactly the values of the grammar, at any depth.  The machine
that does it holds the open lists and objects on a stack; what such a stack still demands of
the text is `Closes`, and every run of the machine has met it. -/
namespace FluentBuilders
namespace Json

/-! ## Blanks and small tokens -/

theorem isSpace_iff {c : Char} :
    isSpace c = true ↔ c = ' ' ∨ c = '\t' ∨ c = '\n' ∨ c = '\r' := by
  simp only [isSpace, Bool.or_eq_true, decide_eq_true_eq]
  grind

theorem skipSpace_append {b : List Char} (hb : IsBlank b) (s : Input) :
    skipSpace (b ++ s) = skipSpace s :=
  List.dropWhile_append_of_pos fun c hc => isSpace_iff.mpr (hb c hc)

theorem skipSpace_cons {c : Char} (hc : isSpace c = false) (s : Input) :
    skipSpace (c :: s) = c :: s :=
  List.dropWhile_cons_of_neg (by rw [hc]; decide)

theorem skipSpace_blank_cons {b : List Char} (hb : IsBlank b) {c : Char}
    (hc : isSpace c = false) (s : Input) : skipSpace (b ++ c :: s) = c :: s := by
  rw [skipSpace_append hb, skipSpace_cons hc]

theorem isBlank_nil : IsBlank [] := fun _ h => by simp at h

theorem exists_blank_append (s : Input) : ∃ b, IsBlank b ∧ s = b ++ skipSpace s :=
  ⟨s.takeWhile isSpace, fun _ hc => isSpace_iff.mp (List.mem_takeWhile_imp hc),
    List.takeWhile_append_dropWhile.symm⟩

theorem skipSpace_eq_nil_iff {s : Input} : skipSpace s = [] ↔ IsBlank s := by
  constructor
  · intro h
    obtain ⟨b, hb, hs⟩ := exists_blank_append s
    rw [h, List.append_nil] at hs
    exact hs ▸ hb
  · intro h
    have hs := skipSpace_append h []
    rwa [List.append_nil] at hs

theorem skipSpace_eq_cons {s rest : Input} {c : Char} (h : skipSpace s = c :: rest) :
    ∃ b, IsBlank b ∧ s = b ++ c :: rest := by
  obtain ⟨b, hb, hs⟩ := exists_blank_append s
  exact ⟨b, hb, h ▸ hs⟩

theorem colon_blank {b : List Char} (hb : IsBlank b) (r : Input) :
    colon (b ++ ':' :: r) = .ok r := by
  rw [colon, skipSpace_blank_cons hb (by decide)]
  dsimp only
  rw [if_pos rfl]

theorem colon_ok {s r : Input} (h : colon s = .ok r) : ∃ b, IsBlank b ∧ s = b ++ ':' :: r := by
  unfold colon at h
  split at h
  · simp at h
  · next c rest heq =>
    obtain ⟨b, hb, rfl⟩ := skipSpace_eq_cons heq
    split at h
    · next hc =>
      injection h with h
      subst hc h
      exact ⟨b, hb, rfl⟩
    · simp at h

theorem skipKey_content {a key b : List Char} {k : List Piece} (ha : IsBlank a)
    (hkey : IsContent k key) (hb : IsBlank b) (r : Input) :
    skipKey (a ++ '\"' :: (key ++ '\"' :: (b ++ ':' :: r))) = .ok r := by
  rw [skipKey, skipSpace_blank_cons ha (by decide)]
  dsimp only
  rw [if_pos rfl, skipChars_content hkey]
  exact colon_blank hb r

theorem skipKey_ok {s r : Input} (h : skipKey s = .ok r) :
    ∃ a k key b, IsBlank a ∧ IsContent k key ∧ IsBlank b ∧
      s = a ++ '\"' :: (key ++ '\"' :: (b ++ ':' :: r)) := by
  unfold skipKey at h
  split at h
  · simp at h
  · next c rest heq =>
    obtain ⟨a, ha, rfl⟩ := skipSpace_eq_cons heq
    split at h
    · next hc =>
      subst hc
      split at h
      · simp at h
      · next rest' hk =>
        obtain ⟨k, key, hkey, rfl⟩ := skipChars_ok hk
        obtain ⟨b, hb, rfl⟩ := colon_ok h
        exact ⟨a, k, key, b, ha, hkey, hb, rfl⟩
    · simp at h

/-! ## Scalars -/

/-- A scalar that is passed over is a value. -/
theorem skipScalar_ok {c : Char} {rest r : Input} (h : skipScalar c rest = .ok r) :
    ∃ v t, IsValue v t ∧ c :: rest = t ++ r := by
  unfold skipScalar at h
  split at h
  · next hc =>
    subst hc
    exact ⟨_, _, .null, by rw [word_ok h]; rfl⟩
  split at h
  · next hc =>
    subst hc
    exact ⟨_, _, .yes, by rw [word_ok h]; rfl⟩
  split at h
  · next hc =>
    subst hc
    exact ⟨_, _, .no, by rw [word_ok h]; rfl⟩
  split at h
  · next hc =>
    subst hc
    obtain ⟨n, hn⟩ := map_snd_ok h
    obtain ⟨t, ht, rfl⟩ := number_ok hn
    exact ⟨_, _, .number (.negative ht), rfl⟩
  split at h
  · obtain ⟨n, hn⟩ := map_snd_ok h
    obtain ⟨t, ht, hs⟩ := number_ok hn
    exact ⟨_, _, .number (.positive ht), hs⟩
  split at h
  · next hc =>
    subst hc
    obtain ⟨ps, t, ht, rfl⟩ := skipChars_ok h
    exact ⟨_, _, .text ht, by simp⟩
  · simp at h

/-! ## What open frames demand -/

/-- The texts that close the open frames, from the innermost one on; in that one, either
what comes first in it is awaited or what follows a value. -/
inductive Closes : Bool → List Frame → List Char → Prop where
  | nil {first : Bool} : Closes first [] []
  | list {first : Bool} {outer : List Frame} {vs : List Value} {t u : List Char}
      (items : IsItems first vs t) (rest : Closes false outer u) :
      Closes first (.list :: outer) (t ++ u)
  | object {first : Bool} {outer : List Frame} {ms : List (List Piece × Value)} {t u : List Char}
      (members : IsMembers first ms t) (rest : Closes false outer u) :
      Closes first (.object :: outer) (t ++ u)

theorem Closes.close {first : Bool} {frame : Frame} {outer : List Frame} {b u : List Char}
    (hb : IsBlank b) (hu : Closes false outer u) :
    Closes first (frame :: outer) (b ++ frame.close :: u) := by
  have hs : b ++ frame.close :: u = (b ++ [frame.close]) ++ u := by
    rw [List.append_assoc, List.singleton_append]
  rw [hs]
  cases frame with
  | list => exact .list (.close hb) hu
  | object => exact .object (.close hb) hu

theorem Closes.item {first : Bool} {outer : List Frame} {v : Value} {a s u : List Char}
    (ha : IsLead first a) (hs : IsValue v s) (hu : Closes false (.list :: outer) u) :
    Closes first (.list :: outer) (a ++ (s ++ u)) := by
  cases hu with
  | @list _ _ vs t u ht hu =>
    have hitems := Closes.list (IsItems.item ha hs ht) hu
    simpa only [List.append_assoc] using hitems

theorem Closes.member {first : Bool} {outer : List Frame} {k : List Piece} {v : Value}
    {a key b c s u : List Char} (ha : IsLead first a) (hkey : IsContent k key) (hb : IsBlank b)
    (hc : IsBlank c) (hs : IsValue v s) (hu : Closes false (.object :: outer) u) :
    Closes first (.object :: outer)
      (a ++ ('\"' :: (key ++ '\"' :: (b ++ ':' :: (c ++ (s ++ u)))))) := by
  cases hu with
  | @object _ _ ms t u ht hu =>
    have hmembers := Closes.object (IsMembers.member ha hkey hb hc hs ht) hu
    simpa only [List.append_assoc, List.cons_append] using hmembers

/-- The texts that meet what the machine awaits and close the open frames. -/
def Meets : Awaiting → List Frame → List Char → Prop
  | .value, stack, w => ∃ a v t u, IsBlank a ∧ IsValue v t ∧ Closes false stack u ∧ w = a ++ (t ++ u)
  | .content, stack, w => Closes true stack w
  | .separator, stack, w => Closes false stack w

/-- **A run of the machine** has met what it awaited. -/
theorem skip_ok {awaiting : Awaiting} {stack : List Frame} {s r : Input}
    (h : skip awaiting stack s = .ok r) : ∃ w, Meets awaiting stack w ∧ s = w ++ r := by
  fun_induction skip awaiting stack s with
  | case1 | case4 | case7 | case10 | case13 | case16 | case18 => simp at h
  | case2 stack s rest hs ih =>
    obtain ⟨a, ha, rfl⟩ := skipSpace_eq_cons hs
    obtain ⟨w, hw, rfl⟩ := ih h
    cases hw with
    | @list _ _ vs t u ht hu =>
      refine ⟨a ++ (('[' :: t) ++ u), ⟨a, _, _, u, ha, .list ht, hu, rfl⟩, ?_⟩
      simp only [List.append_assoc, List.cons_append]
  | case3 stack s rest hs _ ih =>
    obtain ⟨a, ha, rfl⟩ := skipSpace_eq_cons hs
    obtain ⟨w, hw, rfl⟩ := ih h
    cases hw with
    | @object _ _ ms t u ht hu =>
      refine ⟨a ++ (('\x7b' :: t) ++ u), ⟨a, _, _, u, ha, .object ht, hu, rfl⟩, ?_⟩
      simp only [List.append_assoc, List.cons_append]
  | case5 stack s c rest hs _ _ rest' hc ih =>
    obtain ⟨a, ha, rfl⟩ := skipSpace_eq_cons hs
    obtain ⟨v, t, ht, hcrest⟩ := skipScalar_ok hc
    obtain ⟨u, hu, rfl⟩ := ih h
    refine ⟨a ++ (t ++ u), ⟨a, v, t, u, ha, ht, hu, rfl⟩, ?_⟩
    rw [hcrest, List.append_assoc, List.append_assoc]
  | case6 s =>
    injection h with h
    exact ⟨[], .nil, h⟩
  | case8 s frame outer rest hs ih =>
    obtain ⟨b, hb, rfl⟩ := skipSpace_eq_cons hs
    obtain ⟨u, hu, rfl⟩ := ih h
    refine ⟨b ++ frame.close :: u, Closes.close hb hu, ?_⟩
    rw [List.append_assoc, List.cons_append]
  | case9 s outer c rest hs _ ih =>
    obtain ⟨w, ⟨a, v, t, u, ha, ht, hu, rfl⟩, rfl⟩ := ih h
    exact ⟨a ++ (t ++ u), Closes.item (.first ha) ht hu, rfl⟩
  | case11 s outer c rest _ rest' hk _ ih =>
    obtain ⟨a, k, key, b, ha, hkey, hb, rfl⟩ := skipKey_ok hk
    obtain ⟨w, ⟨c, v, t, u, hc, ht, hu, rfl⟩, rfl⟩ := ih h
    refine ⟨_, Closes.member (.first ha) hkey hb hc ht hu, ?_⟩
    simp only [List.append_assoc, List.cons_append]
  | case12 s =>
    injection h with h
    exact ⟨[], .nil, h⟩
  | case14 s frame outer rest hs ih =>
    obtain ⟨b, hb, rfl⟩ := skipSpace_eq_cons hs
    obtain ⟨u, hu, rfl⟩ := ih h
    refine ⟨b ++ frame.close :: u, Closes.close hb hu, ?_⟩
    rw [List.append_assoc, List.cons_append]
  | case15 s outer rest hs _ ih =>
    obtain ⟨a, ha, rfl⟩ := skipSpace_eq_cons hs
    obtain ⟨w, ⟨b, v, t, u, hb, ht, hu, rfl⟩, rfl⟩ := ih h
    refine ⟨_, Closes.item (.further ha hb) ht hu, ?_⟩
    simp only [List.append_assoc, List.cons_append]
  | case17 s outer rest rest' hk hs _ ih =>
    obtain ⟨a, ha, rfl⟩ := skipSpace_eq_cons hs
    obtain ⟨b, k, key, c, hb, hkey, hc, rfl⟩ := skipKey_ok hk
    obtain ⟨w, ⟨d, v, t, u, hd, ht, hu, rfl⟩, rfl⟩ := ih h
    refine ⟨_, Closes.member (.further ha hb) hkey hc hd ht hu, ?_⟩
    simp only [List.append_assoc, List.cons_append]

theorem skipValue_ok {s r : Input} (h : skipValue s = .ok r) :
    ∃ a v t, IsBlank a ∧ IsValue v t ∧ s = a ++ (t ++ r) := by
  obtain ⟨w, ⟨a, v, t, u, ha, ht, hu, rfl⟩, rfl⟩ := skip_ok h
  cases hu
  exact ⟨a, v, t, ha, ht, by simp only [List.append_assoc, List.nil_append]⟩

/-! ## The steps of the machine -/

theorem skip_value (stack : List Frame) (s : Input) :
    skip .value stack s =
      match skipSpace s with
      | [] => .error (.before .endInValue [])
      | c :: rest =>
        if c = '[' then skip .content (.list :: stack) rest
        else if c = '\x7b' then skip .content (.object :: stack) rest
        else (skipScalar c rest).bind fun rest' => skip .separator stack rest' := by
  rw [skip]
  split
  · next heq => rw [heq]
  · next c rest heq =>
    rw [heq]
    dsimp only
    split
    · rfl
    · split
      · rfl
      · split
        · next h => rw [h]; rfl
        · next h => rw [h]; rfl

theorem skip_content (frame : Frame) (outer : List Frame) (s : Input) :
    skip .content (frame :: outer) s =
      match skipSpace s with
      | [] => .error (.before frame.atEnd [])
      | c :: rest =>
        if c = frame.close then skip .separator outer rest
        else
          match frame with
          | .list => skip .value (.list :: outer) s
          | .object => (skipKey s).bind fun rest' => skip .value (.object :: outer) rest' := by
  rw [skip.eq_def]
  dsimp only
  split
  · next heq => rw [heq]
  · next c rest heq =>
    rw [heq]
    dsimp only
    split
    · rfl
    · cases frame with
      | list => rfl
      | object =>
        dsimp only
        split
        · next h => rw [h]; rfl
        · next h => rw [h]; rfl

theorem skip_separator (frame : Frame) (outer : List Frame) (s : Input) :
    skip .separator (frame :: outer) s =
      match skipSpace s with
      | [] => .error (.before frame.atEnd [])
      | c :: rest =>
        if c = frame.close then skip .separator outer rest
        else if c = ',' then
          match frame with
          | .list => skip .value (.list :: outer) rest
          | .object => (skipKey rest).bind fun rest' => skip .value (.object :: outer) rest'
        else .error (.after frame.unseparated (c :: rest)) := by
  rw [skip.eq_def]
  dsimp only
  split
  · next heq => rw [heq]
  · next c rest heq =>
    rw [heq]
    dsimp only
    split
    · rfl
    · split
      · cases frame with
        | list => rfl
        | object =>
          dsimp only
          split
          · next h => rw [h]; rfl
          · next h => rw [h]; rfl
      · rfl

/-- The state in which the machine meets what comes first in a frame, or what follows a
value in it. -/
def Awaiting.inFrame : Bool → Awaiting
  | true => .content
  | false => .separator

theorem skip_close {frame : Frame} {b : List Char} (hb : IsBlank b) (first : Bool)
    (outer : List Frame) (rest : Input) :
    skip (.inFrame first) (frame :: outer) (b ++ frame.close :: rest) =
      skip .separator outer rest := by
  have hs : skipSpace (b ++ frame.close :: rest) = frame.close :: rest :=
    skipSpace_blank_cons hb (by cases frame <;> decide) rest
  cases first with
  | true =>
    rw [Awaiting.inFrame, skip_content, hs]
    dsimp only
    rw [if_pos rfl]
  | false =>
    rw [Awaiting.inFrame, skip_separator, hs]
    dsimp only
    rw [if_pos rfl]

/-! ## What values start with -/

theorem ne_of_isDigit {c : Char} (hc : c.isDigit = true) {d : Char} (hd : d.isDigit = false) :
    c ≠ d := by
  rintro rfl
  rw [hc] at hd
  simp at hd

theorem isSpace_of_isDigit {c : Char} (h : c.isDigit = true) : isSpace c = false := by
  rw [Bool.eq_false_iff]
  intro hc
  rcases isSpace_iff.mp hc with rfl | rfl | rfl | rfl <;> simp at h

theorem IsUnsigned.exists_cons {s : List Char} (h : IsUnsigned s) :
    ∃ d s', s = d :: s' ∧ d.isDigit = true := by
  cases h with
  | parts hw _ _ =>
    cases hw with
    | zero => exact ⟨_, _, rfl, rfl⟩
    | digits _ hd _ => exact ⟨_, _, rfl, hd⟩

/-- A value starts neither with a blank nor with a closing bracket. -/
theorem IsValue.exists_cons {v : Value} {s : List Char} (h : IsValue v s) :
    ∃ c s', s = c :: s' ∧ isSpace c = false ∧ c ≠ ']' := by
  cases h with
  | number h =>
    cases h with
    | positive h =>
      obtain ⟨d, s', rfl, hd⟩ := h.exists_cons
      exact ⟨d, s', rfl, isSpace_of_isDigit hd, ne_of_isDigit hd rfl⟩
    | negative _ => exact ⟨_, _, rfl, by decide⟩
  | _ => exact ⟨_, _, rfl, by decide⟩

theorem stops_blank {b : List Char} (hb : IsBlank b) {s : List Char} (hs : Stops s) :
    Stops (b ++ s) := by
  cases b with
  | nil => exact hs
  | cons c b =>
    rw [List.cons_append, stops_cons]
    rcases hb c List.mem_cons_self with rfl | rfl | rfl | rfl <;> decide

theorem IsLead.stops {a : List Char} (h : IsLead false a) (s : List Char) : Stops (a ++ s) := by
  cases h with
  | further hb _ =>
    rw [List.append_assoc]
    exact stops_blank hb (stops_cons.mpr (by decide))

theorem IsItems.stops {vs : List Value} {t : List Char} (h : IsItems false vs t)
    (r : List Char) : Stops (t ++ r) := by
  cases h with
  | close hb =>
    rw [List.append_assoc]
    exact stops_blank hb (stops_cons.mpr (by decide))
  | item ha _ _ =>
    rw [List.append_assoc]
    exact ha.stops _

theorem IsMembers.stops {ms : List (List Piece × Value)} {t : List Char}
    (h : IsMembers false ms t) (r : List Char) : Stops (t ++ r) := by
  cases h with
  | close hb =>
    rw [List.append_assoc]
    exact stops_blank hb (stops_cons.mpr (by decide))
  | member ha _ _ _ _ _ =>
    rw [List.append_assoc]
    exact ha.stops _

/-! ## Values are passed over -/

theorem skip_item {first : Bool} {a : List Char} (ha : IsLead first a) {v : Value}
    {s : List Char} (hs : IsValue v s) (outer : List Frame) (r : Input) :
    skip (.inFrame first) (.list :: outer) (a ++ (s ++ r)) =
      skip .value (.list :: outer) (s ++ r) := by
  obtain ⟨c, s, rfl, hc, hclose⟩ := hs.exists_cons
  rw [List.cons_append]
  cases ha with
  | first ha =>
    rw [Awaiting.inFrame, skip_content, skipSpace_blank_cons ha hc]
    dsimp only
    have hopen : c ≠ Frame.list.close := hclose
    rw [if_neg hopen, skip_value, skip_value, skipSpace_append ha]
  | further ha hb =>
    rw [Awaiting.inFrame, List.append_assoc, List.cons_append, skip_separator,
      skipSpace_blank_cons ha (by decide)]
    dsimp only
    rw [if_neg (by decide), if_pos rfl, skip_value, skip_value, skipSpace_append hb]

theorem skip_member {first : Bool} {a key b : List Char} {k : List Piece} (ha : IsLead first a)
    (hkey : IsContent k key) (hb : IsBlank b) (outer : List Frame) (r : Input) :
    skip (.inFrame first) (.object :: outer)
        (a ++ ('\"' :: (key ++ '\"' :: (b ++ ':' :: r)))) =
      skip .value (.object :: outer) r := by
  cases ha with
  | first ha =>
    rw [Awaiting.inFrame, skip_content, skipSpace_blank_cons ha (by decide)]
    dsimp only
    rw [if_neg (by decide), skipKey_content ha hkey hb]
    rfl
  | further ha ha' =>
    rw [Awaiting.inFrame, List.append_assoc, List.cons_append, skip_separator,
      skipSpace_blank_cons ha (by decide)]
    dsimp only
    rw [if_neg (by decide), if_pos rfl, skipKey_content ha' hkey hb]
    rfl

theorem skip_scalar {c : Char} {s r : Input} (hc : isSpace c = false) (hlist : c ≠ '[')
    (hobject : c ≠ '\x7b') (h : skipScalar c s = .ok r) (stack : List Frame) :
    skip .value stack (c :: s) = skip .separator stack r := by
  rw [skip_value, skipSpace_cons hc]
  dsimp only
  rw [if_neg hlist, if_neg hobject, h]
  rfl

theorem skip_number {s : List Char} (hs : IsNumber s) (stack : List Frame) {r : Input}
    (hr : Stops r) : skip .value stack (s ++ r) = skip .separator stack r := by
  cases hs with
  | positive h =>
    obtain ⟨n, hn⟩ := number_append h .invalidNumber false hr
    obtain ⟨d, s, rfl, hd⟩ := h.exists_cons
    refine skip_scalar (isSpace_of_isDigit hd) (ne_of_isDigit hd rfl) (ne_of_isDigit hd rfl) ?_ stack
    rw [skipScalar, if_neg (ne_of_isDigit hd rfl), if_neg (ne_of_isDigit hd rfl),
      if_neg (ne_of_isDigit hd rfl), if_neg (ne_of_isDigit hd rfl), if_pos hd]
    change (number .invalidNumber false (d :: s ++ r)).map Prod.snd = _
    rw [hn]
    rfl
  | @negative s h =>
    obtain ⟨n, hn⟩ := number_append h .invalidNumber true hr
    refine skip_scalar (by decide) (by decide) (by decide) ?_ stack
    rw [skipScalar, if_neg (by decide), if_neg (by decide), if_neg (by decide), if_pos rfl]
    change (number .invalidNumber true (s ++ r)).map Prod.snd = _
    rw [hn]
    rfl

mutual

/-- **A value is passed over up to its end** when nothing behind it prolongs a number. -/
theorem skip_of_isValue {v : Value} {s : List Char} (h : IsValue v s) (stack : List Frame)
    {r : Input} (hr : Stops r) : skip .value stack (s ++ r) = skip .separator stack r := by
  cases h with
  | null =>
    refine skip_scalar (by decide) (by decide) (by decide) ?_ stack
    exact word_append ['u', 'l', 'l'] r
  | yes =>
    refine skip_scalar (by decide) (by decide) (by decide) ?_ stack
    exact word_append ['r', 'u', 'e'] r
  | no =>
    refine skip_scalar (by decide) (by decide) (by decide) ?_ stack
    exact word_append ['a', 'l', 's', 'e'] r
  | number h => exact skip_number h stack hr
  | text h =>
    rw [List.cons_append, List.append_assoc]
    refine skip_scalar (by decide) (by decide) (by decide) ?_ stack
    exact skipChars_content h r
  | list h =>
    rw [List.cons_append, skip_value]
    exact skip_of_isItems h stack r
  | object h =>
    rw [List.cons_append, skip_value]
    exact skip_of_isMembers h stack r

theorem skip_of_isItems {first : Bool} {vs : List Value} {t : List Char}
    (h : IsItems first vs t) (outer : List Frame) (r : Input) :
    skip (.inFrame first) (.list :: outer) (t ++ r) = skip .separator outer r := by
  cases h with
  | close hb =>
    rw [List.append_assoc]
    exact skip_close hb first outer r
  | item ha hs ht =>
    rw [List.append_assoc, List.append_assoc, skip_item ha hs,
      skip_of_isValue hs _ (ht.stops r)]
    exact skip_of_isItems ht outer r

theorem skip_of_isMembers {first : Bool} {ms : List (List Piece × Value)} {t : List Char}
    (h : IsMembers first ms t) (outer : List Frame) (r : Input) :
    skip (.inFrame first) (.object :: outer) (t ++ r) = skip .separator outer r := by
  cases h with
  | close hb =>
    rw [List.append_assoc]
    exact skip_close hb first outer r
  | member ha hkey hb hc hs ht =>
    simp only [List.append_assoc, List.cons_append]
    rw [skip_member ha hkey hb, skip_value, skipSpace_append hc, ← skip_value,
      skip_of_isValue hs _ (ht.stops r)]
    exact skip_of_isMembers ht outer r

end

theorem skipValue_append {a : List Char} (ha : IsBlank a) {v : Value} {s : List Char}
    (h : IsValue v s) {r : Input} (hr : Stops r) : skipValue (a ++ (s ++ r)) = .ok r := by
  rw [skipValue, skip_value, skipSpace_append ha, ← skip_value, skip_of_isValue h [] hr, skip]

end Json
end FluentBuilders
