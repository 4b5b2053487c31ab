import Mathlib.Data.List.TakeWhile
import FluentBuilders.Json.Number
import FluentBuilders.Proofs.Json.Grammar

/-! # Numbers and their grammar

A number that is scanned is one of the grammar.  A number of the grammar is scanned up to
its end when nothing that could prolong it stands behind it (`Stops`); without that
condition a digit or a point behind it would be taken for a part of it. -/
namespace FluentBuilders
namespace Json

/-! ## What stands behind a number -/

/-- Whether a text starts with no digit. -/
def StopsDigits (s : List Char) : Prop := ∀ c ∈ s.head?, c.isDigit = false

/-- Whether a text starts with nothing that prolongs a number. -/
def Stops (s : List Char) : Prop :=
  ∀ c ∈ s.head?, c.isDigit = false ∧ c ≠ '.' ∧ ¬ (c = 'e' ∨ c = 'E')

theorem Stops.stopsDigits {s : List Char} (h : Stops s) : StopsDigits s :=
  fun c hc => (h c hc).1

theorem stops_nil : Stops [] := fun _ h => by simp at h

theorem stops_cons {c : Char} {s : List Char} :
    Stops (c :: s) ↔ c.isDigit = false ∧ c ≠ '.' ∧ ¬ (c = 'e' ∨ c = 'E') := by
  simp only [Stops, List.head?_cons, Option.mem_some_iff, forall_eq']

theorem stopsDigits_cons {c : Char} {s : List Char} :
    StopsDigits (c :: s) ↔ c.isDigit = false := by
  simp only [StopsDigits, List.head?_cons, Option.mem_some_iff, forall_eq']

theorem afterDigits_append {ds r : List Char} (hds : ∀ c ∈ ds, c.isDigit = true)
    (hr : StopsDigits r) : afterDigits (ds ++ r) = r := by
  rw [afterDigits, List.dropWhile_append_of_pos hds]
  cases r with
  | nil => rfl
  | cons c r =>
    have hc := stopsDigits_cons.mp hr
    rw [List.dropWhile_cons_of_neg (by rw [hc]; decide)]

theorem isDigit_of_mem_digits {c : Char} {s : List Char} (h : c ∈ digits s) :
    c.isDigit = true :=
  List.mem_takeWhile_imp h

theorem isDigits_digits {d : Char} {s : List Char} (h : d.isDigit = true) :
    IsDigits (digits (d :: s)) := by
  refine ⟨?_, fun c hc => isDigit_of_mem_digits hc⟩
  rw [digits, List.takeWhile_cons_of_pos h]
  exact List.cons_ne_nil _ _

theorem IsDigits.exists_cons {ds : List Char} (h : IsDigits ds) :
    ∃ d ds', ds = d :: ds' ∧ d.isDigit = true := by
  obtain ⟨d, ds', rfl⟩ := List.exists_cons_of_ne_nil h.nonempty
  exact ⟨d, ds', rfl, h.digit d List.mem_cons_self⟩

/-! ## The parts of a number -/

theorem wholePart_ok {e : Cause} {s r : Input} {w : List Char}
    (h : wholePart e s = .ok (w, r)) : IsWhole w ∧ s = w ++ r := by
  unfold wholePart at h
  split at h
  · simp at h
  · next c rest =>
    split at h
    · next hc =>
      subst hc
      split at h
      · split at h
        · simp at h
        · injection h with h
          injection h with hw hr
          subst hw hr
          exact ⟨.zero, rfl⟩
      · injection h with h
        injection h with hw hr
        subst hw hr
        exact ⟨.zero, rfl⟩
    · next hc =>
      split at h
      · next hd =>
        injection h with h
        injection h with hw hr
        subst hw hr
        refine ⟨?_, (digits_append_afterDigits _).symm⟩
        rw [digits, List.takeWhile_cons_of_pos hd]
        exact .digits hc hd fun x hx => isDigit_of_mem_digits hx
      · simp at h

theorem wholePart_append {w : List Char} (hw : IsWhole w) (e : Cause) {r : Input}
    (hr : StopsDigits r) : ∃ w', wholePart e (w ++ r) = .ok (w', r) := by
  cases hw with
  | zero =>
    refine ⟨['0'], ?_⟩
    cases r with
    | nil => rfl
    | cons c r =>
      have hc := stopsDigits_cons.mp hr
      simp only [wholePart, List.singleton_append, if_true, hc, Bool.false_eq_true, if_false]
  | @digits d ds h0 hd hds =>
    have hall : ∀ c ∈ d :: ds, c.isDigit = true := List.forall_mem_cons.mpr ⟨hd, hds⟩
    refine ⟨digits (d :: (ds ++ r)), ?_⟩
    simp only [wholePart, List.cons_append, h0, hd, if_true, if_false]
    rw [← List.cons_append, afterDigits_append hall hr]

theorem fractionPart_ok {e : Cause} {s r : Input} {w : List Char}
    (h : fractionPart e s = .ok (w, r)) : ∃ f, IsFraction f ∧ s = f ++ r := by
  unfold fractionPart at h
  split at h
  · next rest =>
    split at h
    · simp at h
    · next d rest' =>
      split at h
      · next hd =>
        injection h with h
        injection h with _ hr
        subst hr
        refine ⟨'.' :: digits (d :: rest'), .present (isDigits_digits hd), ?_⟩
        rw [List.cons_append, digits_append_afterDigits]
      · simp at h
  · injection h with h
    injection h with _ hr
    exact ⟨[], .absent, hr⟩

theorem fractionPart_append {f : List Char} (hf : IsFraction f) (e : Cause) {r : Input}
    (hr : StopsDigits r) (hpoint : '.' ∉ r.head?) :
    ∃ f', fractionPart e (f ++ r) = .ok (f', r) := by
  cases hf with
  | absent =>
    refine ⟨[], ?_⟩
    rw [List.nil_append]
    unfold fractionPart
    split
    · simp at hpoint
    · rfl
  | @present ds hds =>
    obtain ⟨d, ds', rfl, hd⟩ := hds.exists_cons
    refine ⟨digits (d :: (ds' ++ r)), ?_⟩
    rw [List.cons_append, List.cons_append, fractionPart, if_pos hd, ← List.cons_append, afterDigits_append hds.digit hr]

theorem exponentSign_cases (s : Input) :
    ∃ sign, (sign = [] ∨ sign = ['+'] ∨ sign = ['-']) ∧ s = sign ++ (exponentSign s).2 := by
  unfold exponentSign
  split
  · exact ⟨['+'], .inr (.inl rfl), rfl⟩
  · exact ⟨['-'], .inr (.inr rfl), rfl⟩
  · exact ⟨[], .inl rfl, rfl⟩

theorem exponentSign_append {sign : List Char} (hs : sign = [] ∨ sign = ['+'] ∨ sign = ['-'])
    {d : Char} (hd : d.isDigit = true) (r : Input) :
    (exponentSign (sign ++ d :: r)).2 = d :: r := by
  rcases hs with rfl | rfl | rfl
  · rw [List.nil_append]
    unfold exponentSign
    split
    · next heq =>
      injection heq with hplus _
      rw [hplus] at hd
      simp at hd
    · next heq =>
      injection heq with hminus _
      rw [hminus] at hd
      simp at hd
    · rfl
  · rfl
  · rfl

theorem exponentPart_ok {e : Cause} {s r : Input} {w : Option (Bool × List Char)}
    (h : exponentPart e s = .ok (w, r)) : ∃ x, IsExponent x ∧ s = x ++ r := by
  unfold exponentPart at h
  split at h
  · injection h with h
    injection h with _ hr
    exact ⟨[], .absent, hr⟩
  · next c rest =>
    split at h
    · next hc =>
      obtain ⟨sign, hsign, hrest⟩ := exponentSign_cases rest
      dsimp only at h
      split at h
      · simp at h
      · next d more heq =>
        split at h
        · next hd =>
          injection h with h
          injection h with _ hr
          subst hr
          rw [heq] at hrest ⊢
          refine ⟨c :: (sign ++ digits (d :: more)), .present hc hsign (isDigits_digits hd), ?_⟩
          rw [List.cons_append, List.append_assoc, digits_append_afterDigits, hrest]
        · simp at h
    · injection h with h
      injection h with _ hr
      exact ⟨[], .absent, hr⟩

theorem exponentPart_append {x : List Char} (hx : IsExponent x) (e : Cause) {r : Input}
    (hr : Stops r) : ∃ x', exponentPart e (x ++ r) = .ok (x', r) := by
  cases hx with
  | absent =>
    refine ⟨none, ?_⟩
    rw [List.nil_append]
    cases r with
    | nil => rfl
    | cons c r => rw [exponentPart, if_neg (stops_cons.mp hr).2.2]
  | @present c sign ds hc hsign hds =>
    obtain ⟨d, ds', rfl, hd⟩ := hds.exists_cons
    have hs := exponentSign_append hsign hd (ds' ++ r)
    refine ⟨some ((exponentSign (sign ++ d :: (ds' ++ r))).1, digits (d :: (ds' ++ r))), ?_⟩
    rw [List.cons_append, exponentPart, if_pos hc, List.append_assoc]
    dsimp only
    rw [List.cons_append, hs]
    dsimp only
    rw [if_pos hd, ← List.cons_append, afterDigits_append hds.digit hr.stopsDigits]

/-! ## Numbers -/

/-- **A number that is scanned is one.** -/
theorem number_ok {e : Cause} {negative : Bool} {s r : Input} {n : Number}
    (h : number e negative s = .ok (n, r)) : ∃ t, IsUnsigned t ∧ s = t ++ r := by
  unfold number at h
  split at h
  · simp at h
  · next whole s₁ h₁ =>
    split at h
    · simp at h
    · next fraction s₂ h₂ =>
      split at h
      · simp at h
      · next exponent s₃ h₃ =>
        injection h with h
        injection h with _ hr
        subst hr
        obtain ⟨hw, rfl⟩ := wholePart_ok h₁
        obtain ⟨f, hf, rfl⟩ := fractionPart_ok h₂
        obtain ⟨x, hx, rfl⟩ := exponentPart_ok h₃
        exact ⟨_, .parts hw hf hx, by simp only [List.append_assoc]⟩

/-- What may come after the digits in front of the point. -/
theorem IsExponent.stops_append {x r : List Char} (hx : IsExponent x) (hr : Stops r) :
    StopsDigits (x ++ r) ∧ '.' ∉ (x ++ r).head? := by
  cases hx with
  | absent =>
    rw [List.nil_append]
    exact ⟨hr.stopsDigits, fun h => (hr '.' h).2.1 rfl⟩
  | present hc _ _ =>
    rw [List.cons_append, stopsDigits_cons, List.head?_cons, Option.mem_some_iff]
    rcases hc with rfl | rfl
    · exact ⟨rfl, by decide⟩
    · exact ⟨rfl, by decide⟩

/-- **A number is scanned up to its end** when nothing behind it prolongs it. -/
theorem number_append {t : List Char} (ht : IsUnsigned t) (e : Cause) (negative : Bool)
    {r : Input} (hr : Stops r) : ∃ n, number e negative (t ++ r) = .ok (n, r) := by
  cases ht with
  | @parts w f x hw hf hx =>
    obtain ⟨hdigits, hpoint⟩ := hx.stops_append hr
    have hfraction : StopsDigits (f ++ (x ++ r)) := by
      cases hf with
      | absent => exact hdigits
      | present _ => exact stopsDigits_cons.mpr rfl
    obtain ⟨w', hw'⟩ := wholePart_append hw e hfraction
    obtain ⟨f', hf'⟩ := fractionPart_append hf e hdigits hpoint
    obtain ⟨x', hx'⟩ := exponentPart_append hx e hr
    refine ⟨⟨negative, w', f', x'⟩, ?_⟩
    simp only [number, List.append_assoc, hw', hf', hx']

end Json
end FluentBuilders
