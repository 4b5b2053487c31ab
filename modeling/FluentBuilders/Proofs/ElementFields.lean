import FluentBuilders.Proofs.Json.Wanted
import FluentBuilders.Proofs.WrittenLines

/-! # Reading the fields of an element

A draft is filled one value at a time: by the members of an object, each of them by its key,
or by the items of a list in the order of the fields.  What the readers of members and of
items make of a draft is what the values they take make of it (`Draft.fill`,
`Draft.enterAll`), and each field takes the values that mean one (`Field.meaning`). -/
namespace FluentBuilders
open Json

/-! ## Fields -/

namespace Field

/-- What the value of a field is. -/
def Content : Field → Type
  | .owner => String
  | .name => String
  | .parameters => List String
  | .location => Option String

/-- What a value means as the value of a field. -/
def meaning : (f : Field) → Value → Option f.Content
  | .owner => Value.text?
  | .name => Value.text?
  | .parameters => Value.texts?
  | .location => Value.optionalText?

theorem ofKey?_eq_some_iff {key : List Char} {f : Field} :
    ofKey? key = some f ↔ key = f.key.toList := by
  constructor
  · intro h
    have hkey := List.find?_some h
    exact (of_decide_eq_true hkey).symm
  · rintro rfl
    exact ofKey?_key f

theorem key_injective {f g : Field} (h : f.key.toList = g.key.toList) : f = g := by
  have hf := ofKey?_key f
  rw [h, ofKey?_key] at hf
  injection hf with hf
  exact hf.symm

end Field

/-! ## Drafts -/

namespace Draft

/-- The value of a field, if it has been read. -/
def get (d : Draft) : (f : Field) → Option f.Content
  | .owner => d.owner
  | .name => d.name
  | .parameters => d.parameters
  | .location => d.location

/-- A draft with the value of a field. -/
def set (d : Draft) : (f : Field) → f.Content → Draft
  | .owner, x => { d with owner := some x }
  | .name, x => { d with name := some x }
  | .parameters, x => { d with parameters := some x }
  | .location, x => { d with location := some x }

theorem get_set_self (d : Draft) (f : Field) (x : f.Content) : (d.set f x).get f = some x := by
  cases f <;> rfl

theorem get_set_of_ne (d : Draft) {f g : Field} (x : f.Content) (h : g ≠ f) :
    (d.set f x).get g = d.get g := by
  cases f <;> cases g <;> first | rfl | exact absurd rfl h

theorem has_eq (d : Draft) (f : Field) : d.has f = (d.get f).isSome := by
  cases f <;> rfl

theorem ext_get {d d' : Draft} (h : ∀ f, d.get f = d'.get f) : d = d' := by
  have howner := h .owner
  have hname := h .name
  have hparameters := h .parameters
  have hlocation := h .location
  cases d
  cases d'
  simp only [get] at howner hname hparameters hlocation
  subst howner hname hparameters hlocation
  rfl

theorem get_empty (f : Field) : empty.get f = none := by
  cases f <;> rfl

/-- A field takes the values that mean one. -/
theorem takes_read (d : Draft) (f : Field) :
    Takes (d.read f) fun v => (f.meaning v).map (d.set f) := by
  cases f with
  | owner => exact takes_readText.map (d.set .owner)
  | name => exact takes_readText.map (d.set .name)
  | parameters => exact takes_readTexts.map (d.set .parameters)
  | location => exact takes_readOptionalText.map (d.set .location)

theorem element_ok_iff {d : Draft} {e : Element} :
    d.element = .ok e ↔ d.owner = some e.owner ∧ d.name = some e.name ∧
      d.parameters.getD [] = e.parameters ∧ d.location.getD none = e.location := by
  obtain ⟨owner, name, parameters, location⟩ := d
  cases e
  cases owner <;> cases name <;> simp [element]

/-- A draft with a member of an object whose key has the given characters: a field that has
been read must not come again, and an unknown member changes nothing. -/
def enter (d : Draft) (key : List Char) (v : Value) : Option Draft :=
  match Field.ofKey? key with
  | some f => if d.has f then none else (f.meaning v).map (d.set f)
  | none => some d

/-- A draft with a member of an object, whose key must have characters. -/
def fill (d : Draft) (m : List Piece × Value) : Option Draft :=
  (content? m.1).bind fun key => d.enter key m.2

/-- A draft with the values of fields in order, as far as they are given. -/
def enterAll (d : Draft) : List Field → List Value → Option Draft
  | _, [] => some d
  | [], _ :: _ => none
  | f :: fs, v :: vs => (f.meaning v).bind fun x => (d.set f x).enterAll fs vs

end Draft

/-! ## Members -/

theorem nextMember_eq (first : Bool) (s : Input) : nextMember first s = nextIn .object first s :=
  rfl

theorem readKey_ok {s r : Input} {key : List Char} (h : readKey s = .ok (key, r)) :
    ∃ k t, IsContent k t ∧ content? k = some key ∧ s = '\"' :: (t ++ '\"' :: r) := by
  unfold readKey at h
  split at h
  · simp at h
  · next c rest =>
    split at h
    · next hc =>
      subst hc
      obtain ⟨k, t, ht, hk, rfl⟩ := readChars_ok h
      exact ⟨k, t, ht, hk, rfl⟩
    · simp at h

theorem readMember_ok {d d' : Draft} {key : List Char} {s r : Input}
    (h : readMember d key s = .ok (d', r)) :
    ∃ b c v t, IsBlank b ∧ IsBlank c ∧ IsValue v t ∧ d.enter key v = some d' ∧
      s = b ++ ':' :: (c ++ (t ++ r)) := by
  unfold readMember at h
  split at h
  · next f hf =>
    split at h
    · simp at h
    · next hhas =>
      obtain ⟨rest, hcolon, hread⟩ := bind_ok h
      obtain ⟨b, hb, rfl⟩ := colon_ok hcolon
      obtain ⟨c, v, t, hc, ht, hv, rfl⟩ := (d.takes_read f).sound hread
      refine ⟨b, c, v, t, hb, hc, ht, ?_, rfl⟩
      simp only [Draft.enter, hf, if_neg hhas, hv]
  · next hf =>
    obtain ⟨rest, hcolon, hread⟩ := bind_ok h
    obtain ⟨b, hb, rfl⟩ := colon_ok hcolon
    obtain ⟨rest', hskip, heq⟩ := image_ok hread
    injection heq with hd hr
    subst hd hr
    obtain ⟨c, v, t, hc, ht, rfl⟩ := skipValue_ok hskip
    refine ⟨b, c, v, t, hb, hc, ht, ?_, rfl⟩
    simp only [Draft.enter, hf]

theorem readMember_value {d d' : Draft} {key b c t : List Char} {v : Value} (hb : IsBlank b)
    (hc : IsBlank c) (ht : IsValue v t) (h : d.enter key v = some d') {r : Input}
    (hr : Stops r) : readMember d key (b ++ ':' :: (c ++ (t ++ r))) = .ok (d', r) := by
  rw [readMember, colon_blank hb]
  rw [Draft.enter] at h
  cases hf : Field.ofKey? key with
  | none =>
    rw [hf] at h
    injection h with h
    subst h
    dsimp only [Except.bind]
    rw [skipValue_append hc ht hr]
    rfl
  | some f =>
    rw [hf] at h
    dsimp only at h ⊢
    split at h
    · simp at h
    · next hhas =>
      rw [if_neg hhas]
      exact (d.takes_read f).complete hc ht h r

/-- **The members of an object are read** into a draft as their values fill it. -/
theorem readMembers_ok {first : Bool} {d d' : Draft} {s r : Input}
    (h : readMembers first d s = .ok (d', r)) :
    ∃ ms t, IsMembers first ms t ∧ ms.foldlM Draft.fill d = some d' ∧ s = t ++ r := by
  fun_induction readMembers first d s with
  | case1 | case3 | case4 => simp at h
  | case2 first d s rest hn =>
    injection h with h
    injection h with hd hr
    subst hd hr
    rw [nextMember_eq] at hn
    obtain ⟨b, hb, rfl⟩ := nextIn_close_ok hn
    exact ⟨[], b ++ ['\x7d'], .close hb, rfl, by simp [Frame.close]⟩
  | case5 first d s rest hn key rest' hk d₁ rest'' hm ih =>
    obtain ⟨k, t, ht, hkey, rfl⟩ := readKey_ok hk
    obtain ⟨b, c, v, u, hb, hc, hu, henter, rfl⟩ := readMember_ok hm
    obtain ⟨ms, w, hw, hfill, rfl⟩ := ih h
    rw [nextMember_eq] at hn
    obtain ⟨a, ha, rfl⟩ := nextIn_lead_ok hn
    refine ⟨(k, v) :: ms, _, .member ha ht hb hc hu hw, ?_, ?_⟩
    · rw [List.foldlM_cons, Draft.fill, hkey, Option.bind_some, henter]
      exact hfill
    · simp only [List.append_assoc, List.cons_append]

theorem readMembers_members {ms : List (List Piece × Value)} {first : Bool} {t : List Char}
    (h : IsMembers first ms t) {d d' : Draft} (hd : ms.foldlM Draft.fill d = some d')
    (r : Input) : readMembers first d (t ++ r) = .ok (d', r) := by
  induction ms generalizing first t d with
  | nil =>
    cases h with
    | close hb =>
      injection hd with hd
      subst hd
      rw [List.append_assoc]
      exact readMembers_of_end (nextIn_close .object hb first r)
  | cons m ms ih =>
    cases h with
    | @member _ k v _ a key b c s t ha hkey hb hc hs ht =>
      rw [List.foldlM_cons] at hd
      obtain ⟨d₁, hfill, hd⟩ := Option.bind_eq_some_iff.mp hd
      obtain ⟨chars, hchars, henter⟩ := Option.bind_eq_some_iff.mp hfill
      have hk : readKey ('\"' :: (key ++ '\"' :: (b ++ ':' :: (c ++ (s ++ (t ++ r)))))) =
          .ok (chars, b ++ ':' :: (c ++ (s ++ (t ++ r)))) := by
        rw [readKey, if_pos rfl]
        exact readChars_content hkey hchars _
      have hm := readMember_value hb hc hs henter (ht.stops r)
      simp only [List.append_assoc, List.cons_append]
      rw [readMembers_of_more (nextIn_lead .object ha (by decide) (by decide) _) hk hm, ih ht hd]

/-! ## Items -/

theorem endOfList_close {b : List Char} (hb : IsBlank b) (r : Input) :
    endOfList (b ++ ']' :: r) = .ok r := by
  rw [endOfList, skipSpace_blank_cons hb (by decide)]
  dsimp only
  rw [if_pos rfl]

theorem endOfList_ok {s r : Input} (h : endOfList s = .ok r) :
    ∃ b, IsBlank b ∧ s = b ++ ']' :: r := by
  unfold endOfList at h
  split at h
  · simp at h
  · next c rest heq =>
    obtain ⟨b, hb, rfl⟩ := skipSpace_eq_cons heq
    split at h
    · next hc =>
      injection h with h
      subst hc h
      exact ⟨b, hb, rfl⟩
    · split at h
      · split at h <;> simp at h
      · simp at h

/-- **The fields of a list are read** in order, as far as there are items. -/
theorem readFields_ok {fs : List Field} {first : Bool} {d d' : Draft} {count count' : Nat}
    {s r : Input} (h : readFields fs first d count s = .ok (d', count', r)) :
    ∃ vs t, IsItems first vs t ∧ d.enterAll fs vs = some d' ∧ s = t ++ r := by
  induction fs generalizing first d count s with
  | nil =>
    rw [readFields] at h
    obtain ⟨rest, hend, heq⟩ := image_ok h
    simp only [Prod.mk.injEq] at heq
    obtain ⟨rfl, _, rfl⟩ := heq
    obtain ⟨b, hb, rfl⟩ := endOfList_ok hend
    exact ⟨[], b ++ [']'], .close hb, by rw [Draft.enterAll], by simp⟩
  | cons f fs ih =>
    rw [readFields] at h
    split at h
    · simp at h
    · next rest hn =>
      simp only [Except.ok.injEq, Prod.mk.injEq] at h
      obtain ⟨rfl, _, rfl⟩ := h
      rw [nextItem_eq] at hn
      obtain ⟨b, hb, rfl⟩ := nextIn_close_ok hn
      exact ⟨[], b ++ [']'], .close hb, by rw [Draft.enterAll], by simp [Frame.close]⟩
    · next rest hn =>
      split at h
      · simp at h
      · next d₁ rest' hread =>
        obtain ⟨b, v, t, hb, ht, hv, rfl⟩ := (d.takes_read f).sound hread
        obtain ⟨x, hx, rfl⟩ := Option.map_eq_some_iff.mp hv
        obtain ⟨vs, u, hu, hall, rfl⟩ := ih h
        rw [nextItem_eq] at hn
        obtain ⟨a, ha, rfl⟩ := nextIn_lead_ok hn
        refine ⟨v :: vs, (a ++ b) ++ (t ++ u), .item (ha.append hb) ht hu, ?_, ?_⟩
        · rw [Draft.enterAll, hx, Option.bind_some, hall]
        · simp only [List.append_assoc]

theorem readFields_items {fs : List Field} {vs : List Value} {first : Bool} {t : List Char}
    (h : IsItems first vs t) {d d' : Draft} (hd : d.enterAll fs vs = some d') (count : Nat)
    (r : Input) : ∃ count', readFields fs first d count (t ++ r) = .ok (d', count', r) := by
  induction fs generalizing vs first t d count with
  | nil =>
    cases h with
    | close hb =>
      rw [Draft.enterAll] at hd
      injection hd with hd
      subst hd
      refine ⟨count, ?_⟩
      rw [readFields, List.append_assoc, List.singleton_append, endOfList_close hb]
      rfl
    | item _ _ _ => simp [Draft.enterAll] at hd
  | cons f fs ih =>
    cases h with
    | close hb =>
      rw [Draft.enterAll] at hd
      injection hd with hd
      subst hd
      refine ⟨count, ?_⟩
      have hend := nextIn_close .list hb first r
      rw [Frame.close] at hend
      rw [readFields, nextItem_eq, List.append_assoc, List.singleton_append, hend]
    | @item _ v vs a s t ha hs ht =>
      rw [Draft.enterAll] at hd
      obtain ⟨x, hx, hd⟩ := Option.bind_eq_some_iff.mp hd
      have hv : (f.meaning v).map (d.set f) = some (d.set f x) := by rw [hx, Option.map_some]
      have hread := (d.takes_read f).complete isBlank_nil hs hv (t ++ r)
      obtain ⟨count', hrest⟩ := ih ht hd (count + 1)
      refine ⟨count', ?_⟩
      obtain ⟨c, s, rfl, hc, hclose⟩ := hs.exists_cons
      rw [List.nil_append] at hread
      rw [readFields, nextItem_eq, List.append_assoc, List.append_assoc, List.cons_append,
        nextIn_lead .list ha hc hclose]
      dsimp only
      rw [← List.cons_append, hread]
      exact hrest

end FluentBuilders
