import FluentBuilders.Proofs.ElementFields

/-! # Elements and the values that denote them

An element is read from exactly the values that denote one (`Denotes`): an object with the
fields as members, or a list of them.  What the members of an object make of a draft is
described field by field, since each field is filled by the members with its own key and by
no others (`foldlM_fill_iff`). -/
namespace FluentBuilders
open Json

/-! ## What members make of a draft -/

/-- The values of the members with a key, in order. -/
def valuesOf (key : String) (ms : List (List Piece × Value)) : List Value :=
  (ms.filter fun m => content? m.1 = some key.toList).map Prod.snd

theorem valuesOf_cons_of_eq {key : String} {m : List Piece × Value}
    (h : content? m.1 = some key.toList) (ms : List (List Piece × Value)) :
    valuesOf key (m :: ms) = m.2 :: valuesOf key ms := by
  simp only [valuesOf, List.filter_cons, h, decide_true, if_true, List.map_cons]

theorem valuesOf_cons_of_ne {key : String} {m : List Piece × Value}
    (h : content? m.1 ≠ some key.toList) (ms : List (List Piece × Value)) :
    valuesOf key (m :: ms) = valuesOf key ms := by
  simp only [valuesOf, List.filter_cons, h, decide_false, Bool.false_eq_true, if_false]

/-- What the values of the members with a key make of a field: none leave it as it is, one
fills it when it was empty, and two are too many. -/
inductive Filled {α : Type} (meaning : Value → Option α) :
    Option α → List Value → Option α → Prop where
  | kept {x : Option α} : Filled meaning x [] x
  | filled {v : Value} {x : α} (h : meaning v = some x) : Filled meaning none [v] (some x)

namespace Filled
variable {α : Type} {meaning : Value → Option α} {before after : Option α}

theorem nil_iff : Filled meaning before [] after ↔ before = after := by
  constructor
  · rintro ⟨⟩
    rfl
  · rintro rfl
    exact .kept

theorem cons_iff {v : Value} {vs : List Value} :
    Filled meaning before (v :: vs) after ↔
      before = none ∧ ∃ x, meaning v = some x ∧ Filled meaning (some x) vs after := by
  constructor
  · rintro ⟨⟩
    exact ⟨rfl, _, ‹_›, .kept⟩
  · rintro ⟨rfl, x, hx, h⟩
    cases h
    exact .filled hx

theorem required {x : α} {vs : List Value} (h : Filled meaning none vs after)
    (hx : after = some x) : ∃ v, vs = [v] ∧ meaning v = some x := by
  subst hx
  cases h with
  | filled h => exact ⟨_, rfl, h⟩

theorem optional {x : α} {vs : List Value} {default : α} (h : Filled meaning none vs after)
    (hx : after.getD default = x) :
    (vs = [] ∧ x = default) ∨ ∃ v, vs = [v] ∧ meaning v = some x := by
  cases h with
  | kept => exact .inl ⟨rfl, hx.symm⟩
  | filled h => exact .inr ⟨_, rfl, hx ▸ h⟩

end Filled

/-- One member with the key of a field needs the field to be empty, and fills it. -/
theorem fill_of_field {d d' : Draft} {m : List Piece × Value} {f : Field}
    (h : content? m.1 = some f.key.toList) :
    d.fill m = some d' ↔ d.get f = none ∧ ∃ x, f.meaning m.2 = some x ∧ d.set f x = d' := by
  have hfill : d.fill m = if d.has f then none else (f.meaning m.2).map (d.set f) := by
    simp only [Draft.fill, h, Option.bind_some, Draft.enter, Field.ofKey?_key]
  rw [hfill, Draft.has_eq]
  cases d.get f with
  | none => simp
  | some x => simp

/-- The same, as the fields are described one by one. -/
theorem filled_cons_of_field {d d' : Draft} {m : List Piece × Value} {f : Field}
    (h : content? m.1 = some f.key.toList) (ms : List (List Piece × Value)) :
    (∀ g : Field, Filled g.meaning (d.get g) (valuesOf g.key (m :: ms)) (d'.get g)) ↔
      d.get f = none ∧ ∃ x, f.meaning m.2 = some x ∧
        ∀ g : Field, Filled g.meaning ((d.set f x).get g) (valuesOf g.key ms) (d'.get g) := by
  have hself := valuesOf_cons_of_eq h ms
  have hother : ∀ g : Field, g ≠ f → valuesOf g.key (m :: ms) = valuesOf g.key ms := by
    intro g hg
    apply valuesOf_cons_of_ne
    rw [h]
    intro hkey
    injection hkey with hkey
    exact hg (Field.key_injective hkey.symm)
  constructor
  · intro hfilled
    have hf := hfilled f
    rw [hself, Filled.cons_iff] at hf
    obtain ⟨hnone, x, hx, hrest⟩ := hf
    refine ⟨hnone, x, hx, fun g => ?_⟩
    by_cases hg : g = f
    · subst hg
      rw [Draft.get_set_self]
      exact hrest
    · rw [Draft.get_set_of_ne d x hg, ← hother g hg]
      exact hfilled g
  · rintro ⟨hnone, x, hx, hfilled⟩ g
    have hrest := hfilled g
    by_cases hg : g = f
    · subst hg
      rw [Draft.get_set_self] at hrest
      rw [hself, Filled.cons_iff]
      exact ⟨hnone, x, hx, hrest⟩
    · rw [Draft.get_set_of_ne d x hg] at hrest
      rw [hother g hg]
      exact hrest

/-- An unknown member is a value of no field. -/
theorem valuesOf_cons_of_unknown {m : List Piece × Value} {key : List Char}
    (h : content? m.1 = some key) (hkey : Field.ofKey? key = none)
    (ms : List (List Piece × Value)) (f : Field) :
    valuesOf f.key (m :: ms) = valuesOf f.key ms := by
  apply valuesOf_cons_of_ne
  rw [h]
  intro hf
  injection hf with hf
  rw [Field.ofKey?_eq_some_iff.mpr hf] at hkey
  simp at hkey

/-- **The members of an object fill a draft** field by field, and each of their keys has
characters. -/
theorem foldlM_fill_iff {ms : List (List Piece × Value)} {d d' : Draft} :
    ms.foldlM Draft.fill d = some d' ↔ (∀ m ∈ ms, content? m.1 ≠ none) ∧
      ∀ f : Field, Filled f.meaning (d.get f) (valuesOf f.key ms) (d'.get f) := by
  induction ms generalizing d with
  | nil =>
    have hnil : ∀ f : Field, Filled f.meaning (d.get f) (valuesOf f.key []) (d'.get f) ↔
        d.get f = d'.get f := fun f => Filled.nil_iff
    simp only [List.foldlM_nil, hnil, List.not_mem_nil, false_implies, implies_true, true_and]
    constructor
    · intro h f
      injection h with h
      rw [h]
    · intro h
      rw [Draft.ext_get h]
      rfl
  | cons m ms ih =>
    rw [List.foldlM_cons, List.forall_mem_cons]
    change (d.fill m).bind _ = _ ↔ _
    cases hkey : content? m.1 with
    | none =>
      have hfill : d.fill m = none := by rw [Draft.fill, hkey, Option.bind_none]
      simp [hfill]
    | some key =>
      have hsome : some key ≠ none := by simp
      cases hf : Field.ofKey? key with
      | none =>
        have hfill : d.fill m = some d := by
          simp only [Draft.fill, hkey, Option.bind_some, Draft.enter, hf]
        rw [hfill, Option.bind_some, ih]
        simp only [valuesOf_cons_of_unknown hkey hf, hsome, not_false_eq_true, ne_eq, true_and]
      | some f =>
        obtain rfl := Field.ofKey?_eq_some_iff.mp hf
        rw [Option.bind_eq_some_iff, filled_cons_of_field hkey]
        simp only [fill_of_field hkey]
        constructor
        · rintro ⟨d₁, ⟨hnone, x, hx, rfl⟩, hrest⟩
          obtain ⟨hkeys, hfilled⟩ := ih.mp hrest
          exact ⟨⟨hsome, hkeys⟩, hnone, x, hx, hfilled⟩
        · rintro ⟨⟨_, hkeys⟩, hnone, x, hx, hfilled⟩
          exact ⟨_, ⟨hnone, x, hx, rfl⟩, ih.mpr ⟨hkeys, hfilled⟩⟩

/-! ## Elements -/

/-- **The members of an object that denote an element.**  Every key has characters.  The
owner and the name are given once, by a string.  The parameters are given at most once, by a
list of strings, and there are none when they are not given.  The location is given at most
once, by a string or by nothing, and there is none when it is not given. -/
structure DenoteElement (ms : List (List Piece × Value)) (e : Element) : Prop where
  keys : ∀ m ∈ ms, content? m.1 ≠ none
  owner : ∃ v, valuesOf "owner" ms = [v] ∧ v.text? = some e.owner
  name : ∃ v, valuesOf "name" ms = [v] ∧ v.text? = some e.name
  parameters : (valuesOf "parameters" ms = [] ∧ e.parameters = []) ∨
    ∃ v, valuesOf "parameters" ms = [v] ∧ v.texts? = some e.parameters
  location : (valuesOf "location" ms = [] ∧ e.location = none) ∨
    ∃ v, valuesOf "location" ms = [v] ∧ v.optionalText? = some e.location

/-- **The values that denote an element**: an object, or a list of owner, name, parameters
and location in this order, from which the location or the last two may be left out. -/
inductive Denotes : Value → Element → Prop where
  | object {ms : List (List Piece × Value)} {e : Element} (h : DenoteElement ms e) :
      Denotes (.object ms) e
  | two {o n : Value} {owner name : String} (ho : o.text? = some owner)
      (hn : n.text? = some name) : Denotes (.list [o, n]) ⟨owner, name, [], none⟩
  | three {o n p : Value} {owner name : String} {parameters : List String}
      (ho : o.text? = some owner) (hn : n.text? = some name) (hp : p.texts? = some parameters) :
      Denotes (.list [o, n, p]) ⟨owner, name, parameters, none⟩
  | four {o n p l : Value} {owner name : String} {parameters : List String}
      {location : Option String} (ho : o.text? = some owner) (hn : n.text? = some name)
      (hp : p.texts? = some parameters) (hl : l.optionalText? = some location) :
      Denotes (.list [o, n, p, l]) ⟨owner, name, parameters, location⟩

theorem denoteElement_iff {ms : List (List Piece × Value)} {e : Element} :
    DenoteElement ms e ↔ ∃ d, ms.foldlM Draft.fill .empty = some d ∧ d.element = .ok e := by
  simp only [foldlM_fill_iff, Draft.get_empty, Draft.element_ok_iff]
  constructor
  · rintro ⟨hkeys, ⟨vo, hvo, ho⟩, ⟨vn, hvn, hn⟩, hparameters, hlocation⟩
    obtain ⟨p, hp, hpe⟩ : ∃ p, Filled Value.texts? none (valuesOf "parameters" ms) p ∧
        p.getD [] = e.parameters := by
      rcases hparameters with ⟨hv, he⟩ | ⟨v, hv, he⟩
      · exact ⟨none, hv ▸ .kept, he.symm⟩
      · exact ⟨some e.parameters, hv ▸ .filled he, rfl⟩
    obtain ⟨l, hl, hle⟩ : ∃ l, Filled Value.optionalText? none (valuesOf "location" ms) l ∧
        l.getD none = e.location := by
      rcases hlocation with ⟨hv, he⟩ | ⟨v, hv, he⟩
      · exact ⟨none, hv ▸ .kept, he.symm⟩
      · exact ⟨some e.location, hv ▸ .filled he, rfl⟩
    refine ⟨⟨some e.owner, some e.name, p, l⟩, ⟨hkeys, fun f => ?_⟩, rfl, rfl, hpe, hle⟩
    cases f with
    | owner => exact hvo ▸ .filled ho
    | name => exact hvn ▸ .filled hn
    | parameters => exact hp
    | location => exact hl
  · rintro ⟨d, ⟨hkeys, hfilled⟩, howner, hname, hparameters, hlocation⟩
    exact ⟨hkeys, (hfilled .owner).required howner, (hfilled .name).required hname,
      (hfilled .parameters).optional hparameters, (hfilled .location).optional hlocation⟩

theorem enterAll_nil {d d' : Draft} {fs : List Field} :
    d.enterAll fs [] = some d' ↔ d = d' := by
  cases fs <;> rw [Draft.enterAll, Option.some_inj]

theorem enterAll_cons {d d' : Draft} {f : Field} {fs : List Field} {v : Value}
    {vs : List Value} : d.enterAll (f :: fs) (v :: vs) = some d' ↔
      ∃ x, f.meaning v = some x ∧ (d.set f x).enterAll fs vs = some d' := by
  rw [Draft.enterAll, Option.bind_eq_some_iff]

theorem denotes_list_iff {vs : List Value} {e : Element} :
    Denotes (.list vs) e ↔ ∃ d, Draft.empty.enterAll [.owner, .name, .parameters, .location] vs =
      some d ∧ d.element = .ok e := by
  constructor
  · intro h
    cases h with
    | two ho hn =>
      exact ⟨_, enterAll_cons.mpr ⟨_, ho, enterAll_cons.mpr ⟨_, hn, enterAll_nil.mpr rfl⟩⟩, rfl⟩
    | three ho hn hp =>
      exact ⟨_, enterAll_cons.mpr ⟨_, ho, enterAll_cons.mpr ⟨_, hn, enterAll_cons.mpr
        ⟨_, hp, enterAll_nil.mpr rfl⟩⟩⟩, rfl⟩
    | four ho hn hp hl =>
      exact ⟨_, enterAll_cons.mpr ⟨_, ho, enterAll_cons.mpr ⟨_, hn, enterAll_cons.mpr
        ⟨_, hp, enterAll_cons.mpr ⟨_, hl, enterAll_nil.mpr rfl⟩⟩⟩⟩, rfl⟩
  · rintro ⟨d, hd, he⟩
    -- one item after the other, until there are no more items or no more fields
    rcases vs with _ | ⟨o, vs⟩
    · obtain rfl := enterAll_nil.mp hd
      simp [Draft.element, Draft.empty] at he
    obtain ⟨owner, ho, hd⟩ := enterAll_cons.mp hd
    rcases vs with _ | ⟨n, vs⟩
    · obtain rfl := enterAll_nil.mp hd
      simp [Draft.element, Draft.set, Draft.empty] at he
    obtain ⟨name, hn, hd⟩ := enterAll_cons.mp hd
    rcases vs with _ | ⟨p, vs⟩
    · obtain rfl := enterAll_nil.mp hd
      injection he with he
      subst he
      exact .two ho hn
    obtain ⟨parameters, hp, hd⟩ := enterAll_cons.mp hd
    rcases vs with _ | ⟨l, vs⟩
    · obtain rfl := enterAll_nil.mp hd
      injection he with he
      subst he
      exact .three ho hn hp
    obtain ⟨location, hl, hd⟩ := enterAll_cons.mp hd
    rcases vs with _ | ⟨x, vs⟩
    · obtain rfl := enterAll_nil.mp hd
      injection he with he
      subst he
      exact .four ho hn hp hl
    · simp [Draft.enterAll] at hd

/-! ## Texts of elements -/

theorem readObject_ok {s r : Input} {e : Element} (h : readObject s = .ok (e, r)) :
    ∃ v t, IsValue v ('\x7b' :: t) ∧ Denotes v e ∧ s = t ++ r := by
  unfold readObject at h
  obtain ⟨⟨d, r'⟩, hread, helement⟩ := bind_ok h
  obtain ⟨ms, t, ht, hfill, rfl⟩ := readMembers_ok hread
  dsimp only at helement
  split at helement
  · next e' he =>
    injection helement with h
    injection h with he' hr
    subst he' hr
    exact ⟨_, t, .object ht, .object (denoteElement_iff.mpr ⟨d, hfill, he⟩), rfl⟩
  · simp at helement

theorem readList_ok {s r : Input} {e : Element} (h : readList s = .ok (e, r)) :
    ∃ v t, IsValue v ('[' :: t) ∧ Denotes v e ∧ s = t ++ r := by
  unfold readList at h
  obtain ⟨⟨d, count, r'⟩, hread, helement⟩ := bind_ok h
  obtain ⟨vs, t, ht, hall, rfl⟩ := readFields_ok hread
  dsimp only at helement
  split at helement
  · next e' he =>
    injection helement with h
    injection h with he' hr
    subst he' hr
    exact ⟨_, t, .list ht, denotes_list_iff.mpr ⟨d, hall, he⟩, rfl⟩
  · simp at helement

theorem readObject_members {ms : List (List Piece × Value)} {t : List Char}
    (h : IsMembers true ms t) {e : Element} (he : DenoteElement ms e) (r : Input) :
    readObject (t ++ r) = .ok (e, r) := by
  obtain ⟨d, hfill, he⟩ := denoteElement_iff.mp he
  rw [readObject, readMembers_members h hfill]
  dsimp only [Except.bind]
  rw [he]

theorem readList_items {vs : List Value} {t : List Char} (h : IsItems true vs t) {e : Element}
    (he : Denotes (.list vs) e) (r : Input) : readList (t ++ r) = .ok (e, r) := by
  obtain ⟨d, hall, he⟩ := denotes_list_iff.mp he
  obtain ⟨count, hread⟩ := readFields_items h hall 0 r
  rw [readList, hread]
  dsimp only [Except.bind]
  rw [he]

theorem finish_ok_iff {α : Type} {read : Read α} {x : α} :
    finish read = .ok x ↔ ∃ b, IsBlank b ∧ read = .ok (x, b) := by
  unfold finish
  constructor
  · intro h
    split at h
    · simp at h
    · next y rest =>
      split at h
      · next hrest =>
        injection h with h
        subst h
        exact ⟨rest, skipSpace_eq_nil_iff.mp hrest, rfl⟩
      · simp at h
  · rintro ⟨b, hb, rfl⟩
    dsimp only
    rw [skipSpace_eq_nil_iff.mpr hb]

/-- **An element is read from exactly the texts of the values that denote it**, with blanks
in front of the value and behind it. -/
theorem readElement_ok_iff {s : Input} {e : Element} :
    readElement s = .ok e ↔ ∃ a v t b, IsBlank a ∧ IsValue v t ∧ IsBlank b ∧ Denotes v e ∧
      s = a ++ (t ++ b) := by
  constructor
  · intro h
    unfold readElement at h
    split at h
    · simp at h
    · next c rest heq =>
      obtain ⟨a, ha, rfl⟩ := skipSpace_eq_cons heq
      split at h
      · next hc =>
        subst hc
        obtain ⟨b, hb, hread⟩ := finish_ok_iff.mp h
        obtain ⟨v, t, ht, hv, rfl⟩ := readList_ok hread
        exact ⟨a, v, _, b, ha, ht, hb, hv, rfl⟩
      split at h
      · next hc =>
        subst hc
        obtain ⟨b, hb, hread⟩ := finish_ok_iff.mp h
        obtain ⟨v, t, ht, hv, rfl⟩ := readObject_ok hread
        exact ⟨a, v, _, b, ha, ht, hb, hv, rfl⟩
      · simp at h
  · rintro ⟨a, v, t, b, ha, ht, hb, hv, rfl⟩
    cases ht with
    | object hs =>
      cases hv with
      | object he =>
        rw [List.cons_append, readElement, skipSpace_blank_cons ha (by decide)]
        dsimp only
        rw [if_neg (by decide), if_pos rfl]
        exact finish_ok_iff.mpr ⟨b, hb, readObject_members hs he b⟩
    | list hs =>
      rw [List.cons_append, readElement, skipSpace_blank_cons ha (by decide)]
      dsimp only
      rw [if_pos rfl]
      exact finish_ok_iff.mpr ⟨b, hb, readList_items hs hv b⟩
    | _ => cases hv

end FluentBuilders
