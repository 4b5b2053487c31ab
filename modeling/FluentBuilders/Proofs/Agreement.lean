import FluentBuilders.Proofs.RoundBuilders

/-! # Rounds that agree

Two rounds write the same builders when for each owner and name the last setter has
the same parameter type in both (`Agree`).  Nothing else about the elements matters to
what is written, and the order of the builders depends on nothing but the order in
which the owners occur first (`written_of_agree`).  So a list of elements may be varied
in many ways without any effect on the texts (`Variation`); what is done to the elements
of one owner has no effect on the builder of another.
-/
namespace FluentBuilders

/-- Two lists of setters tell the same about an owner: each name has the same parameter
type in its last setter in both, or no setter in either. -/
def AgreeOn (owner : String) (xs ys : List Element) : Prop :=
  ∀ name, (lastOf xs owner name).map Element.parameters =
    (lastOf ys owner name).map Element.parameters

/-- Two lists of elements agree when their setters tell the same about every owner. -/
def Agree (namePrefix : String) (es fs : List Element) : Prop :=
  ∀ owner, AgreeOn owner (qualifying namePrefix es) (qualifying namePrefix fs)

namespace AgreeOn

variable {owner : String} {xs ys xs' ys' : List Element}

theorem append (h : AgreeOn owner xs ys) (h' : AgreeOn owner xs' ys') :
    AgreeOn owner (xs ++ xs') (ys ++ ys') := by
  intro name
  rw [lastOf_append, lastOf_append, Option.map_or, Option.map_or, h name, h' name]

/-- Lists that agree on an owner both have a setter of it, or none. -/
theorem exists_mem (h : AgreeOn owner xs ys) (howner : ∃ e ∈ xs, e.owner = owner) :
    ∃ e ∈ ys, e.owner = owner := by
  obtain ⟨e, he, heo⟩ := howner
  have hsome : (lastOf xs owner e.name).isSome = true := isSome_lastOf_iff.mpr ⟨e, he, heo, rfl⟩
  rw [← Option.isSome_map, h e.name, Option.isSome_map, isSome_lastOf_iff] at hsome
  obtain ⟨f, hf, hfo, -⟩ := hsome
  exact ⟨f, hf, hfo⟩

/-- Lists that agree on an owner make the same builder of it. -/
theorem isBuilder_iff (h : AgreeOn owner xs ys) (suffix : String) (unit : SourceUnit) :
    IsBuilder suffix xs owner unit ↔ IsBuilder suffix ys owner unit := by
  have hlast : ∀ name, (lastOf xs owner name).map Element.parameters =
      (lastOf ys owner name).map Element.parameters := h
  simp only [IsBuilder, hlast]

/-- Lists that agree on an owner put it into the same group. -/
theorem groupOf_eq (h : AgreeOn owner xs ys) (hxs : ∀ e ∈ xs, e.parameters.length = 1)
    (hys : ∀ e ∈ ys, e.parameters.length = 1) :
    SetterGroups.groupOf (xs.map Element.asSetter) owner =
      SetterGroups.groupOf (ys.map Element.asSetter) owner := by
  refine congrArg (SetterGroup.mk owner) (Members.ext_get fun name => Option.ext fun type => ?_)
  have hx := get?_groupOf_eq_some_iff hxs owner name type
  rw [h name] at hx
  exact hx.trans (get?_groupOf_eq_some_iff hys owner name type).symm

end AgreeOn

/-- The last setter of an owner with a name, found among the elements with that owner and
name. -/
theorem lastOf_qualifying (namePrefix : String) (es : List Element) (owner name : String) :
    lastOf (qualifying namePrefix es) owner name =
      (qualifying namePrefix (es.filter fun e => e.owner = owner ∧ e.name = name)).getLast? := by
  rw [lastOf, qualifying, qualifying, List.filter_filter, List.filter_filter]
  simp only [Bool.and_comm]

/-- Lists with the same elements of an owner agree on it. -/
theorem agreeOn_of_filter_eq {es fs : List Element} {owner : String}
    (h : es.filter (fun e => e.owner = owner) = fs.filter fun e => e.owner = owner)
    (namePrefix : String) :
    AgreeOn owner (qualifying namePrefix es) (qualifying namePrefix fs) := by
  intro name
  have hcut : ∀ l : List Element, (l.filter fun e => e.owner = owner ∧ e.name = name) =
      (l.filter fun e => e.owner = owner).filter fun e => e.name = name := by
    intro l
    rw [List.filter_filter]
    simp only [Bool.decide_and, Bool.and_comm]
  rw [lastOf_qualifying, lastOf_qualifying, hcut, hcut, h]

/-! ## Variations -/

/-- Changes to a list of elements that have no effect on the texts of builders. -/
inductive Variation (namePrefix : String) : List Element → List Element → Prop where
  /-- The order changes, but not among elements of one owner and name. -/
  | reordered {es fs : List Element} (perm : es.Perm fs)
      (order : ∀ owner name, es.filter (fun e => e.owner = owner ∧ e.name = name) =
        fs.filter fun e => e.owner = owner ∧ e.name = name) :
      Variation namePrefix es fs
  /-- An element goes that a later setter repeats. -/
  | repeated {front back : List Element} {e later : Element} (mem : later ∈ back)
      (setter : later.Qualifies namePrefix) (owner : later.owner = e.owner)
      (name : later.name = e.name) :
      Variation namePrefix (front ++ e :: back) (front ++ back)
  /-- An element goes that is no setter. -/
  | rejected {front back : List Element} {e : Element} (rejected : ¬ e.Qualifies namePrefix) :
      Variation namePrefix (front ++ e :: back) (front ++ back)
  /-- The location of an element is another one, or none. -/
  | relocated {front back : List Element} (e : Element) (location : Option String) :
      Variation namePrefix (front ++ e :: back) (front ++ { e with location } :: back)
  /-- A change is taken back. -/
  | symm {es fs : List Element} (change : Variation namePrefix es fs) :
      Variation namePrefix fs es
  /-- One change comes after another. -/
  | trans {es fs gs : List Element} (first : Variation namePrefix es fs)
      (second : Variation namePrefix fs gs) : Variation namePrefix es gs

theorem agreeOn_refl (owner : String) (xs : List Element) : AgreeOn owner xs xs :=
  fun _ => rfl

/-- What stands in front of two lists makes no difference. -/
theorem agreeOn_append_left {namePrefix owner : String} {xs ys : List Element}
    (h : AgreeOn owner (qualifying namePrefix xs) (qualifying namePrefix ys))
    (front : List Element) :
    AgreeOn owner (qualifying namePrefix (front ++ xs)) (qualifying namePrefix (front ++ ys)) := by
  rw [qualifying_append, qualifying_append]
  exact (agreeOn_refl owner _).append h

/-- An element that a later setter repeats makes no difference. -/
theorem agreeOn_cons_repeated {e later : Element} {ys : List Element} (hmem : later ∈ ys)
    (howner : later.owner = e.owner) (hname : later.name = e.name) (owner : String) :
    AgreeOn owner (e :: ys) ys := by
  intro name
  have hsplit := lastOf_append [e] ys owner name
  rw [List.singleton_append, lastOf_singleton] at hsplit
  rw [hsplit]
  split
  · next hkey =>
    -- the later one is found first from the end
    have hsome : (lastOf ys owner name).isSome = true :=
      isSome_lastOf_iff.mpr ⟨later, hmem, howner.trans hkey.1, hname.trans hkey.2⟩
    rw [Option.or_of_isSome hsome]
  · rw [Option.or_none]

/-- **A variation changes nothing that the setters say last.** -/
theorem Variation.agree {namePrefix : String} {es fs : List Element}
    (h : Variation namePrefix es fs) : Agree namePrefix es fs := by
  intro owner
  induction h with
  | reordered _ order =>
    intro name
    rw [lastOf_qualifying, lastOf_qualifying, order]
  | @repeated front back e later mem setter howner hname =>
    refine agreeOn_append_left ?_ front
    by_cases he : e.Qualifies namePrefix
    · rw [qualifying_cons_of_pos he]
      exact agreeOn_cons_repeated (List.mem_filter.mpr ⟨mem, decide_eq_true setter⟩) howner hname
        owner
    · rw [qualifying_cons_of_neg he]
      exact agreeOn_refl owner _
  | @rejected front back e rejected =>
    refine agreeOn_append_left ?_ front
    rw [qualifying_cons_of_neg rejected]
    exact agreeOn_refl owner _
  | @relocated front back e location =>
    refine agreeOn_append_left ?_ front
    by_cases he : e.Qualifies namePrefix
    · have he' : ({ e with location } : Element).Qualifies namePrefix := he
      rw [qualifying_cons_of_pos he, qualifying_cons_of_pos he']
      have hone : AgreeOn owner [e] [{ e with location }] := by
        intro name
        rw [lastOf_singleton, lastOf_singleton]
        split <;> rfl
      exact hone.append (agreeOn_refl owner _)
    · have he' : ¬ ({ e with location } : Element).Qualifies namePrefix := he
      rw [qualifying_cons_of_neg he, qualifying_cons_of_neg he']
      exact agreeOn_refl owner _
  | symm _ ih => exact fun name => (ih name).symm
  | trans _ _ ih₁ ih₂ => exact fun name => (ih₁ name).trans (ih₂ name)

/-! ## Rounds -/

namespace Round

variable {σ σ' : Type} {naming : Naming} {d : Destination σ} {d' : Destination σ'}
  {es fs : List Element} {state : σ} {state' : σ'}

/-- Lists that agree, and whose owners occur first in the same order, have the same groups. -/
theorem groups_eq_of_agree (h : Agree naming.namePrefix es fs)
    (hfirst : ∃ owners, FirstSeen ((qualifying naming.namePrefix es).map Element.owner) owners ∧
      FirstSeen ((qualifying naming.namePrefix fs).map Element.owner) owners) :
    groups naming es = groups naming fs := by
  obtain ⟨owners, hes, hfs⟩ := hfirst
  rw [groups_eq_map, groups_eq_map, (firstSeen_eraseDups _).unique hes,
    (firstSeen_eraseDups _).unique hfs]
  exact List.map_congr_left fun owner _ =>
    (h owner).groupOf_eq (fun _ => length_parameters_of_mem) fun _ => length_parameters_of_mem

section

variable (hes : ∀ e ∈ qualifying naming.namePrefix es, DottedName.isOwner e.owner = true)
  (hfs : ∀ e ∈ qualifying naming.namePrefix fs, DottedName.isOwner e.owner = true)
  (htakes : d.TakesAll state (calls naming d es state))
  (htakes' : d'.TakesAll state' (calls naming d' fs state'))

include hes hfs htakes htakes'

/-- **Rounds that agree on an owner** give the same builder of it. -/
theorem mem_calls_iff_of_agreeOn {owner : String}
    (h : AgreeOn owner (qualifying naming.namePrefix es) (qualifying naming.namePrefix fs))
    {unit : SourceUnit} (htarget : unit.target = owner ++ naming.builderSuffix) :
    unit ∈ calls naming d es state ↔ unit ∈ calls naming d' fs state' := by
  rw [mem_calls_iff_of_target htakes htarget, mem_calls_iff_of_target htakes' htarget,
    reached_eq_qualifying hes, reached_eq_qualifying hfs, h.isBuilder_iff]
  exact and_congr_left fun _ => ⟨h.exists_mem, AgreeOn.exists_mem fun name => (h name).symm⟩

/-- **Rounds that agree** give the same builders. -/
theorem mem_calls_iff_of_agree (h : Agree naming.namePrefix es fs) (unit : SourceUnit) :
    unit ∈ calls naming d es state ↔ unit ∈ calls naming d' fs state' := by
  constructor
  · intro hunit
    obtain ⟨e, _, hbuilder⟩ := (mem_calls_iff htakes unit).mp hunit
    exact (mem_calls_iff_of_agreeOn hes hfs htakes htakes' (h e.owner) hbuilder.target_eq).mp hunit
  · intro hunit
    obtain ⟨e, _, hbuilder⟩ := (mem_calls_iff htakes' unit).mp hunit
    exact (mem_calls_iff_of_agreeOn hes hfs htakes htakes' (h e.owner) hbuilder.target_eq).mpr hunit

end

/-- Rounds that agree and whose owners occur first in the same order give the same builders
in the same order. -/
theorem calls_eq_of_agree (htakes : d.TakesAll state (calls naming d es state))
    (htakes' : d'.TakesAll state' (calls naming d' fs state'))
    (h : Agree naming.namePrefix es fs)
    (hfirst : ∃ owners, FirstSeen ((qualifying naming.namePrefix es).map Element.owner) owners ∧
      FirstSeen ((qualifying naming.namePrefix fs).map Element.owner) owners) :
    calls naming d es state = calls naming d' fs state' := by
  have hrendered := rendered_calls htakes
  rw [groups_eq_of_agree h hfirst] at hrendered
  exact hrendered.unique (rendered_calls htakes')

/-- **What a round writes depends on little.**  Let two rounds write to destinations that
take everything, and let the owners of all setters be well formed.  Both rounds succeed.
They write the same builders when they agree, in the same order when their owners occur
first in the same order, and after any variation of the elements; and the builder of an
owner is the same as long as the elements of that owner are. -/
theorem written_of_agree (naming : Naming) {d : Destination σ} {d' : Destination σ'}
    {state : σ} {state' : σ'} (haccepts : d.Accepts state) (haccepts' : d'.Accepts state')
    {es fs : List Element}
    (howners : ∀ e ∈ es ++ fs, e.Qualifies naming.namePrefix →
      ∃ name, DottedName.ofOwner e.owner = .ok name) :
    ∃ x y, (perform naming d es state).outcome = .ok x ∧
      (perform naming d' fs state').outcome = .ok y ∧
      (Agree naming.namePrefix es fs → ∀ unit, unit ∈ x.written ↔ unit ∈ y.written) ∧
      (Agree naming.namePrefix es fs →
        (∃ owners, FirstSeen ((qualifying naming.namePrefix es).map Element.owner) owners ∧
          FirstSeen ((qualifying naming.namePrefix fs).map Element.owner) owners) →
        x.written = y.written) ∧
      (Variation naming.namePrefix es fs → ∀ unit, unit ∈ x.written ↔ unit ∈ y.written) ∧
      ∀ owner, es.filter (fun e => e.owner = owner) = fs.filter (fun e => e.owner = owner) →
        ∀ text, ⟨owner ++ naming.builderSuffix, text⟩ ∈ x.written ↔
          ⟨owner ++ naming.builderSuffix, text⟩ ∈ y.written := by
  have hwell : ∀ l, (∀ e ∈ l, e ∈ es ++ fs) → ∀ e ∈ qualifying naming.namePrefix l,
      DottedName.isOwner e.owner = true := by
    intro l hl e he
    obtain ⟨hmem, hsetter⟩ := List.mem_filter.mp he
    exact DottedName.isOwner_iff.mpr (howners e (hl e hmem) (of_decide_eq_true hsetter))
  have hes := hwell es fun _ => List.mem_append_left _
  have hfs := hwell fs fun _ => List.mem_append_right _
  have htakes := Destination.takesAll_of_accepts haccepts (calls naming d es state)
  have htakes' := Destination.takesAll_of_accepts haccepts' (calls naming d' fs state')
  refine ⟨_, _, outcome_of_takesAll htakes hes, outcome_of_takesAll htakes' hfs, ?_, ?_, ?_, ?_⟩
  · exact fun h => mem_calls_iff_of_agree hes hfs htakes htakes' h
  · exact fun h hfirst => calls_eq_of_agree htakes htakes' h hfirst
  · exact fun h => mem_calls_iff_of_agree hes hfs htakes htakes' h.agree
  · exact fun owner h text =>
      mem_calls_iff_of_agreeOn hes hfs htakes htakes' (agreeOn_of_filter_eq h _) rfl

/-- A setter that is repeated, an element that is no setter and a location can go. -/
theorem written_of_agree_fewer_elements :
    let es : List Element :=
      [⟨"a.One", "setX", ["int"], none⟩, ⟨"a.", "getX", [], none⟩,
        ⟨"a.One", "setX", ["long"], some "One.java:7"⟩, ⟨"Two", "setY", ["int"], none⟩]
    let fs : List Element := [⟨"a.One", "setX", ["long"], none⟩, ⟨"Two", "setY", ["int"], none⟩]
    Store.destination.Accepts .empty ∧
      (∀ e ∈ es ++ fs, e.Qualifies "set" → ∃ name, DottedName.ofOwner e.owner = .ok name) ∧
      Variation "set" es fs ∧
      ∃ x y, (perform .standard Store.destination es .empty).outcome = .ok x ∧
        (perform .standard Store.destination fs .empty).outcome = .ok y ∧
        ∀ unit, unit ∈ x.written ↔ unit ∈ y.written := by
  intro es fs
  have haccepts : Store.destination.Accepts .empty := fun _ _ => rfl
  have howner : ∀ e ∈ es ++ fs, e.Qualifies "set" → DottedName.isOwner e.owner = true := by
    decide
  have howners : ∀ e ∈ es ++ fs, e.Qualifies "set" →
      ∃ name, DottedName.ofOwner e.owner = .ok name := fun e he hsetter =>
    DottedName.isOwner_iff.mp (howner e he hsetter)
  have hchange : Variation "set" es fs := by
    have hrepeated : Variation "set" es es.tail :=
      @Variation.repeated "set" [] es.tail ⟨"a.One", "setX", ["int"], none⟩
        ⟨"a.One", "setX", ["long"], some "One.java:7"⟩ (by decide) (by decide) rfl rfl
    have hrejected : Variation "set" es.tail es.tail.tail :=
      @Variation.rejected "set" [] es.tail.tail ⟨"a.", "getX", [], none⟩ (by decide)
    have hrelocated : Variation "set" es.tail.tail fs :=
      @Variation.relocated "set" [] es.tail.tail.tail _ none
    exact hrepeated.trans (hrejected.trans hrelocated)
  obtain ⟨x, y, hx, hy, -, -, hsame, -⟩ :=
    written_of_agree .standard haccepts haccepts howners
  exact ⟨haccepts, howners, hchange, x, y, hx, hy, hsame hchange⟩

end Round
end FluentBuilders
