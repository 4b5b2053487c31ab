import FluentBuilders.Proofs.Replacements
import FluentBuilders.Proofs.RoundBuilders

/-! # Longer name prefixes

When more is asked of the start of a name, setters only drop out
(`accepted_of_longer`).  A name stays or drops out with all its setters, so no
earlier type of it comes to light: the group of an owner is restricted to the names
that start as asked, and is gone when there are none (`SetterGroups.get?_ofList_filter`).
The owners may come in another order than before, but they are some of those from
before, so a round that succeeded still does (`Round.perform_of_longer`).
-/
namespace FluentBuilders

/-! ## Members whose names start with a text -/

/-- The members whose names start with a text. -/
def Members.startingWith (m : Members) (namePrefix : String) : Members :=
  ⟨m.entries.filter fun e => namePrefix.toList <+: e.1.toList, m.sorted.filter _⟩

/-- The part of a group with the names that start with a text, if there are any. -/
def SetterGroup.startingWith? (g : SetterGroup) (namePrefix : String) : Option SetterGroup :=
  let members := g.members.startingWith namePrefix
  if members.size = 0 then none else some { g with members }

/-- A look-up among entries whose names satisfy a condition. -/
theorem lookup_filter (P : String → Prop) [DecidablePred P] (l : List (String × String))
    (name : String) :
    (l.filter fun e => P e.1).lookup name = if P name then l.lookup name else none := by
  induction l with
  | nil => simp
  | cons e rest ih =>
    obtain ⟨k, t⟩ := e
    by_cases hk : name = k
    · subst hk
      by_cases hp : P name <;> simp [hp, ih]
    · by_cases hp : P k <;> simp [hp, ih, List.lookup_cons, beq_false_of_ne hk]

/-- **A restriction** maps the names that are left to what they were mapped to. -/
theorem Members.get?_startingWith (m : Members) (namePrefix name : String) :
    (m.startingWith namePrefix).get? name =
      if namePrefix.toList <+: name.toList then m.get? name else none :=
  lookup_filter (fun name => namePrefix.toList <+: name.toList) m.entries name

/-! ## Fewer names -/

namespace SetterGroups

/-- A group has a member when its owner has a setter. -/
theorem size_groupOf_eq_zero_iff (setters : List Setter) (owner : String) :
    (groupOf setters owner).members.size = 0 ↔ owner ∉ setters.map Setter.owner := by
  constructor
  · intro hsize howner
    obtain ⟨s, hs, rfl⟩ := List.mem_map.mp howner
    have hmembers : (groupOf setters s.owner).members = .empty :=
      Members.ext_get fun name => by
        rw [Members.get?, List.length_eq_zero_iff.mp hsize]
        rfl
    have hlast := get?_groupOf setters s.owner s.name
    rw [hmembers, Members.get?_empty, eq_comm, Option.map_eq_none_iff, List.getLast?_eq_none_iff,
      List.filter_eq_nil_iff] at hlast
    exact hlast s hs (decide_eq_true ⟨rfl, rfl⟩)
  · intro howner
    rw [groupOf_of_not_mem howner]
    rfl

/-- **The group of an owner when names drop out**: a name that stays keeps its last type. -/
theorem groupOf_filter (setters : List Setter) (owner namePrefix : String) :
    groupOf (setters.filter fun s => namePrefix.toList <+: s.name.toList) owner =
      ⟨owner, (groupOf setters owner).members.startingWith namePrefix⟩ := by
  refine congrArg (SetterGroup.mk owner) (Members.ext_get fun name => ?_)
  have hgroup :=
    get?_groupOf (setters.filter fun s => namePrefix.toList <+: s.name.toList) owner name
  rw [List.filter_filter] at hgroup
  refine hgroup.trans ?_
  rw [Members.get?_startingWith, get?_groupOf]
  split
  · next hname =>
    refine congrArg (fun l => (List.getLast? l).map _) (List.filter_congr fun s _ => ?_)
    simp only [Bool.and_eq_left_iff_imp, decide_eq_true_eq]
    rintro ⟨-, rfl⟩
    exact hname
  · next hname =>
    have hnil : setters.filter (fun s => decide (s.owner = owner ∧ s.name = name) &&
        decide (namePrefix.toList <+: s.name.toList)) = [] := by
      rw [List.filter_eq_nil_iff]
      intro s _ hs
      simp only [Bool.and_eq_true, decide_eq_true_eq] at hs
      obtain ⟨⟨-, rfl⟩, hs⟩ := hs
      exact hname hs
    rw [hnil]
    rfl

/-- **Groups when names drop out** are restricted, and gone when nothing of them is left. -/
theorem get?_ofList_filter (setters : List Setter) (owner namePrefix : String) :
    (ofList (setters.filter fun s => namePrefix.toList <+: s.name.toList)).get? owner =
      ((ofList setters).get? owner).bind fun g => g.startingWith? namePrefix := by
  have hgroup := groupOf_filter setters owner namePrefix
  have hsize := size_groupOf_eq_zero_iff
    (setters.filter fun s => namePrefix.toList <+: s.name.toList) owner
  rw [hgroup] at hsize
  rw [get?_ofList, get?_ofList, hgroup]
  by_cases howner : owner ∈ setters.map Setter.owner
  · rw [if_pos howner, Option.bind_some, SetterGroup.startingWith?]
    split
    · next hmem =>
      rw [if_neg fun hzero => hsize.mp hzero hmem]
      rfl
    · next hmem => rw [if_pos (hsize.mpr hmem)]
  · rw [if_neg howner, if_neg]
    · rfl
    · intro hmem
      obtain ⟨s, hs, rfl⟩ := List.mem_map.mp hmem
      exact howner (List.mem_map_of_mem (List.mem_of_mem_filter hs))

end SetterGroups

/-! ## Fewer setters -/

section

variable {p q : String} (hlonger : p.toList <+: q.toList) (es : List Element)

include hlonger

theorem Element.qualifies_of_longer_iff (e : Element) :
    e.Qualifies q ↔ e.Qualifies p ∧ q.toList <+: e.name.toList :=
  ⟨fun h => ⟨⟨h.1, hlonger.trans h.2⟩, h.2⟩, fun h => ⟨h.1.1, h.2⟩⟩

/-- **The setters when more is asked of their names** are those whose names start as
asked. -/
theorem accepted_of_longer :
    (sift q es).accepted =
      (sift p es).accepted.filter fun s => q.toList <+: s.name.toList := by
  rw [accepted_eq_map, accepted_eq_map, List.filter_map, List.filter_filter]
  refine congrArg (List.map _) (List.filter_congr fun e _ => ?_)
  rw [Bool.eq_iff_iff, decide_eq_true_iff, Element.qualifies_of_longer_iff hlonger]
  simp [Element.asSetter, and_comm]

/-- What was rejected before still is. -/
theorem rejected_sublist_of_longer :
    (sift p es).rejected.Sublist (sift q es).rejected := by
  rw [rejected_eq_map, rejected_eq_map]
  refine (List.monotone_filter_right es fun e he => ?_).map _
  rw [decide_eq_true_iff] at he ⊢
  exact fun h => he ((Element.qualifies_of_longer_iff hlonger e).mp h).1

theorem qualifying_subset_of_longer : qualifying q es ⊆ qualifying p es := by
  intro e he
  obtain ⟨hmem, hq⟩ := List.mem_filter.mp he
  have hp := ((Element.qualifies_of_longer_iff hlonger e).mp (of_decide_eq_true hq)).1
  exact List.mem_filter.mpr ⟨hmem, decide_eq_true hp⟩

end

namespace Round

/-- The owners of all setters are well formed when a round succeeds. -/
theorem isOwner_of_ok {σ : Type} {naming : Naming} {d : Destination σ} {es : List Element}
    {state : σ} {summary : Summary} (h : (perform naming d es state).outcome = .ok summary) :
    ∀ e ∈ qualifying naming.namePrefix es, DottedName.isOwner e.owner = true := by
  intro e he
  obtain ⟨g, hg, hgo⟩ := (grouped_ofList naming.namePrefix es).exists_group he
  rw [← hgo]
  exact DottedName.isOwner_iff.mpr ((rendered_of_ok h).1.owner_ok g hg)

/-- The targets of a round to a destination that takes everything, when the owners of all
setters are well formed. -/
theorem mem_targets_calls_iff {σ : Type} (naming : Naming) {d : Destination σ}
    {es : List Element} {state : σ} (haccepts : d.Accepts state)
    (howners : ∀ e ∈ qualifying naming.namePrefix es, DottedName.isOwner e.owner = true)
    (target : String) :
    target ∈ (calls naming d es state).map SourceUnit.target ↔
      ∃ e ∈ qualifying naming.namePrefix es, e.owner ++ naming.builderSuffix = target := by
  rw [targets_calls (Destination.takesAll_of_accepts haccepts _), reached_eq_qualifying howners]
  simp only [List.mem_map, List.mem_eraseDups, exists_exists_and_eq_and]

/-- **Asking more of names only takes away.**  Under the longer text the setters are some
of those under the shorter one, in the same order, and the elements rejected under the
shorter one are rejected still.  The group of an owner has its members restricted to the
names that start with the longer text, and is gone when none do; so a method that both
groups have has the same type in both.  To destinations that take everything, a round
that succeeds under the shorter text succeeds under the longer one, where it writes no
target that it did not write under the shorter one. -/
theorem perform_of_longer (suffix : String) {p q : String} (hlonger : p.toList <+: q.toList)
    (es : List Element) :
    (sift q es).accepted.Sublist (sift p es).accepted ∧
    (sift p es).rejected.Sublist (sift q es).rejected ∧
    (∀ owner, (SetterGroups.ofList (sift q es).accepted).get? owner =
      ((SetterGroups.ofList (sift p es).accepted).get? owner).bind fun g => g.startingWith? q) ∧
    (∀ owner g g', (SetterGroups.ofList (sift q es).accepted).get? owner = some g →
      (SetterGroups.ofList (sift p es).accepted).get? owner = some g' →
      ∀ method type type', g.members.get? method = some type →
        g'.members.get? method = some type' → type = type') ∧
    ∀ {σ σ' : Type} (d : Destination σ) (d' : Destination σ') (state : σ) (state' : σ'),
      d.Accepts state → d'.Accepts state' →
      (∃ summary, (perform ⟨p, suffix⟩ d es state).outcome = .ok summary) →
      (∃ summary, (perform ⟨q, suffix⟩ d' es state').outcome = .ok summary) ∧
        (calls ⟨q, suffix⟩ d' es state').map SourceUnit.target ⊆
          (calls ⟨p, suffix⟩ d es state).map SourceUnit.target := by
  have hgroups : ∀ owner, (SetterGroups.ofList (sift q es).accepted).get? owner =
      ((SetterGroups.ofList (sift p es).accepted).get? owner).bind fun g =>
        g.startingWith? q := by
    intro owner
    rw [accepted_of_longer hlonger]
    exact SetterGroups.get?_ofList_filter _ owner q
  refine ⟨?_, rejected_sublist_of_longer hlonger es, hgroups, ?_, ?_⟩
  · rw [accepted_of_longer hlonger]
    exact List.filter_sublist
  · intro owner g g' hg hg' method type type' htype htype'
    rw [hgroups owner, hg', Option.bind_some, SetterGroup.startingWith?] at hg
    split at hg
    · simp at hg
    · obtain rfl := Option.some.inj hg
      rw [Members.get?_startingWith] at htype
      split at htype
      · exact Option.some.inj (htype.symm.trans htype')
      · simp at htype
  · intro σ σ' d d' state state' haccepts haccepts' ⟨summary, hsummary⟩
    have hp := isOwner_of_ok hsummary
    have hq : ∀ e ∈ qualifying q es, DottedName.isOwner e.owner = true := fun e he =>
      hp e (qualifying_subset_of_longer hlonger es he)
    refine ⟨⟨_, outcome_of_takesAll (Destination.takesAll_of_accepts haccepts' _) hq⟩, ?_⟩
    intro target htarget
    obtain ⟨e, he, heq⟩ := (mem_targets_calls_iff ⟨q, suffix⟩ haccepts' hq target).mp htarget
    exact (mem_targets_calls_iff ⟨p, suffix⟩ haccepts hp target).mpr
      ⟨e, qualifying_subset_of_longer hlonger es he, heq⟩

/-- The owners change places when a setter drops out, and an overwritten type does not
come back. -/
theorem perform_of_longer_other_order :
    let es : List Element :=
      [⟨"a.Two", "setY", ["int"], none⟩, ⟨"One", "setXs", ["int"], none⟩,
        ⟨"One", "setXs", ["long"], some "One.java:7"⟩, ⟨"One", "setY", ["int"], none⟩,
        ⟨"a.Two", "setX", ["int"], none⟩, ⟨"a.", "setX", [], none⟩]
    "set".toList <+: "setX".toList ∧ Store.destination.Accepts .empty ∧
      (∃ x, (perform ⟨"set", "Maker"⟩ Store.destination es .empty).outcome = .ok x) ∧
      (∃ y, (perform ⟨"setX", "Maker"⟩ Store.destination es .empty).outcome = .ok y) ∧
      (sift "setX" es).accepted.Sublist (sift "set" es).accepted ∧
      (calls ⟨"setX", "Maker"⟩ Store.destination es .empty).map SourceUnit.target ⊆
        (calls ⟨"set", "Maker"⟩ Store.destination es .empty).map SourceUnit.target := by
  intro es
  have hlonger : "set".toList <+: "setX".toList := by decide
  have haccepts : Store.destination.Accepts .empty := fun _ _ => rfl
  have howners : ∀ e ∈ qualifying "set" es, DottedName.isOwner e.owner = true := by decide
  have htakes := Destination.takesAll_of_accepts haccepts
    (calls ⟨"set", "Maker"⟩ Store.destination es .empty)
  have hset : ∃ x, (perform ⟨"set", "Maker"⟩ Store.destination es .empty).outcome = .ok x :=
    ⟨_, outcome_of_takesAll htakes howners⟩
  obtain ⟨haccepted, -, -, -, hround⟩ := perform_of_longer "Maker" hlonger es
  obtain ⟨hsetX, htargets⟩ :=
    hround Store.destination Store.destination .empty .empty haccepts haccepts hset
  exact ⟨hlonger, haccepts, hset, hsetX, haccepted, htargets⟩

end Round
end FluentBuilders
