import Mathlib.Data.List.TakeWhile
import FluentBuilders.Proofs.RoundOutcome

/-! # The builders of a round

To a destination that refuses nothing, a round gives units that its elements alone
determine: for each owner of a setter, in the order in which the owners occur first,
the builder of what its setters say last (`IsBuilder`), up to the first owner that is
not well formed (`reached`).  What the units are and in which order they stand is told
by `mem_calls_iff` and `targets_calls`; nothing else about grouping and rendering is
needed to follow a round from one state of a destination to the next.
-/
namespace FluentBuilders

/-- A unit that is the builder of an owner for some setters: it has a method for each
name, and the type of the method is the one of the last setter with that name. -/
def IsBuilder (suffix : String) (setters : List Element) (owner : String) (unit : SourceUnit) :
    Prop :=
  ∃ members : Members,
    (∀ name type, members.get? name = some type ↔
      (lastOf setters owner name).map Element.parameters = some [type]) ∧
    BuilderClass.render owner members suffix = .ok unit

/-- The setters in front of the first one whose owner is not well formed. -/
def reached (namePrefix : String) (es : List Element) : List Element :=
  (qualifying namePrefix es).takeWhile fun e => DottedName.isOwner e.owner

/-- All setters are reached when all owners are well formed. -/
theorem reached_eq_qualifying {namePrefix : String} {es : List Element}
    (h : ∀ e ∈ qualifying namePrefix es, DottedName.isOwner e.owner = true) :
    reached namePrefix es = qualifying namePrefix es :=
  List.takeWhile_eq_self_iff.mpr h

/-- The last setter of each name tells all about the group of an owner. -/
theorem get?_groupOf_eq_some_iff {setters : List Element}
    (hlength : ∀ e ∈ setters, e.parameters.length = 1) (owner name type : String) :
    (SetterGroups.groupOf (setters.map Element.asSetter) owner).members.get? name = some type ↔
      (lastOf setters owner name).map Element.parameters = some [type] := by
  rw [SetterGroups.get?_groupOf_asSetter, Option.map_eq_some_iff, Option.map_eq_some_iff]
  refine exists_congr fun e => and_congr_right fun he => ?_
  exact (Element.parameters_eq_iff (hlength e (mem_of_lastOf he).1) type).symm

/-- **The builder of an owner** is what rendering makes of its group. -/
theorem isBuilder_iff {suffix : String} {setters : List Element}
    (hlength : ∀ e ∈ setters, e.parameters.length = 1) (owner : String) (unit : SourceUnit) :
    IsBuilder suffix setters owner unit ↔
      BuilderClass.render owner
        (SetterGroups.groupOf (setters.map Element.asSetter) owner).members suffix = .ok unit := by
  have hgroup := get?_groupOf_eq_some_iff hlength owner
  constructor
  · rintro ⟨members, hmembers, hunit⟩
    have heq : (SetterGroups.groupOf (setters.map Element.asSetter) owner).members = members :=
      Members.ext_get fun name => Option.ext fun type =>
        (hgroup name type).trans (hmembers name type).symm
    rw [heq]
    exact hunit
  · intro hunit
    exact ⟨_, hgroup, hunit⟩

theorem IsBuilder.target_eq {suffix owner : String} {setters : List Element} {unit : SourceUnit}
    (h : IsBuilder suffix setters owner unit) : unit.target = owner ++ suffix := by
  obtain ⟨_, _, hunit⟩ := h
  exact BuilderClass.target_of_render hunit

/-- An owner has at most one builder. -/
theorem IsBuilder.unique {suffix owner : String} {setters : List Element}
    {unit unit' : SourceUnit} (h : IsBuilder suffix setters owner unit)
    (h' : IsBuilder suffix setters owner unit') : unit = unit' := by
  obtain ⟨members, hmembers, hunit⟩ := h
  obtain ⟨members', hmembers', hunit'⟩ := h'
  obtain rfl : members = members' := Members.ext_get fun name => Option.ext fun type =>
    (hmembers name type).trans (hmembers' name type).symm
  exact Except.ok.inj (hunit.symm.trans hunit')

/-! ## First occurrences up to a point -/

/-- What is first seen while a condition holds is seen while it holds. -/
theorem takeWhile_eraseDups (p : String → Bool) (l : List String) :
    l.eraseDups.takeWhile p = (l.takeWhile p).eraseDups := by
  have hfront : ∀ y ∈ (l.takeWhile p).eraseDups, p y = true := fun y hy =>
    List.mem_takeWhile_imp (List.mem_eraseDups.mp hy)
  have hcut := (List.takeWhile_append_dropWhile (p := p) (l := l)).symm
  have hhead := List.head?_dropWhile_not p l
  cases hback : l.dropWhile p with
  | nil =>
    rw [hback, List.append_nil] at hcut
    rw [← hcut] at hfront ⊢
    exact List.takeWhile_eq_self_iff.mpr hfront
  | cons y back =>
    -- the first text that fails was not seen before
    rw [hback] at hcut hhead
    have hy : p y = false := hhead
    have hnew : (l.takeWhile p).contains y = false := by
      rw [List.contains_eq_mem, decide_eq_false_iff_not]
      intro hmem
      rw [List.mem_takeWhile_imp hmem] at hy
      exact absurd hy (by decide)
    have hseen := congrArg List.eraseDups hcut
    rw [List.eraseDups_append, List.cons_removeAll, if_pos hnew, List.eraseDups_cons] at hseen
    rw [hseen, List.takeWhile_append_of_pos hfront, List.takeWhile_cons_of_neg (by simp [hy]),
      List.append_nil]

namespace Round

variable {σ : Type}

/-- **A round does to its destination what its units do**, given one after the other. -/
theorem state_eq_after (naming : Naming) (d : Destination σ) (es : List Element) (state : σ) :
    (perform naming d es state).state = d.after state (calls naming d es state) := by
  rw [state_perform, state_writeGroups, calls_eq_given]

/-- The groups of a round, from its setters. -/
theorem groups_eq_map (naming : Naming) (es : List Element) :
    groups naming es =
      ((qualifying naming.namePrefix es).map Element.owner).eraseDups.map
        (SetterGroups.groupOf ((qualifying naming.namePrefix es).map Element.asSetter)) := by
  rw [groups, accepted_eq_map, SetterGroups.toList_ofList, List.map_map]
  rfl

/-- The groups in front of the first owner that is not well formed. -/
theorem takeWhile_groups (naming : Naming) (es : List Element) :
    (groups naming es).takeWhile (fun g => DottedName.isOwner g.owner) =
      ((reached naming.namePrefix es).map Element.owner).eraseDups.map
        (SetterGroups.groupOf ((qualifying naming.namePrefix es).map Element.asSetter)) := by
  rw [groups_eq_map, List.takeWhile_map]
  refine congrArg (List.map _) ((takeWhile_eraseDups DottedName.isOwner _).trans ?_)
  rw [List.takeWhile_map]
  rfl

section

variable {naming : Naming} {d : Destination σ} {es : List Element} {state : σ}

/-- **What a round gives when nothing is refused.** -/
theorem rendered_calls (h : d.TakesAll state (calls naming d es state)) :
    Rendered naming.builderSuffix
      ((groups naming es).takeWhile fun g => DottedName.isOwner g.owner)
      (calls naming d es state) := by
  rw [calls_eq_given] at h ⊢
  exact rendered_given d naming.builderSuffix h

/-- **The units of a round** are the builders of the owners it reaches. -/
theorem mem_calls_iff (h : d.TakesAll state (calls naming d es state)) (unit : SourceUnit) :
    unit ∈ calls naming d es state ↔ ∃ e ∈ reached naming.namePrefix es,
      IsBuilder naming.builderSuffix (qualifying naming.namePrefix es) e.owner unit := by
  rw [(rendered_calls h).mem_iff, takeWhile_groups]
  have hbuilder : ∀ owner,
      IsBuilder naming.builderSuffix (qualifying naming.namePrefix es) owner unit ↔ _ :=
    fun owner => isBuilder_iff (fun _ => length_parameters_of_mem) owner unit
  constructor
  · rintro ⟨g, hg, hunit⟩
    obtain ⟨owner, howner, rfl⟩ := List.mem_map.mp hg
    obtain ⟨e, he, rfl⟩ := List.mem_map.mp (List.mem_eraseDups.mp howner)
    exact ⟨e, he, (hbuilder e.owner).mpr hunit⟩
  · rintro ⟨e, he, hunit⟩
    exact ⟨_, List.mem_map_of_mem (List.mem_eraseDups.mpr (List.mem_map_of_mem he)),
      (hbuilder e.owner).mp hunit⟩

/-- The targets of the units of a round, in order. -/
theorem targets_calls (h : d.TakesAll state (calls naming d es state)) :
    (calls naming d es state).map SourceUnit.target =
      ((reached naming.namePrefix es).map Element.owner).eraseDups.map
        (· ++ naming.builderSuffix) := by
  rw [(rendered_calls h).targets, takeWhile_groups, List.map_map]
  rfl

/-- The units of a round have different targets. -/
theorem nodup_targets_calls (h : d.TakesAll state (calls naming d es state)) :
    ((calls naming d es state).map SourceUnit.target).Nodup := by
  rw [targets_calls h]
  exact (firstSeen_eraseDups _).nodup.map (target_injective naming.builderSuffix)

/-- The builder that a round gives for an owner, told by its target. -/
theorem mem_calls_iff_of_target (h : d.TakesAll state (calls naming d es state))
    {unit : SourceUnit} {owner : String} (htarget : unit.target = owner ++ naming.builderSuffix) :
    unit ∈ calls naming d es state ↔ (∃ e ∈ reached naming.namePrefix es, e.owner = owner) ∧
      IsBuilder naming.builderSuffix (qualifying naming.namePrefix es) owner unit := by
  rw [mem_calls_iff h]
  constructor
  · rintro ⟨e, he, hunit⟩
    have howner : e.owner = owner :=
      target_injective naming.builderSuffix (hunit.target_eq.symm.trans htarget)
    exact ⟨⟨e, he, howner⟩, howner ▸ hunit⟩
  · rintro ⟨⟨e, he, rfl⟩, hunit⟩
    exact ⟨e, he, hunit⟩

/-- A round that is not stopped gives all its builders and reports the rest. -/
theorem outcome_of_takesAll (h : d.TakesAll state (calls naming d es state))
    (howners : ∀ e ∈ qualifying naming.namePrefix es, DottedName.isOwner e.owner = true) :
    (perform naming d es state).outcome =
      .ok ⟨(sift naming.namePrefix es).rejected, calls naming d es state⟩ := by
  rw [calls_eq_given] at h ⊢
  rw [outcome_perform]
  rcases (course_writeGroups d naming.builderSuffix (groups naming es) state).of_takesAll h with
    ⟨-, hok⟩ | ⟨front, g, back, fault, hsplit, -, herror, -⟩
  · rw [hok]
    rfl
  · have hg : g ∈ groups naming es := hsplit ▸ List.mem_append_right _ List.mem_cons_self
    obtain ⟨e, he, heo⟩ := (grouped_ofList naming.namePrefix es).exists_element hg
    have hwell := howners e he
    rw [heo, DottedName.isOwner_of_error herror] at hwell
    exact absurd hwell (by decide)

/-- A round succeeds when the builders of all its groups are written. -/
theorem writeGroups_of_ok {summary : Summary}
    (h : (perform naming d es state).outcome = .ok summary) :
    (writeGroups d naming.builderSuffix (groups naming es) state).outcome =
        .ok summary.written ∧
      summary.rejected = (sift naming.namePrefix es).rejected := by
  rw [outcome_perform] at h
  cases hwritten : (writeGroups d naming.builderSuffix (groups naming es) state).outcome with
  | error e =>
    rw [hwritten] at h
    simp [Except.map] at h
  | ok written =>
    rw [hwritten] at h
    obtain rfl := Except.ok.inj h
    exact ⟨rfl, rfl⟩

/-- The builders of a round that succeeds are those of all its groups. -/
theorem rendered_of_ok {summary : Summary} (h : (perform naming d es state).outcome = .ok summary) :
    Rendered naming.builderSuffix (groups naming es) summary.written ∧
      calls naming d es state = summary.written := by
  have hcourse := course_writeGroups d naming.builderSuffix (groups naming es) state
  have hwritten := (writeGroups_of_ok h).1
  rw [calls_eq_given]
  generalize (writeGroups d naming.builderSuffix (groups naming es) state).outcome = outcome
    at hcourse hwritten
  cases hcourse with
  | completed rendered taken =>
    have hgiven := Except.ok.inj hwritten
    exact ⟨hgiven ▸ rendered, hgiven⟩
  | malformed => simp at hwritten
  | refused => simp at hwritten

end

end Round
end FluentBuilders
