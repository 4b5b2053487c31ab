import Mathlib.Algebra.GroupWithZero.Nat
import FluentBuilders.Proofs.Grouping

/-! # What setters replace

A setter that is put into its group adds a member or takes the place of one.  So the
setters that were put in are the members that are there and the replacements that
happened (`length_replacements_add_memberCount`): one step adds to one of the two
(`memberCount_insert`).  A replacement tells the last setter before it with the same
owner and name, whatever else was put in meanwhile (`replacements_asSetter`).
-/
namespace FluentBuilders

/-- An insertion adds a name, unless it is there already. -/
theorem Members.size_insert (m : Members) (name type : String) :
    (m.insert name type).size + (m.get? name).toList.length = m.size + 1 := by
  obtain ⟨entries, hsorted⟩ := m
  show (insertEntry name type entries).length + (entries.lookup name).toList.length =
    entries.length + 1
  induction entries with
  | nil => rfl
  | cons e rest ih =>
    obtain ⟨hhead, htail⟩ := List.pairwise_cons.mp hsorted
    rw [insertEntry]
    by_cases hlt : Text.ByteLt name e.1
    · -- the name is in front of all others
      have hnone : (e :: rest).lookup name = none := lookup_eq_none_of_byteLt fun a ha => by
        rcases List.mem_cons.mp ha with rfl | ha
        · exact hlt
        · exact Text.byteLt_trans hlt (hhead a ha)
      rw [if_pos hlt, hnone]
      rfl
    · rw [if_neg hlt]
      by_cases heq : name = e.1
      · subst heq
        rw [if_pos rfl, List.lookup_cons_self]
        rfl
      · have hstep := ih htail
        rw [if_neg heq, List.lookup_cons, beq_false_of_ne heq, List.length_cons, List.length_cons]
        show _ + (rest.lookup name).toList.length = _
        omega

namespace SetterGroups

/-! ## Counting members -/

/-- The number of members of all groups together. -/
def memberCount (groups : List SetterGroup) : Nat :=
  (groups.map fun g => g.members.size).sum

theorem memberCount_cons (g : SetterGroup) (groups : List SetterGroup) :
    memberCount (g :: groups) = g.members.size + memberCount groups :=
  List.sum_cons

/-- Among indexed groups, the group of an owner is the only one of that owner. -/
theorem get?_eq_find? {gs : SetterGroups} (h : gs.IsIndexed) (owner : String) :
    gs.get? owner = gs.toList.find? fun g => g.owner = owner := by
  cases hfind : gs.toList.find? fun g => g.owner = owner with
  | none =>
    rw [Option.eq_none_iff_forall_ne_some]
    intro g hg
    obtain ⟨hmem, howner⟩ := (get?_eq_some_iff h).mp hg
    exact List.find?_eq_none.mp hfind g hmem (decide_eq_true howner)
  | some g =>
    exact (get?_eq_some_iff h).mpr
      ⟨List.mem_of_find?_eq_some hfind, by simpa using List.find?_some hfind⟩

/-- What a setter replaces, in a plain list of groups. -/
theorem replacement?_eq {gs : SetterGroups} (h : gs.IsIndexed) (s : Setter) :
    gs.replacement? s =
      ((gs.toList.find? fun g => g.owner = s.owner).bind fun g => g.members.get? s.name).map
        fun previous => ⟨s.owner, s.name, previous, s.parameter⟩ := by
  rw [replacement?, get?_eq_find? h]
  cases gs.toList.find? fun g => g.owner = s.owner <;> rfl

/-- **A step on a plain list** adds a member or replaces one. -/
theorem memberCount_place (s : Setter) (l : List SetterGroup) :
    memberCount (place s l) +
        ((l.find? fun g => g.owner = s.owner).bind fun g =>
          g.members.get? s.name).toList.length =
      memberCount l + 1 := by
  induction l with
  | nil => rfl
  | cons g rest ih =>
    rw [place]
    by_cases ho : g.owner = s.owner
    · have hsize := g.members.size_insert s.name s.parameter
      rw [if_pos ho, List.find?_cons_of_pos (by simpa using ho), memberCount_cons,
        memberCount_cons]
      show (g.members.insert s.name s.parameter).size + memberCount rest +
        (g.members.get? s.name).toList.length = g.members.size + memberCount rest + 1
      omega
    · rw [if_neg ho, List.find?_cons_of_neg (by simpa using ho), memberCount_cons,
        memberCount_cons]
      omega

/-- **An insertion adds a member or replaces one.** -/
theorem memberCount_insert {gs : SetterGroups} (h : gs.IsIndexed) (s : Setter) :
    memberCount (gs.insert s).toList + (gs.replacement? s).toList.length =
      memberCount gs.toList + 1 := by
  rw [toList_insert h, replacement?_eq h, ← memberCount_place s gs.toList]
  cases (gs.toList.find? fun g => g.owner = s.owner).bind fun g => g.members.get? s.name <;> rfl

/-- **Every setter that was put in is a member or was replaced.** -/
theorem length_replacements_add_memberCount {gs : SetterGroups} (h : gs.IsIndexed)
    (setters : List Setter) :
    (gs.replacements setters).length + memberCount (gs.insertAll setters).toList =
      memberCount gs.toList + setters.length := by
  induction setters generalizing gs with
  | nil => exact Nat.zero_add _
  | cons s rest ih =>
    have hstep := memberCount_insert h s
    have hrest : ((gs.insert s).replacements rest).length +
        memberCount (gs.insertAll (s :: rest)).toList =
          memberCount (gs.insert s).toList + rest.length := ih (isIndexed_insert h s)
    rw [replacements, List.length_append, List.length_cons]
    omega

/-! ## What is replaced -/

/-- The group of an owner among the groups of a list of setters. -/
theorem find?_ofList (setters : List Setter) (owner : String) :
    ((ofList setters).toList.find? fun g => g.owner = owner) =
      if owner ∈ setters.map Setter.owner then some (groupOf setters owner) else none := by
  have hcomp : (fun g : SetterGroup => decide (g.owner = owner)) ∘ groupOf setters =
      fun o => decide (o = owner) := rfl
  rw [toList_ofList, List.find?_map, hcomp]
  split
  · next howner =>
    have hfind : (setters.map Setter.owner).eraseDups.find? (fun o => decide (o = owner)) =
        some owner := by
      cases hfind : (setters.map Setter.owner).eraseDups.find? fun o => decide (o = owner) with
      | none =>
        have hnone := List.find?_eq_none.mp hfind owner (List.mem_eraseDups.mpr howner)
        simp at hnone
      | some o => rw [show o = owner by simpa using List.find?_some hfind]
    rw [hfind]
    rfl
  · next howner =>
    have hfind : (setters.map Setter.owner).eraseDups.find? (fun o => decide (o = owner)) =
        none := by
      rw [List.find?_eq_none]
      intro o ho
      simpa using fun heq : o = owner => howner (heq ▸ List.mem_eraseDups.mp ho)
    rw [hfind]
    rfl

/-- **The group of an owner** is told by its setters, and there is one when it has any. -/
theorem get?_ofList (setters : List Setter) (owner : String) :
    (ofList setters).get? owner =
      if owner ∈ setters.map Setter.owner then some (groupOf setters owner) else none := by
  rw [get?_eq_find? (isIndexed_ofList setters), find?_ofList]

/-- The members of an owner, looked up among the groups of a list of setters. -/
theorem find?_ofList_bind (setters : List Setter) (owner name : String) :
    ((ofList setters).toList.find? fun g => g.owner = owner).bind
        (fun g => g.members.get? name) =
      (groupOf setters owner).members.get? name := by
  rw [find?_ofList]
  split
  · rfl
  · next howner =>
    rw [groupOf_of_not_mem howner]
    rfl

end SetterGroups

/-- What an element replaces that is a setter: the last one before it with the same owner
and name. -/
def repeat? (earlier : List Element) (e : Element) : Option Replacement :=
  (lastOf earlier e.owner e.name).map fun f =>
    ⟨e.owner, e.name, f.asSetter.parameter, e.asSetter.parameter⟩

/-- What some setters replace, in order, when others came before them. -/
def repeats : List Element → List Element → List Replacement
  | _, [] => []
  | earlier, e :: rest => (repeat? earlier e).toList ++ repeats (earlier ++ [e]) rest

namespace SetterGroups

theorem replacement?_asSetter (earlier : List Element) (e : Element) :
    (ofList (earlier.map Element.asSetter)).replacement? e.asSetter = repeat? earlier e := by
  rw [replacement?_eq (isIndexed_ofList _), find?_ofList_bind, get?_groupOf_asSetter,
    Option.map_map]
  rfl

/-- **The replacements that happen** are told by the elements alone. -/
theorem replacements_asSetter (earlier rest : List Element) :
    (ofList (earlier.map Element.asSetter)).replacements (rest.map Element.asSetter) =
      repeats earlier rest := by
  induction rest generalizing earlier with
  | nil => rfl
  | cons e rest ih =>
    have hinsert : (ofList (earlier.map Element.asSetter)).insert e.asSetter =
        ofList ((earlier ++ [e]).map Element.asSetter) := by
      rw [List.map_append, ofList, ofList, insertAll_append]
      rfl
    rw [List.map_cons, replacements, repeats, replacement?_asSetter, hinsert, ih]

end SetterGroups
end FluentBuilders
