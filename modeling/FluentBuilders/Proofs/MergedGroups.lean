import FluentBuilders.Proofs.Replacements

/-! # Groups put together and listed again

Groups are held soundly when the index is in step with them and none is empty
(`IsSound`); an insertion keeps that, and so does a list of them.  Setters that come later
add their new owners behind the ones that are there and override the types of methods
(`owners_append`, `typeOf?_append`).  The setters that groups list, in any order within a
group, make the same groups again (`toList_ofList_flatten`), since the groups of lists
without a common owner stand one after the other (`toList_ofList_append_of_disjoint`).
-/
namespace FluentBuilders

/-! ## Distinct texts of two lists -/

/-- What is asked of the texts can be asked of the distinct ones. -/
theorem eraseDups_filter (p : String → Bool) (l : List String) :
    (l.filter p).eraseDups = l.eraseDups.filter p := by
  induction l using List.reverseRecOn with
  | nil => rfl
  | append_singleton l x ih =>
    rw [List.filter_append, eraseDups_concat]
    by_cases hp : p x = true
    · rw [List.filter_cons_of_pos hp, List.filter_nil, eraseDups_concat, ih]
      by_cases hx : x ∈ l
      · rw [if_pos (List.mem_filter.mpr ⟨hx, hp⟩), if_pos hx]
      · rw [if_neg fun h => hx (List.mem_filter.mp h).1, if_neg hx, List.filter_append,
          List.filter_cons_of_pos hp, List.filter_nil]
    · rw [List.filter_cons_of_neg hp, List.filter_nil, List.append_nil, ih]
      split
      · rfl
      · rw [List.filter_append, List.filter_cons_of_neg hp, List.filter_nil, List.append_nil]

/-- Of a second list, the texts count that the first one does not have. -/
theorem eraseDups_append_eq (xs ys : List String) :
    (xs ++ ys).eraseDups = xs.eraseDups ++ ys.eraseDups.filter fun y => y ∉ xs.eraseDups := by
  rw [List.eraseDups_append, List.removeAll, eraseDups_filter]
  refine congrArg (xs.eraseDups ++ ·) (List.filter_congr fun y _ => ?_)
  simp [List.mem_eraseDups]

/-- Lists without a common text are seen one after the other. -/
theorem eraseDups_append_of_disjoint {xs ys : List String} (h : xs.Disjoint ys) :
    (xs ++ ys).eraseDups = xs.eraseDups ++ ys.eraseDups := by
  rw [eraseDups_append_eq, List.filter_eq_self.mpr]
  intro y hy
  rw [decide_eq_true_iff, List.mem_eraseDups]
  exact fun hx => h hx (List.mem_eraseDups.mp hy)

/-- One text, however often it occurs. -/
theorem eraseDups_eq_singleton {l : List String} {x : String} (hne : l ≠ [])
    (h : ∀ y ∈ l, y = x) : l.eraseDups = [x] := by
  obtain ⟨y, rest, rfl⟩ := List.exists_cons_of_ne_nil hne
  obtain rfl := h y List.mem_cons_self
  have hnil : rest.filter (fun z => !z == y) = [] := by
    rw [List.filter_eq_nil_iff]
    intro z hz
    simp [h z (List.mem_cons_of_mem _ hz)]
  rw [List.eraseDups_cons, hnil, List.eraseDups_nil]

/-! ## Members listed in any order -/

namespace Members

theorem size_insert_ne_zero (m : Members) (name type : String) :
    (m.insert name type).size ≠ 0 := by
  have hsize := m.size_insert name type
  have hle : (m.get? name).toList.length ≤ m.size := by
    cases h : m.get? name with
    | none => exact Nat.zero_le _
    | some t => exact List.length_pos_of_mem (mem_entries_iff.mpr h)
  omega

/-- **Members are made of their entries**, in whatever order these come. -/
theorem ofList_of_perm {l : List (String × String)} {m : Members} (h : l.Perm m.entries) :
    ofList l = m := by
  apply ext_get
  intro name
  apply Option.ext
  intro type
  rw [get?_ofList, Option.map_eq_some_iff, ← mem_entries_iff]
  constructor
  · rintro ⟨e, he, rfl⟩
    obtain ⟨hmem, hname⟩ := List.mem_filter.mp (List.mem_of_getLast? he)
    rw [← of_decide_eq_true hname]
    exact h.mem_iff.mp hmem
  · intro hmem
    -- a name has one entry, so the last one is the one that is there
    have hfilter : (name, type) ∈ l.filter fun e => e.1 = name :=
      List.mem_filter.mpr ⟨h.mem_iff.mpr hmem, decide_eq_true rfl⟩
    obtain ⟨⟨name', type'⟩, hlast⟩ : ∃ e, (l.filter fun e => e.1 = name).getLast? = some e :=
      ⟨_, List.getLast?_eq_some_getLast (List.ne_nil_of_mem hfilter)⟩
    obtain ⟨hmem', hname⟩ := List.mem_filter.mp (List.mem_of_getLast? hlast)
    obtain rfl : name' = name := of_decide_eq_true hname
    have htype := (mem_entries_iff.mp (h.mem_iff.mp hmem')).symm.trans (mem_entries_iff.mp hmem)
    exact ⟨_, hlast, Option.some.inj htype⟩

end Members

/-- What a group lists: a setter for each of its members. -/
def SetterGroup.setters (g : SetterGroup) : List Setter :=
  g.members.entries.map fun e => ⟨g.owner, e.1, e.2⟩

namespace SetterGroups

/-! ## How groups are held -/

/-- The index is in step with the groups, and each group has a member. -/
structure IsSound (gs : SetterGroups) : Prop where
  indexed : gs.IsIndexed
  filled : ∀ g ∈ gs.toList, g.members.size ≠ 0

theorem isSound_empty : empty.IsSound :=
  ⟨isIndexed_empty, fun g hg => by simp [empty, toList] at hg⟩

/-- A step on a plain list leaves no group empty. -/
theorem filled_place (s : Setter) {l : List SetterGroup} (h : ∀ g ∈ l, g.members.size ≠ 0) :
    ∀ g ∈ place s l, g.members.size ≠ 0 := by
  induction l with
  | nil =>
    intro g hg
    obtain rfl := List.mem_singleton.mp hg
    exact Members.size_insert_ne_zero _ _ _
  | cons g rest ih =>
    have hrest : ∀ g ∈ rest, g.members.size ≠ 0 := fun g hg => h g (List.mem_cons_of_mem _ hg)
    intro g' hg'
    rw [place] at hg'
    split at hg'
    · rcases List.mem_cons.mp hg' with rfl | hg'
      · exact Members.size_insert_ne_zero _ _ _
      · exact hrest g' hg'
    · rcases List.mem_cons.mp hg' with rfl | hg'
      · exact h g' List.mem_cons_self
      · exact ih hrest g' hg'

/-- **An insertion keeps groups sound.** -/
theorem IsSound.insert {gs : SetterGroups} (h : gs.IsSound) (s : Setter) :
    (gs.insert s).IsSound := by
  refine ⟨isIndexed_insert h.indexed s, ?_⟩
  rw [toList_insert h.indexed]
  exact filled_place s h.filled

theorem IsSound.insertAll {gs : SetterGroups} (h : gs.IsSound) (setters : List Setter) :
    (gs.insertAll setters).IsSound := by
  induction setters generalizing gs with
  | nil => exact h
  | cons s rest ih => exact ih (h.insert s)

theorem isSound_ofList (setters : List Setter) : (ofList setters).IsSound :=
  isSound_empty.insertAll setters

/-- A position in the index is that of a group of the owner. -/
theorem exists_group_of_index {gs : SetterGroups} (h : gs.IsIndexed) {owner : String} {i : Nat}
    (hi : gs.index[owner]? = some i) : ∃ hlt : i < gs.groups.size, gs.groups[i].owner = owner := by
  have howner := (h owner i).mp hi
  rw [owners, List.getElem?_map, toList, Array.getElem?_toList, Option.map_eq_some_iff] at howner
  obtain ⟨g, hg, rfl⟩ := howner
  obtain ⟨hlt, rfl⟩ := Array.getElem?_eq_some_iff.mp hg
  exact ⟨hlt, rfl⟩

theorem owners_ofList (setters : List Setter) :
    (ofList setters).owners = (setters.map Setter.owner).eraseDups := by
  rw [owners, toList_ofList, List.map_map]
  exact List.map_id _

/-- There is no group of an owner without setters. -/
theorem get?_ofList_eq_none_iff (setters : List Setter) (owner : String) :
    (ofList setters).get? owner = none ↔ ∀ s ∈ setters, s.owner ≠ owner := by
  rw [get?_ofList]
  by_cases h : owner ∈ setters.map Setter.owner
  · obtain ⟨s, hs, rfl⟩ := List.mem_map.mp h
    rw [if_pos h]
    refine iff_of_false (by simp) fun hnone => hnone s hs rfl
  · rw [if_neg h]
    exact iff_of_true rfl fun s hs howner => h (howner ▸ List.mem_map_of_mem hs)

/-! ## Groups of two lists -/

/-- The type that a method of an owner has. -/
def typeOf? (gs : SetterGroups) (owner method : String) : Option String :=
  (gs.get? owner).bind fun g => g.members.get? method

theorem typeOf?_ofList (setters : List Setter) (owner method : String) :
    (ofList setters).typeOf? owner method = (groupOf setters owner).members.get? method := by
  rw [typeOf?, get?_eq_find? (isIndexed_ofList setters), find?_ofList_bind]

/-- Owners that come later stand behind the ones that are there. -/
theorem owners_append (xs ys : List Setter) :
    (ofList (xs ++ ys)).owners =
      (ofList xs).owners ++ (ofList ys).owners.filter fun o => o ∉ (ofList xs).owners := by
  rw [owners_ofList, owners_ofList, owners_ofList, List.map_append, eraseDups_append_eq]

/-- **The types of later setters override** the ones that are there. -/
theorem typeOf?_append (xs ys : List Setter) (owner method : String) :
    (ofList (xs ++ ys)).typeOf? owner method =
      ((ofList ys).typeOf? owner method).or ((ofList xs).typeOf? owner method) := by
  rw [typeOf?_ofList, typeOf?_ofList, typeOf?_ofList, get?_groupOf, get?_groupOf, get?_groupOf,
    List.filter_append, List.getLast?_append, Option.map_or]

theorem groupOf_append_of_not_mem_right {xs ys : List Setter} {owner : String}
    (h : owner ∉ ys.map Setter.owner) : groupOf (xs ++ ys) owner = groupOf xs owner := by
  rw [groupOf, entriesOf_append, entriesOf_of_not_mem h, List.append_nil]
  rfl

theorem groupOf_append_of_not_mem_left {xs ys : List Setter} {owner : String}
    (h : owner ∉ xs.map Setter.owner) : groupOf (xs ++ ys) owner = groupOf ys owner := by
  rw [groupOf, entriesOf_append, entriesOf_of_not_mem h, List.nil_append]
  rfl

/-- **Lists without a common owner** have their groups one after the other. -/
theorem toList_ofList_append_of_disjoint {xs ys : List Setter}
    (h : (xs.map Setter.owner).Disjoint (ys.map Setter.owner)) :
    (ofList (xs ++ ys)).toList = (ofList xs).toList ++ (ofList ys).toList := by
  rw [toList_ofList, toList_ofList, toList_ofList, List.map_append,
    eraseDups_append_of_disjoint h, List.map_append]
  refine congrArg₂ (· ++ ·) (List.map_congr_left fun owner howner => ?_)
    (List.map_congr_left fun owner howner => ?_)
  · exact groupOf_append_of_not_mem_right (h (List.mem_eraseDups.mp howner))
  · exact groupOf_append_of_not_mem_left fun hxs => h hxs (List.mem_eraseDups.mp howner)

/-! ## Groups listed again -/

/-- The setters that a group lists make that group. -/
theorem toList_ofList_of_perm {g : SetterGroup} {l : List Setter} (hfilled : g.members.size ≠ 0)
    (h : l.Perm g.setters) : (ofList l).toList = [g] := by
  have howner : ∀ s ∈ l, s.owner = g.owner := by
    intro s hs
    obtain ⟨e, -, rfl⟩ := List.mem_map.mp (h.mem_iff.mp hs)
    rfl
  have hne : l.map Setter.owner ≠ [] := by
    intro hnil
    have hlength := h.length_eq
    rw [List.map_eq_nil_iff.mp hnil, SetterGroup.setters, List.length_map] at hlength
    exact hfilled hlength.symm
  have hentries : (entriesOf l g.owner).Perm g.members.entries := by
    have hall : l.filter (fun s => s.owner = g.owner) = l :=
      List.filter_eq_self.mpr fun s hs => decide_eq_true (howner s hs)
    rw [entriesOf, hall]
    refine (h.map _).trans ?_
    rw [SetterGroup.setters, List.map_map]
    exact .of_eq (List.map_id _)
  rw [toList_ofList, eraseDups_eq_singleton hne (by simpa using howner), List.map_singleton,
    groupOf, Members.ofList_of_perm hentries]

/-- **The setters that groups list make the same groups**, in the same order. -/
theorem toList_ofList_flatten {groups : List SetterGroup} {lists : List (List Setter)}
    (hnodup : (groups.map SetterGroup.owner).Nodup) (hfilled : ∀ g ∈ groups, g.members.size ≠ 0)
    (h : List.Forall₂ (fun g l => l.Perm g.setters) groups lists) :
    (ofList lists.flatten).toList = groups := by
  induction h with
  | nil => rfl
  | @cons g l groups lists hl _ ih =>
    obtain ⟨hnot, hnodup⟩ := List.nodup_cons.mp hnodup
    have hhead := toList_ofList_of_perm (hfilled g List.mem_cons_self) hl
    have htail := ih hnodup fun g' hg' => hfilled g' (List.mem_cons_of_mem _ hg')
    have hmem : ∀ (setters : List Setter) owner, owner ∈ setters.map Setter.owner ↔
        owner ∈ (ofList setters).toList.map SetterGroup.owner := by
      intro setters owner
      rw [← owners, owners_ofList, List.mem_eraseDups]
    have hdisjoint : (l.map Setter.owner).Disjoint (lists.flatten.map Setter.owner) := by
      intro owner hfront hback
      rw [hmem, hhead, List.map_singleton, List.mem_singleton] at hfront
      rw [hmem, htail] at hback
      exact hnot (hfront ▸ hback)
    rw [List.flatten_cons, toList_ofList_append_of_disjoint hdisjoint, hhead, htail]
    rfl

/-- **Groups are in step with their index, and put together owner by owner.**  Owners are
distinct, the index holds the position of each of them and nothing else, so that what is
found under an owner is its one group, and nothing when the owner has no setter; no group is
empty.  Groups of a longer list have the new owners at the end, and a method has the type of
the later setters, or else the one that it has already.  The setters that the groups list, in
any order within a group, make the same groups again. -/
theorem ofList_joined_and_relisted (setters : List Setter) :
    let gs := ofList setters
    (gs.owners.Nodup ∧
      (∀ (owner : String) (i : Nat), gs.index[owner]? = some i ↔ gs.owners[i]? = some owner) ∧
      (∀ (owner : String) (i : Nat), gs.index[owner]? = some i →
        ∃ hlt : i < gs.groups.size, gs.groups[i].owner = owner) ∧
      (∀ owner g, gs.get? owner = some g ↔ g ∈ gs.toList ∧ g.owner = owner) ∧
      (∀ owner, gs.get? owner = none ↔ ∀ s ∈ setters, s.owner ≠ owner) ∧
      ∀ g ∈ gs.toList, g.members.size ≠ 0) ∧
    (∀ later, (ofList (setters ++ later)).owners =
        gs.owners ++ (ofList later).owners.filter (fun o => o ∉ gs.owners) ∧
      ∀ owner method, (ofList (setters ++ later)).typeOf? owner method =
        ((ofList later).typeOf? owner method).or (gs.typeOf? owner method)) ∧
    ∀ lists, List.Forall₂ (fun g l => l.Perm g.setters) gs.toList lists →
      (ofList lists.flatten).toList = gs.toList := by
  intro gs
  have hsound : gs.IsSound := isSound_ofList setters
  have hnodup := nodup_owners hsound.indexed
  refine ⟨⟨hnodup, hsound.indexed, fun _ _ hi => exists_group_of_index hsound.indexed hi,
    fun _ _ => get?_eq_some_iff hsound.indexed, get?_ofList_eq_none_iff setters,
    hsound.filled⟩, fun later => ?_, fun lists h => ?_⟩
  · exact ⟨owners_append setters later, typeOf?_append setters later⟩
  · exact toList_ofList_flatten hnodup hsound.filled h

/-- A method that was given twice is listed once, and the listing may name it last. -/
theorem ofList_joined_and_relisted_two_owners :
    let setters : List Setter :=
      [⟨"z.Last", "setA", "int"⟩, ⟨"a.First", "setB", "int"⟩, ⟨"z.Last", "setC", "int"⟩,
        ⟨"z.Last", "setA", "long"⟩]
    let lists : List (List Setter) :=
      [[⟨"z.Last", "setC", "int"⟩, ⟨"z.Last", "setA", "long"⟩], [⟨"a.First", "setB", "int"⟩]]
    List.Forall₂ (fun g l => l.Perm g.setters) (ofList setters).toList lists ∧
      (ofList lists.flatten).toList = (ofList setters).toList ∧
      (ofList (setters ++ [⟨"New", "setA", ""⟩])).owners = (ofList setters).owners ++ ["New"] := by
  intro setters lists
  have hlisted : List.Forall₂ (fun g l => l.Perm g.setters) (ofList setters).toList lists := by
    rw [toList_ofList]
    exact .cons (by decide) (.cons (by decide) .nil)
  obtain ⟨-, hjoined, hrelisted⟩ := ofList_joined_and_relisted setters
  refine ⟨hlisted, hrelisted lists hlisted, ?_⟩
  rw [(hjoined [⟨"New", "setA", ""⟩]).1, owners_ofList, owners_ofList]
  decide

end SetterGroups
end FluentBuilders
