import Mathlib.Data.List.Induction
import Mathlib.Data.List.Nodup
import FluentBuilders.SetterGroups

/-! # Groups by first and last occurrence

Putting setters into groups one after the other keeps an index and an array in
step and overwrites members as it goes.  What comes of it needs none of that to
be told: the owners stand where they occur first, and the members of an owner map
each name to the type that occurs last with it (`SetterGroups.toList_ofList`,
`Members.get?_ofList`).  The step is taken on a plain list of groups (`place`),
which the indexed one follows as long as the index holds the positions of the
owners (`IsIndexed`).
-/
namespace FluentBuilders

/-! ## First occurrences -/

/-- The distinct texts of a list, in the order in which they occur first. -/
structure FirstSeen (all distinct : List String) : Prop where
  mem_iff : ∀ x, x ∈ distinct ↔ x ∈ all
  ordered : distinct.Pairwise fun x y => all.idxOf x < all.idxOf y

theorem FirstSeen.nodup {all distinct : List String} (h : FirstSeen all distinct) :
    distinct.Nodup :=
  h.ordered.imp fun hlt heq => Nat.ne_of_lt hlt (congrArg all.idxOf heq)

/-- There is only one order of first occurrences. -/
theorem FirstSeen.unique {all xs ys : List String} (hx : FirstSeen all xs)
    (hy : FirstSeen all ys) : xs = ys := by
  have hperm : xs.Perm ys := (List.perm_ext_iff_of_nodup hx.nodup hy.nodup).mpr fun a => by
    rw [hx.mem_iff, hy.mem_iff]
  exact hperm.eq_of_pairwise (fun _ _ _ _ hlt hgt => absurd hgt (Nat.lt_asymm hlt))
    hx.ordered hy.ordered

/-- Nothing is first seen at the end of a list that has it already. -/
theorem eraseDups_concat (l : List String) (x : String) :
    (l ++ [x]).eraseDups = if x ∈ l then l.eraseDups else l.eraseDups ++ [x] := by
  rw [List.eraseDups_append]
  by_cases hx : x ∈ l
  · simp [List.removeAll, hx]
  · simp [List.removeAll, List.eraseDups_cons, hx]

theorem firstSeen_eraseDups (l : List String) : FirstSeen l l.eraseDups := by
  refine ⟨fun x => List.mem_eraseDups, ?_⟩
  induction l using List.reverseRecOn with
  | nil => simp
  | append_singleton l x ih =>
    -- the places of what was seen before do not move
    have hkeep : (l.eraseDups).Pairwise fun y z => (l ++ [x]).idxOf y < (l ++ [x]).idxOf z := by
      refine ih.imp_of_mem fun {y z} hy hz hlt => ?_
      rw [List.idxOf_append_of_mem (List.mem_eraseDups.mp hy),
        List.idxOf_append_of_mem (List.mem_eraseDups.mp hz)]
      exact hlt
    rw [eraseDups_concat]
    split
    · exact hkeep
    · next hx =>
      refine List.pairwise_append.mpr ⟨hkeep, List.pairwise_singleton _ _, ?_⟩
      intro y hy z hz
      rw [List.mem_singleton] at hz
      subst hz
      have hy := List.mem_eraseDups.mp hy
      rw [List.idxOf_append_of_mem hy, List.idxOf_append_of_notMem hx]
      exact Nat.lt_of_lt_of_le (List.idxOf_lt_length_of_mem hy) (Nat.le_add_right _ _)

/-! ## Members of a list -/

theorem Members.ofList_concat (l : List (String × String)) (e : String × String) :
    ofList (l ++ [e]) = (ofList l).insert e.1 e.2 := by
  unfold ofList
  rw [List.foldl_append]
  rfl

/-- **The last type of a name wins.** -/
theorem Members.get?_ofList (l : List (String × String)) (name : String) :
    (ofList l).get? name = ((l.filter fun e => e.1 = name).getLast?).map Prod.snd := by
  induction l using List.reverseRecOn with
  | nil => rfl
  | append_singleton l e ih =>
    rw [ofList_concat, get?_insert, List.filter_append]
    by_cases he : e.1 = name
    · simp [he]
    · have he' : ¬ name = e.1 := fun h => he h.symm
      simp [he, he', ih]

namespace SetterGroups

/-! ## The step on a plain list -/

/-- Puts a setter into the group of its owner, or into a new one at the end. -/
def place (s : Setter) : List SetterGroup → List SetterGroup
  | [] => [(SetterGroup.mk s.owner .empty).insert s]
  | g :: rest => if g.owner = s.owner then g.insert s :: rest else g :: place s rest

theorem owners_place (s : Setter) (l : List SetterGroup) :
    (place s l).map SetterGroup.owner =
      if s.owner ∈ l.map SetterGroup.owner then l.map SetterGroup.owner
      else l.map SetterGroup.owner ++ [s.owner] := by
  induction l with
  | nil => rfl
  | cons g rest ih =>
    rw [place]
    by_cases h : g.owner = s.owner
    · simp [h, SetterGroup.insert]
    · have h' : ¬ s.owner = g.owner := fun ho => h ho.symm
      rw [if_neg h, List.map_cons, ih]
      by_cases hr : s.owner ∈ rest.map SetterGroup.owner
      · have hc : s.owner ∈ (g :: rest).map SetterGroup.owner := List.mem_cons_of_mem _ hr
        rw [if_pos hr, if_pos hc, List.map_cons]
      · have hc : ¬ s.owner ∈ (g :: rest).map SetterGroup.owner := by
          rw [List.map_cons, List.mem_cons]
          exact fun hm => hm.elim h' hr
        rw [if_neg hr, if_neg hc, List.map_cons, List.cons_append]

theorem place_of_not_mem {s : Setter} {l : List SetterGroup}
    (h : s.owner ∉ l.map SetterGroup.owner) :
    place s l = l ++ [(SetterGroup.mk s.owner .empty).insert s] := by
  induction l with
  | nil => rfl
  | cons g rest ih =>
    rw [List.map_cons, List.mem_cons, not_or] at h
    rw [place, if_neg fun ho => h.1 ho.symm, ih h.2, List.cons_append]

/-- Among distinct owners, only the group at the place of the owner changes. -/
theorem place_eq_modify {s : Setter} {l : List SetterGroup} {i : Nat}
    (hnodup : (l.map SetterGroup.owner).Nodup)
    (hi : (l.map SetterGroup.owner)[i]? = some s.owner) :
    place s l = l.modify i fun g => g.insert s := by
  induction l generalizing i with
  | nil => simp at hi
  | cons g rest ih =>
    obtain ⟨hnot, hnodup⟩ := List.nodup_cons.mp hnodup
    cases i with
    | zero =>
      have ho : g.owner = s.owner := by simpa using hi
      rw [place, if_pos ho]
      rfl
    | succ i =>
      have hi : (rest.map SetterGroup.owner)[i]? = some s.owner := by simpa using hi
      have ho : ¬ g.owner = s.owner := fun ho => hnot (ho ▸ List.mem_of_getElem? hi)
      rw [place, if_neg ho, ih hnodup hi]
      rfl

/-! ## The index -/

/-- The index holds the position of each owner and nothing else. -/
def IsIndexed (gs : SetterGroups) : Prop :=
  ∀ (owner : String) (i : Nat), gs.index[owner]? = some i ↔ gs.owners[i]? = some owner

theorem isIndexed_empty : empty.IsIndexed := by
  intro owner i
  simp [empty, owners, toList]

/-- Owners that are indexed are distinct. -/
theorem nodup_owners {gs : SetterGroups} (h : gs.IsIndexed) : gs.owners.Nodup := by
  rw [List.nodup_iff_getElem?_ne_getElem?]
  intro i j hij hj heq
  have hj' : gs.owners[j]? = some gs.owners[j] := List.getElem?_eq_getElem hj
  have hi := (h _ _).mpr (heq.trans hj')
  have hj := (h _ _).mpr hj'
  rw [hi] at hj
  injection hj with hj
  exact Nat.ne_of_lt hij hj

theorem index_eq_none_iff {gs : SetterGroups} (h : gs.IsIndexed) (owner : String) :
    gs.index[owner]? = none ↔ owner ∉ gs.owners := by
  constructor
  · intro hnone hmem
    obtain ⟨i, hi⟩ := List.mem_iff_getElem?.mp hmem
    rw [(h owner i).mpr hi] at hnone
    simp at hnone
  · intro hnot
    cases hi : gs.index[owner]? with
    | none => rfl
    | some i => exact absurd (List.mem_of_getElem? ((h owner i).mp hi)) hnot

/-- **What is found** under an owner is the group of that owner. -/
theorem get?_eq_some_iff {gs : SetterGroups} (h : gs.IsIndexed) {owner : String}
    {g : SetterGroup} : gs.get? owner = some g ↔ g ∈ gs.toList ∧ g.owner = owner := by
  have howners : ∀ i : Nat, gs.groups[i]? = some g → gs.owners[i]? = some g.owner := by
    intro i hi
    rw [owners, List.getElem?_map, toList, Array.getElem?_toList, hi]
    rfl
  rw [get?, Option.bind_eq_some_iff]
  constructor
  · rintro ⟨i, hi, hg⟩
    have hsame := (howners i hg).symm.trans ((h owner i).mp hi)
    exact ⟨List.mem_of_getElem? (Array.getElem?_toList.trans hg), Option.some.inj hsame⟩
  · rintro ⟨hg, rfl⟩
    obtain ⟨i, hi⟩ := List.mem_iff_getElem?.mp hg
    rw [toList, Array.getElem?_toList] at hi
    exact ⟨i, (h _ i).mpr (howners i hi), hi⟩

/-- **An insertion is a step on the list of groups.** -/
theorem toList_insert {gs : SetterGroups} (h : gs.IsIndexed) (s : Setter) :
    (gs.insert s).toList = place s gs.toList := by
  unfold insert
  split
  · next i hi =>
    rw [place_eq_modify (nodup_owners h) ((h _ _).mp hi)]
    simp [toList]
  · next hi =>
    rw [place_of_not_mem ((index_eq_none_iff h _).mp hi)]
    simp [toList]

/-- **An insertion keeps the index in step with the groups.** -/
theorem isIndexed_insert {gs : SetterGroups} (h : gs.IsIndexed) (s : Setter) :
    (gs.insert s).IsIndexed := by
  intro owner i
  have howners : (gs.insert s).owners =
      if s.owner ∈ gs.owners then gs.owners else gs.owners ++ [s.owner] := by
    rw [owners, toList_insert h, owners_place]
    rfl
  rw [howners]
  cases hs : gs.index[s.owner]? with
  | some j =>
    have hmem : s.owner ∈ gs.owners := List.mem_of_getElem? ((h _ _).mp hs)
    rw [if_pos hmem, ← h owner i]
    simp [insert, hs]
  | none =>
    have hnot := (index_eq_none_iff h _).mp hs
    have hsize : gs.groups.size = gs.owners.length := by simp [owners, toList]
    rw [if_neg hnot]
    simp only [insert, hs]
    rw [Std.HashMap.getElem?_insert, hsize]
    by_cases ho : s.owner = owner
    · subst ho
      simp only [beq_self_eq_true, if_true, Option.some.injEq]
      constructor
      · intro hi
        subst hi
        simp
      · intro hi
        rw [List.getElem?_append] at hi
        split at hi
        · exact absurd (List.mem_of_getElem? hi) hnot
        · next hle =>
          have := (List.getElem?_eq_some_iff.mp hi).1
          simp at this
          omega
    · rw [beq_false_of_ne ho, if_neg Bool.false_ne_true, h owner i, List.getElem?_append]
      split
      · rfl
      · next hle =>
        have hnone : gs.owners[i]? = none := List.getElem?_eq_none (Nat.le_of_not_lt hle)
        rw [hnone]
        constructor
        · simp
        · intro hi
          exact absurd (List.mem_singleton.mp (List.mem_of_getElem? hi)).symm ho

theorem isIndexed_insertAll {gs : SetterGroups} (h : gs.IsIndexed) (setters : List Setter) :
    (gs.insertAll setters).IsIndexed := by
  induction setters generalizing gs with
  | nil => exact h
  | cons s rest ih => exact ih (isIndexed_insert h s)

theorem isIndexed_ofList (setters : List Setter) : (ofList setters).IsIndexed :=
  isIndexed_insertAll isIndexed_empty setters

/-! ## The groups of a list -/

/-- What an owner makes its members of, in order. -/
def entriesOf (setters : List Setter) (owner : String) : List (String × String) :=
  (setters.filter fun s => s.owner = owner).map fun s => (s.name, s.parameter)

/-- The group of an owner. -/
def groupOf (setters : List Setter) (owner : String) : SetterGroup :=
  ⟨owner, .ofList (entriesOf setters owner)⟩

theorem groupOf_concat (setters : List Setter) (s : Setter) (owner : String) :
    groupOf (setters ++ [s]) owner =
      if s.owner = owner then (groupOf setters owner).insert s else groupOf setters owner := by
  unfold groupOf entriesOf
  by_cases h : s.owner = owner
  · simp [h, SetterGroup.insert, Members.ofList_concat]
  · simp [h]

theorem entriesOf_append (xs ys : List Setter) (owner : String) :
    entriesOf (xs ++ ys) owner = entriesOf xs owner ++ entriesOf ys owner := by
  rw [entriesOf, List.filter_append, List.map_append]
  rfl

theorem entriesOf_of_not_mem {setters : List Setter} {owner : String}
    (h : owner ∉ setters.map Setter.owner) : entriesOf setters owner = [] := by
  have hnil : setters.filter (fun s => s.owner = owner) = [] := by
    rw [List.filter_eq_nil_iff]
    intro s hs
    simpa using fun ho : s.owner = owner => h (ho ▸ List.mem_map_of_mem hs)
  rw [entriesOf, hnil]
  rfl

theorem groupOf_of_not_mem {setters : List Setter} {owner : String}
    (h : owner ∉ setters.map Setter.owner) : groupOf setters owner = ⟨owner, .empty⟩ := by
  rw [groupOf, entriesOf_of_not_mem h]
  rfl

/-- A step on groups that are told owner by owner. -/
theorem place_map_groupOf {setters : List Setter} {s : Setter} {owners : List String}
    (hnodup : owners.Nodup) (hs : s.owner ∈ owners) :
    place s (owners.map (groupOf setters)) = owners.map (groupOf (setters ++ [s])) := by
  induction owners with
  | nil => simp at hs
  | cons o rest ih =>
    obtain ⟨hnot, hnodup⟩ := List.nodup_cons.mp hnodup
    rw [List.map_cons, place, List.map_cons, groupOf_concat]
    have hown : (groupOf setters o).owner = o := rfl
    rw [hown]
    by_cases ho : o = s.owner
    · subst ho
      rw [if_pos rfl, if_pos rfl]
      refine congrArg (_ :: ·) (List.map_congr_left fun o' ho' => ?_)
      rw [groupOf_concat, if_neg fun h : s.owner = o' => hnot (h ▸ ho')]
    · have ho' : ¬ s.owner = o := fun h => ho h.symm
      rw [if_neg ho, if_neg ho']
      exact congrArg (_ :: ·) (ih hnodup ((List.mem_cons.mp hs).resolve_left ho'))

/-- **The groups of a list of setters**: one for each owner, in the order in which
the owners occur first. -/
theorem toList_ofList (setters : List Setter) :
    (ofList setters).toList =
      ((setters.map Setter.owner).eraseDups).map (groupOf setters) := by
  induction setters using List.reverseRecOn with
  | nil => rfl
  | append_singleton setters s ih =>
    have hstep : ofList (setters ++ [s]) = (ofList setters).insert s := by
      rw [ofList, insertAll_append]
      rfl
    rw [hstep, toList_insert (isIndexed_ofList setters), ih, List.map_append, List.map_singleton,
      eraseDups_concat]
    have hnodup := (firstSeen_eraseDups (setters.map Setter.owner)).nodup
    split
    · next hs => exact place_map_groupOf hnodup (List.mem_eraseDups.mpr hs)
    · next hs =>
      have howners : (((setters.map Setter.owner).eraseDups).map (groupOf setters)).map
          SetterGroup.owner = (setters.map Setter.owner).eraseDups := by
        rw [List.map_map]
        exact List.map_id _
      rw [place_of_not_mem (by rw [howners]; exact fun h => hs (List.mem_eraseDups.mp h)),
        List.map_append, List.map_singleton, groupOf_concat, if_pos rfl, groupOf_of_not_mem hs]
      refine congrArg (· ++ _) (List.map_congr_left fun o ho => ?_)
      rw [groupOf_concat, if_neg fun h : s.owner = o => hs (h ▸ List.mem_eraseDups.mp ho)]

/-- The last setter of an owner with a name gives the type of that name. -/
theorem get?_groupOf (setters : List Setter) (owner name : String) :
    (groupOf setters owner).members.get? name =
      ((setters.filter fun s => s.owner = owner ∧ s.name = name).getLast?).map
        Setter.parameter := by
  unfold groupOf entriesOf
  rw [Members.get?_ofList, List.filter_map, List.filter_filter, List.getLast?_map, Option.map_map]
  refine congrArg (fun l => (List.getLast? l).map _) (List.filter_congr fun s _ => ?_)
  simp [Bool.and_comm]

end SetterGroups

/-! ## The groups of a list of elements -/

namespace Element

/-- One parameter, and a name that starts with a text. -/
def Qualifies (e : Element) (namePrefix : String) : Prop :=
  e.parameters.length = 1 ∧ namePrefix.toList <+: e.name.toList

instance (e : Element) (namePrefix : String) : Decidable (e.Qualifies namePrefix) :=
  inferInstanceAs (Decidable (_ ∧ _))

theorem isSetter_iff (e : Element) (namePrefix : String) :
    e.isSetter namePrefix = true ↔ e.Qualifies namePrefix := by
  unfold isSetter nameStartsWith Qualifies
  rw [Bool.and_eq_true, beq_iff_eq, List.isPrefixOf_iff_prefix]

/-- The setter an element would be; it has a type when the element has a
parameter. -/
def asSetter (e : Element) : Setter :=
  ⟨e.owner, e.name, e.parameters.headD ""⟩

theorem setter?_of_qualifies {e : Element} {namePrefix : String} (h : e.Qualifies namePrefix) :
    e.setter? namePrefix = some e.asSetter := by
  obtain ⟨hlen, hname⟩ := h
  obtain ⟨p, hp⟩ := List.length_eq_one_iff.mp hlen
  have hstarts : e.nameStartsWith namePrefix = true := List.isPrefixOf_iff_prefix.mpr hname
  simp [setter?, asSetter, hp, hstarts]

theorem setter?_of_not_qualifies {e : Element} {namePrefix : String}
    (h : ¬ e.Qualifies namePrefix) : e.setter? namePrefix = none := by
  rw [← Option.not_isSome_iff_eq_none, isSome_setter?, isSetter_iff]
  exact h

/-- The parameter of an element that has one is the type of its setter. -/
theorem parameters_eq_iff {e : Element} (h : e.parameters.length = 1) (type : String) :
    e.parameters = [type] ↔ e.asSetter.parameter = type := by
  obtain ⟨p, hp⟩ := List.length_eq_one_iff.mp h
  simp [asSetter, hp]

end Element

theorem accepted_eq_map (namePrefix : String) (es : List Element) :
    (sift namePrefix es).accepted =
      (es.filter fun e => e.Qualifies namePrefix).map Element.asSetter := by
  rw [sift_accepted]
  induction es with
  | nil => rfl
  | cons e es ih =>
    by_cases h : e.Qualifies namePrefix
    · simp [Element.setter?_of_qualifies h, h, ih]
    · simp [Element.setter?_of_not_qualifies h, h, ih]

theorem rejected_eq_map (namePrefix : String) (es : List Element) :
    (sift namePrefix es).rejected =
      (es.filter fun e => ¬ e.Qualifies namePrefix).map fun e => ⟨e, rejectionMessage⟩ := by
  rw [sift_rejected]
  refine congrArg (List.map _) (List.filter_congr fun e _ => ?_)
  rw [Bool.eq_iff_iff, Bool.not_eq_true', decide_eq_true_iff, ← Element.isSetter_iff,
    Bool.not_eq_true]

/-- The last element of an owner with a name. -/
def lastOf (elements : List Element) (owner name : String) : Option Element :=
  (elements.filter fun e => e.owner = owner ∧ e.name = name).getLast?

/-- The elements of a list that qualify as setters. -/
def qualifying (namePrefix : String) (es : List Element) : List Element :=
  es.filter fun e => e.Qualifies namePrefix

theorem qualifying_append (namePrefix : String) (es fs : List Element) :
    qualifying namePrefix (es ++ fs) = qualifying namePrefix es ++ qualifying namePrefix fs :=
  List.filter_append es fs

theorem qualifying_cons_of_pos {namePrefix : String} {e : Element}
    (h : e.Qualifies namePrefix) (es : List Element) :
    qualifying namePrefix (e :: es) = e :: qualifying namePrefix es :=
  List.filter_cons_of_pos (by simpa using h)

theorem qualifying_cons_of_neg {namePrefix : String} {e : Element}
    (h : ¬ e.Qualifies namePrefix) (es : List Element) :
    qualifying namePrefix (e :: es) = qualifying namePrefix es :=
  List.filter_cons_of_neg (by simpa using h)

theorem length_parameters_of_mem {namePrefix : String} {es : List Element} {e : Element}
    (h : e ∈ qualifying namePrefix es) : e.parameters.length = 1 :=
  (of_decide_eq_true (List.mem_filter.mp h).2).1

theorem lastOf_append (xs ys : List Element) (owner name : String) :
    lastOf (xs ++ ys) owner name = (lastOf ys owner name).or (lastOf xs owner name) := by
  rw [lastOf, List.filter_append, List.getLast?_append]
  rfl

theorem lastOf_singleton (e : Element) (owner name : String) :
    lastOf [e] owner name = if e.owner = owner ∧ e.name = name then some e else none := by
  rw [lastOf, List.filter_cons, List.filter_nil]
  simp only [decide_eq_true_eq]
  split <;> rfl

theorem mem_of_lastOf {es : List Element} {owner name : String} {e : Element}
    (h : lastOf es owner name = some e) : e ∈ es ∧ e.owner = owner ∧ e.name = name := by
  obtain ⟨hmem, hkey⟩ := List.mem_filter.mp (List.mem_of_getLast? h)
  exact ⟨hmem, of_decide_eq_true hkey⟩

/-- There is a last element exactly when there is one. -/
theorem isSome_lastOf_iff {es : List Element} {owner name : String} :
    (lastOf es owner name).isSome = true ↔ ∃ e ∈ es, e.owner = owner ∧ e.name = name := by
  constructor
  · intro h
    obtain ⟨e, he⟩ := Option.isSome_iff_exists.mp h
    exact ⟨e, mem_of_lastOf he⟩
  · rintro ⟨e, he, hkey⟩
    rw [Option.isSome_iff_ne_none, lastOf, Ne, List.getLast?_eq_none_iff]
    exact List.ne_nil_of_mem (List.mem_filter.mpr ⟨he, decide_eq_true hkey⟩)

/-- The members of an owner, from the elements that its setters were. -/
theorem SetterGroups.get?_groupOf_asSetter (es : List Element) (owner name : String) :
    (groupOf (es.map Element.asSetter) owner).members.get? name =
      (lastOf es owner name).map fun e => e.asSetter.parameter := by
  rw [get?_groupOf, List.filter_map, List.getLast?_map, Option.map_map]
  rfl

/-- Groups told by first and last occurrences: the owners stand in the order in
which they occur first, and a member has the type of the last element of its owner
with its name. -/
structure Grouped (elements : List Element) (groups : List SetterGroup) : Prop where
  owners : FirstSeen (elements.map Element.owner) (groups.map SetterGroup.owner)
  members : ∀ g ∈ groups, ∀ name type, g.members.get? name = some type ↔
    ∃ e, lastOf elements g.owner name = some e ∧ e.parameters = [type]

/-- **What sifting and grouping make of a list of elements.** -/
theorem grouped_ofList (namePrefix : String) (es : List Element) :
    Grouped (es.filter fun e => e.Qualifies namePrefix)
      (SetterGroups.ofList (sift namePrefix es).accepted).toList := by
  have hlength : ∀ e ∈ es.filter fun e => e.Qualifies namePrefix, e.parameters.length = 1 :=
    fun e he => length_parameters_of_mem he
  rw [SetterGroups.toList_ofList, accepted_eq_map]
  generalize es.filter (fun e => e.Qualifies namePrefix) = V at hlength ⊢
  have howners : (V.map Element.asSetter).map Setter.owner = V.map Element.owner := by
    rw [List.map_map]
    rfl
  rw [howners]
  constructor
  · rw [List.map_map]
    have hid : (V.map Element.owner).eraseDups.map
        (SetterGroup.owner ∘ SetterGroups.groupOf (V.map Element.asSetter)) =
          (V.map Element.owner).eraseDups := List.map_id _
    rw [hid]
    exact firstSeen_eraseDups _
  · intro g hg name type
    obtain ⟨owner, -, rfl⟩ := List.mem_map.mp hg
    rw [SetterGroups.get?_groupOf_asSetter, Option.map_eq_some_iff]
    have howner : (SetterGroups.groupOf (V.map Element.asSetter) owner).owner = owner := rfl
    rw [howner]
    refine exists_congr fun e => and_congr_right fun he => ?_
    exact (Element.parameters_eq_iff (hlength e (mem_of_lastOf he).1) type).symm

theorem Grouped.exists_group {elements : List Element} {groups : List SetterGroup}
    (h : Grouped elements groups) {e : Element} (he : e ∈ elements) :
    ∃ g ∈ groups, g.owner = e.owner :=
  List.mem_map.mp ((h.owners.mem_iff _).mpr (List.mem_map_of_mem he))

theorem Grouped.exists_element {elements : List Element} {groups : List SetterGroup}
    (h : Grouped elements groups) {g : SetterGroup} (hg : g ∈ groups) :
    ∃ e ∈ elements, e.owner = g.owner :=
  List.mem_map.mp ((h.owners.mem_iff _).mp (List.mem_map_of_mem hg))

/-- **The groups of a list of elements are determined** by its first and last
occurrences. -/
theorem Grouped.unique {elements : List Element} {gs hs : List SetterGroup}
    (hgs : Grouped elements gs) (hhs : Grouped elements hs) : gs = hs := by
  have howners := hgs.owners.unique hhs.owners
  have hlength : gs.length = hs.length := by
    have h := congrArg List.length howners
    rwa [List.length_map, List.length_map] at h
  refine List.ext_getElem hlength fun i hi hi' => ?_
  have howner : gs[i].owner = hs[i].owner := by
    have h := congrArg (fun owners : List String => owners[i]?) howners
    simpa [List.getElem?_map, hi, hi'] using h
  have hmembers : gs[i].members = hs[i].members := by
    apply Members.ext_get
    intro name
    apply Option.ext
    intro type
    rw [hgs.members _ (List.getElem_mem hi), hhs.members _ (List.getElem_mem hi'), howner]
  show SetterGroup.mk gs[i].owner gs[i].members = hs[i]
  rw [howner, hmembers]

end FluentBuilders
