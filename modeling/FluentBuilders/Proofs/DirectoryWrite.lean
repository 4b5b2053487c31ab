import FluentBuilders.Proofs.DirectoryStore

/-! # All-or-nothing writes

What one write to a directory does to any file system.  It succeeds exactly when the
name of the unit is plain, no file stands where a directory is needed and no directory
where the file is (`destination_all_or_nothing`).  When it fails nothing has changed:
a file on the way, or a directory at the end of it, shows that everything above is
there already, so no directory was made before the failure (`makeWay_blocked`,
`makeWay_of_view`).  Whatever else the system refuses, no file is touched and nothing
but directories on the way has appeared. -/
namespace FluentBuilders
open FilePath

namespace FileTree

/-- **Making directories touches nothing else**, however it ends. -/
theorem makeWay_kept {t : FileTree} {place : Location} {way : List Component}
    (hup : .up ∉ way) (hplace : t.view place = some .directory) (made : Bool) :
    ∀ there, (makeWay made place t way).1.view there = t.view there ∨
      (t.view there = none ∧ (makeWay made place t way).1.view there = some .directory ∧
        there <+: place ++ way.filterMap nameOf) := by
  induction way generalizing t place made with
  | nil => exact fun there => .inl rfl
  | cons c way ih =>
    have hup' : .up ∉ way := fun hm => hup (List.mem_cons_of_mem c hm)
    intro there
    cases c with
    | stay => exact ih hup' hplace made there
    | up => exact absurd List.mem_cons_self hup
    | name name =>
      have hnames : (Component.name name :: way).filterMap nameOf =
          name :: way.filterMap nameOf := rfl
      rw [hnames, List.append_cons, makeWay]
      by_cases hlong : isNameTooLong name = true
      · rw [if_pos hlong]
        exact .inl rfl
      · rw [if_neg hlong]
        cases hv : t.view (place ++ [name]) with
        | none =>
          dsimp only
          split
          · exact .inl rfl
          · -- the directory just made is on the way, and all others are as they were
            have hnew : t.view (place ++ [name]) ≠ some .directory := by rw [hv]; simp
            have hself := view_put_self hplace name empty
            rcases ih hup' hself true there with hkept | ⟨hnone, hdirectory, hon⟩
            · by_cases heq : there = place ++ [name]
              · subst heq
                exact .inr ⟨hv, hkept.trans hself, List.prefix_append _ _⟩
              · exact .inl (hkept.trans (view_put_of_ne hplace hnew isLeaf_empty heq))
            · have hne : there ≠ place ++ [name] := by
                rintro rfl
                rw [hself] at hnone
                simp at hnone
              rw [view_put_of_ne hplace hnew isLeaf_empty hne] at hnone
              exact .inr ⟨hnone, hdirectory, hon⟩
        | some node =>
          cases node with
          | file content => exact .inl rfl
          | directory => exact ih hup' hv made there

/-- **Directories that are there already** are not made again. -/
theorem makeWay_of_view {t : FileTree} {place : Location} {way : List Component}
    (hup : .up ∉ way) (hshort : ∀ n ∈ way.filterMap nameOf, isNameTooLong n = false)
    (h : t.view (place ++ way.filterMap nameOf) = some .directory) (made : Bool) :
    makeWay made place t way = (t, .ok ()) := by
  induction way generalizing place made with
  | nil => rfl
  | cons c way ih =>
    have hup' : .up ∉ way := fun hm => hup (List.mem_cons_of_mem c hm)
    cases c with
    | stay => exact ih hup' hshort h made
    | up => exact absurd List.mem_cons_self hup
    | name name =>
      have hnames : (Component.name name :: way).filterMap nameOf =
          name :: way.filterMap nameOf := rfl
      rw [hnames] at hshort h
      rw [List.append_cons] at h
      have hd := view_of_above (List.prefix_append _ _) h
      rw [makeWay, hshort name List.mem_cons_self]
      simp only [Bool.false_eq_true, if_false, hd]
      exact ih hup' (fun n hn => hshort n (List.mem_cons_of_mem name hn)) h made

/-- **A file on the way** stops the making of directories before anything is made,
since all places above a file are directories. -/
theorem makeWay_blocked {t : FileTree} {place above : Location} {way : List Component}
    {content : ByteArray} (hup : .up ∉ way)
    (hplace : t.view place = some .directory)
    (habove : above <+: place ++ way.filterMap nameOf)
    (hfile : t.view above = some (.file content)) (made : Bool) :
    ∃ cause, makeWay made place t way = (t, .error cause) := by
  -- the file lies further on than every directory
  have hfurther : ∀ {there : Location}, t.view there = some .directory → ¬ above <+: there := by
    intro there hthere hp
    rw [view_of_above hp hthere] at hfile
    simp at hfile
  induction way generalizing place made with
  | nil =>
    rw [List.filterMap_nil, List.append_nil] at habove
    exact absurd habove (hfurther hplace)
  | cons c way ih =>
    have hup' : .up ∉ way := fun hm => hup (List.mem_cons_of_mem c hm)
    cases c with
    | stay => exact ih hup' hplace habove made
    | up => exact absurd List.mem_cons_self hup
    | name name =>
      have hnames : (Component.name name :: way).filterMap nameOf =
          name :: way.filterMap nameOf := rfl
      rw [hnames, List.append_cons] at habove
      rw [makeWay]
      by_cases hlong : isNameTooLong name = true
      · rw [if_pos hlong]
        exact ⟨_, rfl⟩
      · rw [if_neg hlong]
        have hbelow : place ++ [name] <+: above := by
          rcases List.prefix_or_prefix_of_prefix habove
            (List.prefix_append (place ++ [name]) _) with hp | hp
          · rcases List.prefix_concat_iff.mp hp with rfl | hp
            · exact List.prefix_refl _
            · exact absurd hp (hfurther hplace)
          · exact hp
        cases hv : t.view (place ++ [name]) with
        | none =>
          -- below a place where nothing is there is no file
          obtain ⟨rest, rfl⟩ := hbelow
          by_cases hrest : rest = []
          · rw [hrest, List.append_nil, hv] at hfile
            simp at hfile
          · rw [view_below_none hrest (by rw [hv]; simp)] at hfile
            simp at hfile
        | some node =>
          cases node with
          | file content' => exact ⟨_, rfl⟩
          | directory => exact ih hup' hv habove made

end FileTree

namespace FileSystem

/-- Making directories touches nothing but places on the way to them. -/
theorem makeDirectories_kept {s : FileSystem} {path : String} (hpath : Descends path)
    (hready : s.IsReady) (there : Location) :
    (s.makeDirectories path).1.tree.view there = s.tree.view there ∨
      (s.tree.view there = none ∧
        (s.makeDirectories path).1.tree.view there = some .directory ∧
          there <+: s.placeOf path) := by
  unfold makeDirectories
  split
  · exact .inl rfl
  · exact FileTree.makeWay_kept hpath (view_start hready path) false there

theorem makeDirectories_isReady {s : FileSystem} {path : String} (hpath : Descends path)
    (hready : s.IsReady) : (s.makeDirectories path).1.IsReady := by
  have hkept : ∀ there, s.tree.view there = some .directory →
      (s.makeDirectories path).1.tree.view there = some .directory := by
    intro there hthere
    rcases makeDirectories_kept hpath hready there with h | ⟨h, _⟩
    · exact h.trans hthere
    · rw [hthere] at h
      simp at h
  have hworkplace : (s.makeDirectories path).1.workplace = s.workplace := by
    unfold makeDirectories
    split <;> rfl
  exact ⟨hkept [] hready.1, hworkplace ▸ hkept s.workplace hready.2⟩

/-- **A directory is not replaced** by a file. -/
theorem replaceFile_occupied {s : FileSystem} {directory path name : String}
    {place there : Location} {content : ByteArray} (hlocate : s.locate directory = .ok place)
    (hplace : s.tree.view place = some .directory)
    (happroach : ∀ t : FileTree, (∀ p, s.tree.view p = some .directory →
      t.view p = some .directory) →
        (⟨t, s.workplace⟩ : FileSystem).approach path = .ok (there, some (.name name)))
    (hoccupied : s.tree.view (there ++ [name]) = some .directory) :
    ∃ cause, (s.replaceFile directory path content).2 = .error cause := by
  -- the temporary file is a new entry, so the directory is still there beside it
  have hnew := FileTree.view_unusedName hplace
  have hkept : ∀ p, s.tree.view p = some .directory →
      (s.tree.put (place ++ [s.tree.unusedName place]) (.file content)).view p =
        some .directory := by
    intro p hp
    have hne : p ≠ place ++ [s.tree.unusedName place] := by
      rintro rfl
      rw [hnew] at hp
      simp at hp
    rw [FileTree.view_put_of_ne hplace (by rw [hnew]; simp) (FileTree.isLeaf_file content) hne, hp]
  have hself := FileTree.lookup_of_view_file
    (FileTree.view_put_self hplace (s.tree.unusedName place) (.file content))
  have hstaged := happroach _ hkept
  have hthere := hkept _ hoccupied
  unfold replaceFile
  split
  · exact ⟨_, rfl⟩
  · rw [hlocate]
    simp only [rename, hself, hstaged, hthere, FileTree.isDirectory]
    split
    · next renamed hrenamed =>
      split at hrenamed <;> simp at hrenamed
    · exact ⟨_, rfl⟩

end FileSystem

namespace Directory
open SourcePath FileSystem

section

variable {root : String} {packages : Location} {file : String} (hroot : IsRoot root)
  (hrow : ∀ n ∈ packages ++ [file], IsName n)

include hroot hrow

/-- A file on the way to a unit keeps it from being written, and nothing is done. -/
theorem place_blocked {s : FileSystem} {above : Location} {content : ByteArray}
    (hready : s.IsReady) (habove : above <+: s.placeOf root ++ packages)
    (hfile : s.tree.view above = some (.file content)) (unit : SourceUnit) :
    ∃ cause, place root (packages ++ [file]) unit s = ⟨s, [], .error cause⟩ := by
  have hpackage := (extends_packagePath hroot hrow).1
  rw [← placeOf_of_extends hpackage s] at habove
  obtain ⟨cause, hcause⟩ := FileTree.makeWay_blocked hpackage.descends
    (view_start hready (packagePath root (packages ++ [file]))) habove hfile false
  obtain ⟨cause', hmade⟩ : ∃ cause', s.makeDirectories (packagePath root (packages ++ [file])) =
      (s, .error cause') := by
    unfold makeDirectories
    split
    · exact ⟨_, rfl⟩
    · rw [hcause]
      exact ⟨_, rfl⟩
  exact ⟨cause', by simp only [place, hmade]⟩

/-- A directory in the place of a unit keeps it from being written, and nothing is
done. -/
theorem place_occupied {s : FileSystem} (hready : s.IsReady)
    (hadmits : Admits s root (packages ++ [file]))
    (hoccupied : s.tree.view (s.placeOf root ++ (packages ++ [file])) = some .directory)
    (unit : SourceUnit) :
    ∃ cause, place root (packages ++ [file]) unit s = ⟨s, [], .error cause⟩ := by
  have hpackage := (extends_packagePath hroot hrow).1
  have hplace := placeOf_of_extends hpackage s
  rw [← List.append_assoc] at hoccupied
  -- what is above a directory is there already
  have hdirectory := FileTree.view_of_above (List.prefix_append _ _) hoccupied
  have hthere : s.tree.view (s.placeOf (packagePath root (packages ++ [file]))) =
      some .directory := hplace.symm ▸ hdirectory
  have hmade : s.makeDirectories (packagePath root (packages ++ [file])) = (s, .ok ()) := by
    rw [makeDirectories, hadmits.package]
    simp only [FileTree.makeWay_of_view hpackage.descends (hadmits.package_names hroot hrow) hthere]
  have hlocate := locate_of_view hpackage.descends (hadmits.package_names hroot hrow) hthere
  rw [hplace] at hlocate
  obtain ⟨cause, hcause⟩ : ∃ cause, (s.replaceFile (packagePath root (packages ++ [file]))
      (join root (text (packages ++ [file]))) unit.text.toByteArray).2 = .error cause :=
    replaceFile_occupied hlocate hdirectory (fun t ht =>
      approach_path (s := ⟨t, s.workplace⟩) hroot hrow hadmits (ht _ hdirectory)) hoccupied
  have hsame : (s.replaceFile (packagePath root (packages ++ [file]))
      (join root (text (packages ++ [file]))) unit.text.toByteArray).1 = s :=
    replaceFile_error hready (Prod.ext rfl hcause)
  exact ⟨cause, by simp only [place, hmade, hcause, hsame]⟩

/-- However the writing of a unit fails, every place is as it was or a directory made on
the way. -/
theorem place_error_kept {s : FileSystem} {unit : SourceUnit} {cause : FileError}
    (hready : s.IsReady)
    (h : (place root (packages ++ [file]) unit s).outcome = .error cause) (there : Location) :
    (place root (packages ++ [file]) unit s).state.tree.view there = s.tree.view there ∨
      (s.tree.view there = none ∧
        (place root (packages ++ [file]) unit s).state.tree.view there = some .directory ∧
          there <+: s.placeOf root ++ packages) := by
  have hpackage := (extends_packagePath hroot hrow).1
  have hkept := makeDirectories_kept hpackage.descends hready there
  rw [placeOf_of_extends hpackage s] at hkept
  suffices hstate : (place root (packages ++ [file]) unit s).state =
      (s.makeDirectories (packagePath root (packages ++ [file]))).1 by
    rw [hstate]
    exact hkept
  have hmadeReady := makeDirectories_isReady hpackage.descends hready
  unfold place at h ⊢
  dsimp only at h ⊢
  split
  · rfl
  · next hok =>
    rw [hok] at h
    dsimp only at h
    split
    · next cause' hcause' => exact replaceFile_error hmadeReady (Prod.ext rfl hcause')
    · next hreplaced =>
      rw [hreplaced] at h
      simp at h

end

/-! ## Any write -/

/-- A directory that was missing on the way to a unit and is there now. -/
structure MadeFor (root target : String) (before after : FileSystem) (there : Location) :
    Prop where
  onWay : ∃ path, pathOf root target = .ok path ∧ there <+: before.placeOf path ∧
    there ≠ before.placeOf path
  missing : before.tree.view there = none
  made : after.tree.view there = some .directory

/-- Nothing is in the way of a unit: its name is plain, no file stands where a directory
is needed, and no directory where the file is. -/
structure IsClear (root target : String) (s : FileSystem) : Prop where
  plain : Plain target
  way : ∀ path, pathOf root target = .ok path → ∀ above, above <+: s.placeOf path →
    above ≠ s.placeOf path → ∀ content, s.tree.view above ≠ some (.file content)
  vacant : ∀ path, pathOf root target = .ok path →
    s.tree.view (s.placeOf path) ≠ some .directory

theorem pathOf_of_components {root target : String} {row : List String}
    (h : components target = .ok row) : pathOf root target = .ok (join root (text row)) := by
  rw [pathOf, h]
  rfl

/-- The places above the last name of a place. -/
theorem prefix_concat_ne_iff {place above : Location} {file : String} :
    above <+: place ++ [file] ∧ above ≠ place ++ [file] ↔ above <+: place := by
  constructor
  · rintro ⟨hp, hne⟩
    exact (List.prefix_concat_iff.mp hp).resolve_left hne
  · intro hp
    refine ⟨hp.trans (List.prefix_append _ _), ?_⟩
    rintro rfl
    have hlength := hp.length_le
    simp only [List.length_append, List.length_singleton] at hlength
    omega

section

variable {root : String} {s : FileSystem} {unit : SourceUnit} (hroot : IsRoot root)
  (hready : s.IsReady)

include hroot

/-- Where a unit with a path lies, by the names of its path. -/
theorem exists_place {target : String} (hplain : Plain target) (s : FileSystem) :
    ∃ packages file, components target = .ok (packages ++ [file]) ∧
      (∀ n ∈ packages ++ [file], IsName n) ∧ ∀ path, pathOf root target = .ok path →
        s.placeOf path = s.placeOf root ++ packages ++ [file] := by
  obtain ⟨row, hcomponents⟩ := exists_components_of_plain hplain
  obtain ⟨packages, file, rfl, hrow, -, -⟩ := components_shape hcomponents
  refine ⟨packages, file, hcomponents, hrow, fun path hpath => ?_⟩
  rw [pathOf_of_components hcomponents] at hpath
  rw [← Except.ok.inj hpath, placeOf_of_extends (extends_join hroot hrow), List.append_assoc]

include hready

/-- However a write fails, nothing has changed but directories on the way. -/
theorem destination_error_kept {cause : FileError}
    (h : (destination root s unit).outcome = .error cause) (there : Location) :
    (destination root s unit).state.tree.view there = s.tree.view there ∨
      MadeFor root unit.target s (destination root s unit).state there := by
  by_cases hplain : Plain unit.target
  · obtain ⟨packages, file, hcomponents, hrow, hplace⟩ := exists_place hroot hplain s
    have hpath : pathOf root unit.target = _ := pathOf_of_components hcomponents
    have hanswer : destination root s unit = place root (packages ++ [file]) unit s := by
      simp only [destination, hcomponents]
    rw [hanswer] at h ⊢
    refine (place_error_kept hroot hrow hready h there).imp_right ?_
    rintro ⟨hmissing, hnow, hthere⟩
    exact ⟨⟨_, hpath, hplace _ hpath ▸ prefix_concat_ne_iff.mpr hthere⟩, hmissing, hnow⟩
  · obtain ⟨segment, hrefused⟩ := destination_of_not_plain hplain root s
    rw [hrefused]
    exact .inl rfl

variable (hadmits : ∀ row, components unit.target = .ok row → Admits s root row)

include hadmits

/-- A unit is refused without a trace when something is in its way. -/
theorem destination_of_not_isClear (h : ¬ IsClear root unit.target s) :
    ∃ cause, destination root s unit = ⟨s, [], .error cause⟩ := by
  by_cases hplain : Plain unit.target
  · obtain ⟨packages, file, hcomponents, hrow, hplace⟩ := exists_place hroot hplain s
    have hanswer : destination root s unit = place root (packages ++ [file]) unit s := by
      simp only [destination, hcomponents]
    rw [hanswer]
    by_cases hway : ∀ above, above <+: s.placeOf root ++ packages → ∀ content,
        s.tree.view above ≠ some (.file content)
    · -- the way is clear, so the place is not
      have hoccupied : s.tree.view (s.placeOf root ++ (packages ++ [file])) =
          some .directory := by
        by_contra hvacant
        rw [← List.append_assoc] at hvacant
        refine h ⟨hplain, fun path hpath above hp hne => ?_, fun path hpath => ?_⟩
        · rw [hplace path hpath] at hp hne
          exact hway above (prefix_concat_ne_iff.mp ⟨hp, hne⟩)
        · rw [hplace path hpath]
          exact hvacant
      exact place_occupied hroot hrow hready (hadmits _ hcomponents) hoccupied unit
    · simp only [not_forall, not_not] at hway
      obtain ⟨above, habove, content, hfile⟩ := hway
      exact place_blocked hroot hrow hready habove hfile unit
  · obtain ⟨segment, hrefused⟩ := destination_of_not_plain hplain root s
    exact ⟨_, hrefused⟩

/-- A unit is written when nothing is in its way, and nothing changes but its file and
the directories on the way to it. -/
theorem destination_of_isClear (h : IsClear root unit.target s) :
    (destination root s unit).outcome = .ok () ∧ ∃ path, pathOf root unit.target = .ok path ∧
      (destination root s unit).state.tree.view (s.placeOf path) =
        some (.file unit.text.toByteArray) ∧
      ∀ there, there ≠ s.placeOf path →
        (destination root s unit).state.tree.view there = s.tree.view there ∨
          MadeFor root unit.target s (destination root s unit).state there := by
  obtain ⟨packages, file, hcomponents, hrow, hplace⟩ := exists_place hroot h.plain s
  have hpath : pathOf root unit.target = _ := pathOf_of_components hcomponents
  have hfree : ∀ above, above <+: s.placeOf root ++ packages → ∀ content,
      s.tree.view above ≠ some (.file content) := by
    intro above habove
    have hon : above <+: s.placeOf root ++ packages ++ [file] ∧
        above ≠ s.placeOf root ++ packages ++ [file] := prefix_concat_ne_iff.mpr habove
    rw [← hplace _ hpath] at hon
    exact h.way _ hpath above hon.1 hon.2
  have hvacant := h.vacant _ hpath
  rw [hplace _ hpath, List.append_assoc] at hvacant
  obtain ⟨hok, hwrote⟩ := wrote_place hroot hrow hready (hadmits _ hcomponents) hfree hvacant unit
  have hanswer : destination root s unit = place root (packages ++ [file]) unit s := by
    simp only [destination, hcomponents]
  rw [hanswer]
  refine ⟨hok, _, hpath, ?_, fun there hne => ?_⟩
  · rw [hplace _ hpath, List.append_assoc]
    exact hwrote.written
  · rw [hplace _ hpath, List.append_assoc] at hne
    by_cases hon : there <+: s.placeOf root ++ packages
    · -- what was on the way is a directory or was missing
      have hnow := hwrote.way there hon
      cases hv : s.tree.view there with
      | none =>
        exact .inr ⟨⟨_, hpath, hplace _ hpath ▸ prefix_concat_ne_iff.mpr hon⟩, hv, hnow⟩
      | some node =>
        cases node with
        | file content => exact absurd hv (hfree there hon content)
        | directory => exact .inl hnow
    · exact .inl (hwrote.elsewhere there hne hon)

end

/-- **A write does all or nothing.**  A unit is written exactly when nothing is in its
way.  Its file then holds its text, and every other place is as it was or a directory
made on the way; when it is refused nothing has changed.  Even when the system refuses a
name or a length, no file is touched. -/
theorem destination_all_or_nothing {root : String} {s : FileSystem} {unit : SourceUnit}
    (hroot : IsRoot root) (hready : s.IsReady) :
    let answer := destination root s unit
    (¬ Plain unit.target → ∃ segment, answer =
      ⟨s, [], .error (.path (.notPlain unit.target segment))⟩) ∧
    (∀ cause, answer.outcome = .error cause → ∀ there,
      answer.state.tree.view there = s.tree.view there ∨
        MadeFor root unit.target s answer.state there) ∧
    ((∀ row, components unit.target = .ok row → Admits s root row) →
      (answer.outcome = .ok () ↔ IsClear root unit.target s) ∧
      (answer.outcome = .ok () → ∃ path, pathOf root unit.target = .ok path ∧
        answer.state.tree.view (s.placeOf path) = some (.file unit.text.toByteArray) ∧
        ∀ there, there ≠ s.placeOf path →
          answer.state.tree.view there = s.tree.view there ∨
            MadeFor root unit.target s answer.state there) ∧
      ∀ cause, answer.outcome = .error cause → answer.state = s) := by
  refine ⟨fun hplain => destination_of_not_plain hplain root s,
    fun cause hcause => destination_error_kept hroot hready hcause, fun hadmits => ?_⟩
  by_cases hclear : IsClear root unit.target s
  · obtain ⟨hok, hwritten⟩ := destination_of_isClear hroot hready hadmits hclear
    refine ⟨iff_of_true hok hclear, fun _ => hwritten, fun cause hcause => ?_⟩
    rw [hok] at hcause
    simp at hcause
  · obtain ⟨cause, hrefused⟩ := destination_of_not_isClear hroot hready hadmits hclear
    rw [hrefused]
    refine ⟨iff_of_false (by simp) hclear, fun hok => by simp at hok, fun _ _ => rfl⟩

/-- Below a root with a file `b` and an older `a.java`, a unit of the package `b` is
refused without a trace, and a unit `a` replaces the older one. -/
theorem destination_all_or_nothing_two_units :
    let s : FileSystem := ⟨.directory [("w", .directory [("out", .directory
      [("a.java", .file "old".toByteArray), ("b", .file "".toByteArray)])])], ["w"]⟩
    IsRoot "out" ∧ s.IsReady ∧
      (∀ row, components "b.C" = .ok row → Admits s "out" row) ∧
      (∀ row, components "a" = .ok row → Admits s "out" row) ∧
      (destination "out" s ⟨"b.C", "text"⟩).outcome ≠ .ok () ∧
      (destination "out" s ⟨"a", "new"⟩).outcome = .ok () ∧
      (destination "out" s ⟨"a", "new"⟩).state.tree.view ["w", "out", "a.java"] =
        some (.file "new".toByteArray) := by
  intro s
  have hroot : IsRoot "out" := ⟨by decide, by decide⟩
  have hready : s.IsReady := ⟨rfl, rfl⟩
  have hadmitsPackage : ∀ row, components "b.C" = .ok row → Admits s "out" row := by
    intro row hrow
    obtain rfl : ["b", "C.java"] = row := Except.ok.inj hrow
    exact ⟨rfl, rfl, by decide, by decide⟩
  have hadmitsAlone : ∀ row, components "a" = .ok row → Admits s "out" row := by
    intro row hrow
    obtain rfl : ["a.java"] = row := Except.ok.inj hrow
    exact ⟨rfl, rfl, by decide, by decide⟩
  have hpackagePlace : s.placeOf "out/b/C.java" = ["w", "out", "b", "C.java"] := by decide
  have halonePlace : s.placeOf "out/a.java" = ["w", "out", "a.java"] := by decide
  have hblocked : ¬ IsClear "out" "b.C" s := by
    intro h
    refine h.way "out/b/C.java" rfl ["w", "out", "b"] ?_ ?_ "".toByteArray rfl
    · rw [hpackagePlace]
      decide
    · rw [hpackagePlace]
      decide
  have hclear : IsClear "out" "a" s := by
    refine ⟨by decide, fun path hpath above hp hne content hfile => ?_, fun path hpath => ?_⟩
    · obtain rfl : "out/a.java" = path := Except.ok.inj hpath
      rw [halonePlace] at hp hne
      have hon : above <+: ["w", "out"] := prefix_concat_ne_iff.mp ⟨hp, hne⟩
      rw [FileTree.view_of_above hon rfl] at hfile
      simp at hfile
    · obtain rfl : "out/a.java" = path := Except.ok.inj hpath
      rw [halonePlace]
      intro hview
      injection hview with hview
      cases hview
  obtain ⟨_, _, hpackage⟩ := @destination_all_or_nothing "out" s ⟨"b.C", "text"⟩ hroot hready
  obtain ⟨_, _, halone⟩ := @destination_all_or_nothing "out" s ⟨"a", "new"⟩ hroot hready
  obtain ⟨hrefused, _, _⟩ := hpackage hadmitsPackage
  obtain ⟨htaken, hwritten, _⟩ := halone hadmitsAlone
  have hok := htaken.mpr hclear
  obtain ⟨path, hpath, hnow, _⟩ := hwritten hok
  obtain rfl : "out/a.java" = path := Except.ok.inj hpath
  rw [halonePlace] at hnow
  exact ⟨hroot, hready, hadmitsPackage, hadmitsAlone, fun h => hblocked (hrefused.mp h), hok, hnow⟩

end Directory
end FluentBuilders
