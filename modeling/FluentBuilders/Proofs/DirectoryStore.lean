import FluentBuilders.Proofs.Jobs
import FluentBuilders.Proofs.UnitPath
import FluentBuilders.Proofs.Ways

/-! # A directory as a store

A directory that was empty at the start holds a file for each unit that a store
given the same units would hold, and no other (`Mirrors`).  One write keeps this up
because no unit has its file where another one needs a directory: directories below
the root never have a dot in their names, and files always do (`mirrors_write`).  It
then holds after any number of writes and rounds (`run_refines_store`). -/
namespace FluentBuilders
open FilePath

namespace Directory
open SourcePath FileSystem

/-! ## One write -/

/-- The system takes the paths of a unit, and of the temporary file next to it, as
they are: no name and no path is too long or holds the character that ends paths. -/
structure Admits (s : FileSystem) (root : String) (row : List String) : Prop where
  package : check (packagePath root row) = .ok ()
  path : check (join root (text row)) = .ok ()
  names : ∀ n ∈ names (join root (text row)), isNameTooLong n = false
  temporary : s.isTemporaryTooLong (packagePath root row) = false

/-- What writing a file below a base changes: the file is there, all places on the
way to it are directories, and nothing else is different. -/
structure Wrote (base packages : Location) (file : String) (content : ByteArray)
    (before after : FileSystem) : Prop where
  workplace : after.workplace = before.workplace
  written : after.tree.view (base ++ (packages ++ [file])) = some (.file content)
  way : ∀ there, there <+: base ++ packages → after.tree.view there = some .directory
  elsewhere : ∀ there, there ≠ base ++ (packages ++ [file]) → ¬ there <+: base ++ packages →
    after.tree.view there = before.tree.view there

theorem Admits.of_workplace {s s' : FileSystem} {root : String} {row : List String}
    (h : Admits s root row) (hw : s'.workplace = s.workplace) : Admits s' root row := by
  obtain ⟨tree, workplace⟩ := s
  obtain ⟨tree', workplace'⟩ := s'
  obtain rfl : workplace' = workplace := hw
  exact ⟨h.package, h.path, h.names, h.temporary⟩

theorem placeOf_of_workplace {s s' : FileSystem} (hw : s'.workplace = s.workplace)
    (path : String) : s'.placeOf path = s.placeOf path := by
  rw [placeOf, placeOf, start, start, hw]

theorem placeOf_of_extends {root path : String} {below : Location} (h : Extends root path below)
    (s : FileSystem) : s.placeOf path = s.placeOf root ++ below := by
  rw [placeOf, placeOf, start, start, h.isAbsolute_eq, h.names_eq, List.append_assoc]

section

variable {root : String} {packages : Location} {file : String} (hroot : IsRoot root)
  (hrow : ∀ n ∈ packages ++ [file], IsName n)

include hroot hrow

/-- The names on the way to the directory of a unit are on the way to its file. -/
theorem Admits.package_names {s : FileSystem} (h : Admits s root (packages ++ [file])) :
    ∀ n ∈ FilePath.names (packagePath root (packages ++ [file])), isNameTooLong n = false := by
  intro n hn
  rw [(extends_packagePath hroot hrow).1.names_eq] at hn
  apply h.names n
  rw [(extends_join hroot hrow).names_eq, ← List.append_assoc]
  exact List.mem_append_left _ hn

/-- **Making the directories of a unit** where no file is in the way. -/
theorem makeDirectories_packagePath {s : FileSystem} (hready : s.IsReady)
    (hadmits : Admits s root (packages ++ [file]))
    (hway : ∀ above, above <+: s.placeOf root ++ packages → ∀ content,
      s.tree.view above ≠ some (.file content)) :
    ∃ t, s.makeDirectories (packagePath root (packages ++ [file])) =
        (⟨t, s.workplace⟩, .ok ()) ∧
      (∀ there, there <+: s.placeOf root ++ packages → t.view there = some .directory) ∧
      ∀ there, ¬ there <+: s.placeOf root ++ packages → t.view there = s.tree.view there := by
  obtain ⟨hpackage, hsettles⟩ := extends_packagePath hroot hrow
  have hplace := placeOf_of_extends hpackage s
  rw [← hplace] at hway ⊢
  obtain ⟨t, hmake, hon, hoff⟩ := FileTree.makeWay_ok hpackage.descends
    (hadmits.package_names hroot hrow) hsettles
    (view_start hready (packagePath root (packages ++ [file]))) hway false
  refine ⟨t, ?_, hon, hoff⟩
  rw [makeDirectories, hadmits.package]
  simp only [hmake]

/-- The file of a unit is looked for in the directory of the unit. -/
theorem approach_path {s s' : FileSystem} (hadmits : Admits s' root (packages ++ [file]))
    (h : s.tree.view (s.placeOf root ++ packages) = some .directory) :
    s.approach (join root (text (packages ++ [file]))) =
      .ok (s.placeOf root ++ packages, some (.name file)) := by
  have hpath := extends_join hroot hrow
  have hcomponents : FilePath.components (join root (text (packages ++ [file]))) =
      (FilePath.components root ++ packages.map .name) ++ [.name file] := by
    rw [components_join, components_text hrow, List.map_append, List.append_assoc]
    rfl
  have hlead : (FilePath.components root ++ packages.map Component.name).filterMap nameOf =
      FilePath.names root ++ packages := by
    rw [List.filterMap_append, List.filterMap_map]
    exact congrArg (FilePath.names root ++ ·) List.filterMap_some
  have hwhere : s.start (join root (text (packages ++ [file]))) ++
      (FilePath.components root ++ packages.map Component.name).filterMap nameOf =
        s.placeOf root ++ packages := by
    rw [hlead, start, hpath.isAbsolute_eq, placeOf, start, List.append_assoc]
  rw [← hwhere] at h ⊢
  exact approach_of_view hadmits.path hcomponents hpath.descends hadmits.names h

/-- **Replacing the file of a unit** in its directory. -/
theorem replaceFile_path {s : FileSystem} (hadmits : Admits s root (packages ++ [file]))
    (hdirectory : s.tree.view (s.placeOf root ++ packages) = some .directory)
    (hvacant : s.tree.view (s.placeOf root ++ packages ++ [file]) ≠ some .directory)
    (content : ByteArray) :
    s.replaceFile (packagePath root (packages ++ [file]))
        (join root (text (packages ++ [file]))) content =
      (⟨s.tree.put (s.placeOf root ++ packages ++ [file]) (.file content), s.workplace⟩,
        .ok ()) := by
  have hpackage := (extends_packagePath hroot hrow).1
  have hplace := placeOf_of_extends hpackage s
  refine replaceFile_ok hadmits.temporary ?_ hdirectory ?_ ?_ hvacant
  · exact hplace ▸ locate_of_view hpackage.descends (hadmits.package_names hroot hrow)
      (hplace.symm ▸ hdirectory)
  · -- the temporary file takes no directory away
    intro t ht
    exact approach_path (s := ⟨t, s.workplace⟩) hroot hrow hadmits (ht _ hdirectory)
  · apply hadmits.names file
    rw [(extends_join hroot hrow).names_eq]
    exact List.mem_append_right _ (List.mem_append_right _ List.mem_cons_self)

/-- **Writing a unit** where no file is in the way and no directory in its place. -/
theorem wrote_place {s : FileSystem} (hready : s.IsReady)
    (hadmits : Admits s root (packages ++ [file]))
    (hway : ∀ above, above <+: s.placeOf root ++ packages → ∀ content,
      s.tree.view above ≠ some (.file content))
    (hfree : s.tree.view (s.placeOf root ++ (packages ++ [file])) ≠ some .directory)
    (unit : SourceUnit) :
    (place root (packages ++ [file]) unit s).outcome = .ok () ∧
      Wrote (s.placeOf root) packages file unit.text.toByteArray s
        (place root (packages ++ [file]) unit s).state := by
  obtain ⟨t, hmade, hon, hoff⟩ := makeDirectories_packagePath hroot hrow hready hadmits hway
  have hdirectory := hon _ (List.prefix_refl _)
  -- the file lies beyond the directories that were made
  have hbeyond : ¬ s.placeOf root ++ (packages ++ [file]) <+: s.placeOf root ++ packages := by
    intro h
    have hlength := h.length_le
    simp only [List.length_append, List.length_singleton] at hlength
    omega
  have hvacant : t.view (s.placeOf root ++ packages ++ [file]) ≠ some .directory := by
    rw [List.append_assoc, hoff _ hbeyond]
    exact hfree
  have hreplaced := replaceFile_path (s := ⟨t, s.workplace⟩) hroot hrow
    (hadmits.of_workplace rfl) hdirectory hvacant unit.text.toByteArray
  have hplaced : place root (packages ++ [file]) unit s =
      ⟨⟨t.put (s.placeOf root ++ packages ++ [file]) (.file unit.text.toByteArray), s.workplace⟩,
        [.written (join root (text (packages ++ [file]))) unit.text.utf8ByteSize], .ok ()⟩ := by
    simp only [place, hmade, hreplaced]
    rfl
  rw [hplaced]
  have hother : ∀ there, there ≠ s.placeOf root ++ packages ++ [file] →
      (t.put (s.placeOf root ++ packages ++ [file]) (.file unit.text.toByteArray)).view there =
        t.view there :=
    fun there hne => FileTree.view_put_of_ne hdirectory hvacant (FileTree.isLeaf_file _) hne
  refine ⟨rfl, rfl, ?_, fun there hthere => ?_, fun there hne hoffway => ?_⟩
  · rw [← List.append_assoc]
    exact FileTree.view_put_self hdirectory file _
  · have hne : there ≠ s.placeOf root ++ packages ++ [file] := by
      rintro rfl
      rw [List.append_assoc] at hthere
      exact hbeyond hthere
    exact (hother there hne).trans (hon there hthere)
  · rw [← List.append_assoc] at hne
    exact (hother there hne).trans (hoff there hoffway)

end

/-! ## The files below a root -/

/-- A file system that holds below a base the units of a store, each in a file at its
place, and otherwise nothing but directories without a dot in their names. -/
structure Mirrors (base : Location) (s : FileSystem) (store : Store) : Prop where
  ready : s.IsReady
  above : ∀ place, place <+: base → ∀ content, s.tree.view place ≠ some (.file content)
  files : ∀ below content, s.tree.view (base ++ below) = some (.file content) ↔
    ∃ target unit, store.get? target = some unit ∧ components target = .ok below ∧
      content = unit.text.toByteArray
  directories : ∀ below, s.tree.view (base ++ below) = some .directory →
    ∀ n ∈ below, '.' ∉ n.toList

/-- The files of units are no directories of packages: some name holds a dot. -/
theorem dot_mem_of_components {target : String} {row : List String}
    (h : components target = .ok row) : ∃ n ∈ row, '.' ∈ n.toList := by
  obtain ⟨packages, file, rfl, -, -, hdot⟩ := components_shape h
  exact ⟨file, List.mem_append_right _ List.mem_cons_self, hdot⟩

theorem Mirrors.not_file_on_way {base packages : Location} {s : FileSystem} {store : Store}
    (h : Mirrors base s store) (hpackages : ∀ n ∈ packages, '.' ∉ n.toList) :
    ∀ above, above <+: base ++ packages → ∀ content,
      s.tree.view above ≠ some (.file content) := by
  intro above habove content hview
  rcases List.prefix_or_prefix_of_prefix habove (List.prefix_append base packages) with
    hbase | ⟨below, rfl⟩
  · exact h.above above hbase content hview
  · -- a file below the base belongs to a unit, and so has a dot in its name
    have hbelow := (List.prefix_append_right_inj base).mp habove
    obtain ⟨target, _, _, htarget, _⟩ := (h.files below content).mp hview
    obtain ⟨n, hn, hdot⟩ := dot_mem_of_components htarget
    exact hpackages n (hbelow.subset hn) hdot

/-- Below the base a write shows at the file, on the way to it and nowhere else. -/
theorem Wrote.view_below {base packages : Location} {file : String} {content : ByteArray}
    {s s' : FileSystem} (h : Wrote base packages file content s s') (below : Location) :
    (below = packages ++ [file] ∧ s'.tree.view (base ++ below) = some (.file content)) ∨
    (below <+: packages ∧ s'.tree.view (base ++ below) = some .directory) ∨
    (below ≠ packages ++ [file] ∧ s'.tree.view (base ++ below) = s.tree.view (base ++ below)) := by
  by_cases hself : below = packages ++ [file]
  · subst hself
    exact .inl ⟨rfl, h.written⟩
  · by_cases hon : below <+: packages
    · exact .inr (.inl ⟨hon, h.way _ ((List.prefix_append_right_inj base).mpr hon)⟩)
    · refine .inr (.inr ⟨hself, h.elsewhere _ (fun heq => ?_) fun hp => ?_⟩)
      · exact hself (List.append_cancel_left heq)
      · exact hon ((List.prefix_append_right_inj base).mp hp)

/-- What a store has for a path after a unit with that path was written to it. -/
theorem get?_write_self {store : Store} {unit found : SourceUnit} {target : String}
    {row : List String} (hunit : components unit.target = .ok row)
    (htarget : components target = .ok row) :
    (store.write unit).get? target = some found ↔ found = unit := by
  rw [components_injective htarget hunit, Store.get?_write, if_pos rfl, Option.some_inj]
  exact eq_comm

/-- What a store has for any other path. -/
theorem get?_write_other {store : Store} {unit : SourceUnit} {target : String}
    {row row' : List String} (hunit : components unit.target = .ok row)
    (htarget : components target = .ok row') (hne : row' ≠ row) :
    (store.write unit).get? target = store.get? target := by
  rw [Store.get?_write, if_neg]
  rintro rfl
  exact hne (Except.ok.inj (htarget.symm.trans hunit))

/-- What writing a unit changes is what writing it to the store changes. -/
theorem Mirrors.write {base packages : Location} {file : String} {s s' : FileSystem}
    {store : Store} {unit : SourceUnit} (h : Mirrors base s store)
    (hcomponents : components unit.target = .ok (packages ++ [file]))
    (hpackages : ∀ n ∈ packages, '.' ∉ n.toList)
    (hfree : s.tree.view (base ++ (packages ++ [file])) ≠ some .directory)
    (hw : Wrote base packages file unit.text.toByteArray s s') :
    Mirrors base s' (store.write unit) := by
  have hnodots : ∀ below, below <+: packages → ∀ n ∈ below, '.' ∉ n.toList :=
    fun below hbelow n hn => hpackages n (hbelow.subset hn)
  refine ⟨⟨hw.way [] List.nil_prefix, ?_⟩, fun place hplace content hfile => ?_,
    fun below content => ?_, fun below hview => ?_⟩
  · -- the workplace was a directory, so it is not where the file is now
    rw [hw.workplace]
    by_cases hon : s.workplace <+: base ++ packages
    · exact hw.way _ hon
    · rw [hw.elsewhere _ (fun heq => hfree (heq ▸ h.ready.2)) hon]
      exact h.ready.2
  · rw [hw.way place (hplace.trans (List.prefix_append _ _))] at hfile
    simp at hfile
  · rcases hw.view_below below with ⟨rfl, hview⟩ | ⟨hon, hview⟩ | ⟨hne, hview⟩
    · rw [hview]
      constructor
      · intro heq
        injection heq with heq
        injection heq with heq
        exact ⟨unit.target, unit, (get?_write_self hcomponents hcomponents).mpr rfl, hcomponents,
          heq.symm⟩
      · rintro ⟨target, found, hfound, htarget, rfl⟩
        rw [(get?_write_self hcomponents htarget).mp hfound]
    · -- no unit has its file where a directory of the package is
      rw [hview]
      refine ⟨fun heq => by simp at heq, fun ⟨target, _, _, htarget, _⟩ => ?_⟩
      obtain ⟨n, hn, hdot⟩ := dot_mem_of_components htarget
      exact absurd hdot (hnodots below hon n hn)
    · rw [hview, h.files below content]
      refine exists_congr fun target => exists_congr fun found => ?_
      refine and_congr_left fun ⟨htarget, _⟩ => ?_
      rw [get?_write_other hcomponents htarget hne]
  · rcases hw.view_below below with ⟨rfl, hview'⟩ | ⟨hon, _⟩ | ⟨_, hview'⟩
    · rw [hview'] at hview
      simp at hview
    · exact hnodots below hon
    · rw [hview'] at hview
      exact h.directories below hview

/-- **One write keeps the directory a mirror of the store**, whatever was written
before. -/
theorem mirrors_write {root : String} {s : FileSystem} {store : Store} {unit : SourceUnit}
    {row : List String} (hroot : IsRoot root) (h : Mirrors (s.placeOf root) s store)
    (hcomponents : components unit.target = .ok row) (hadmits : Admits s root row) :
    (destination root s unit).outcome = .ok () ∧
      (destination root s unit).state.workplace = s.workplace ∧
      Mirrors (s.placeOf root) (destination root s unit).state (store.write unit) := by
  obtain ⟨packages, file, rfl, hrow, hnodots, hdot⟩ := components_shape hcomponents
  have hfree : s.tree.view (s.placeOf root ++ (packages ++ [file])) ≠ some .directory :=
    fun hview => h.directories _ hview file (List.mem_append_right _ List.mem_cons_self) hdot
  obtain ⟨hok, hwrote⟩ := wrote_place hroot hrow h.ready hadmits (h.not_file_on_way hnodots)
    hfree unit
  have hdestination : destination root s unit = place root (packages ++ [file]) unit s := by
    simp only [destination, hcomponents]
  rw [hdestination]
  exact ⟨hok, hwrote.workplace, h.write hcomponents hnodots hfree hwrote⟩

/-- A unit whose name is not plain is refused, and nothing is done. -/
theorem destination_of_not_plain {unit : SourceUnit} (h : ¬ Plain unit.target) (root : String)
    (s : FileSystem) : ∃ segment, destination root s unit =
      ⟨s, [], .error (.path (.notPlain unit.target segment))⟩ := by
  obtain ⟨segment, _, _, herror⟩ := components_of_not_plain h
  exact ⟨String.ofList segment, destination_of_path_error herror⟩

/-! ## Runs -/

/-- Nothing is at a place but perhaps an empty directory, and no file is on the way
to it. -/
structure IsFree (s : FileSystem) (place : Location) : Prop where
  above : ∀ there, there <+: place → ∀ content, s.tree.view there ≠ some (.file content)
  below : ∀ rest, rest ≠ [] → s.tree.view (place ++ rest) = none

theorem isFree_fresh (workplace below : Location) :
    IsFree (fresh workplace) (workplace ++ below) := by
  refine ⟨fun there _ content h => ?_, fun rest hrest => ?_⟩
  · rw [view_fresh] at h
    split at h <;> simp at h
  · rw [view_fresh, if_neg]
    intro h
    have hlength := h.length_le
    have hpos := List.length_pos_of_ne_nil hrest
    simp only [List.length_append] at hlength
    omega

theorem mirrors_empty {base : Location} {s : FileSystem} (hready : s.IsReady)
    (hfree : IsFree s base) : Mirrors base s .empty := by
  refine ⟨hready, hfree.above, fun below content => ⟨fun h => ?_, ?_⟩, fun below h => ?_⟩
  · by_cases hbelow : below = []
    · rw [hbelow, List.append_nil] at h
      exact absurd h (hfree.above base (List.prefix_refl _) content)
    · rw [hfree.below below hbelow] at h
      simp at h
  · rintro ⟨target, unit, hunit, _⟩
    simp [Store.empty, Store.get?] at hunit
  · by_cases hbelow : below = []
    · subst hbelow
      exact List.forall_mem_nil _
    · rw [hfree.below below hbelow] at h
      simp at h

/-- **After any number of writes** the directory mirrors the store that was given
those of them whose names are plain. -/
theorem mirrors_after {root : String} {s : FileSystem} {store : Store} (hroot : IsRoot root)
    (h : Mirrors (s.placeOf root) s store) (units : List SourceUnit)
    (hadmits : ∀ unit ∈ units, ∀ row, components unit.target = .ok row → Admits s root row) :
    ((destination root).after s units).workplace = s.workplace ∧
      Mirrors (s.placeOf root) ((destination root).after s units)
        (Store.destination.after store (units.filter fun unit => Plain unit.target)) := by
  induction units generalizing s store with
  | nil => exact ⟨rfl, h⟩
  | cons unit units ih =>
    by_cases hplain : Plain unit.target
    · obtain ⟨row, hrow⟩ := exists_components_of_plain hplain
      obtain ⟨_, hworkplace, hmirrors⟩ :=
        mirrors_write hroot h hrow (hadmits unit List.mem_cons_self row hrow)
      rw [← placeOf_of_workplace hworkplace] at hmirrors ⊢
      obtain ⟨hw, hm⟩ := ih hmirrors fun unit' hunit' row' hrow' =>
        (hadmits unit' (List.mem_cons_of_mem unit hunit') row' hrow').of_workplace hworkplace
      rw [List.filter_cons_of_pos (by simpa using hplain)]
      exact ⟨hw.trans hworkplace, hm⟩
    · obtain ⟨segment, hrefused⟩ := destination_of_not_plain hplain root s
      rw [List.filter_cons_of_neg (by simpa using hplain), Destination.after, hrefused]
      exact ih h fun unit' hunit' => hadmits unit' (List.mem_cons_of_mem unit hunit')

/-- The path of a unit leads to the place of the unit. -/
theorem placeOf_pathOf {root target path : String} (hroot : IsRoot root)
    (h : pathOf root target = .ok path) (s : FileSystem) :
    ∃ row, components target = .ok row ∧ s.placeOf path = s.placeOf root ++ row := by
  rw [pathOf] at h
  cases hrow : components target with
  | error fault =>
    rw [hrow] at h
    simp [Except.map] at h
  | ok row =>
    rw [hrow] at h
    obtain rfl := Except.ok.inj h
    obtain ⟨packages, file, rfl, hnames, -, -⟩ := components_shape hrow
    exact ⟨_, rfl, placeOf_of_extends (extends_join hroot hnames) s⟩

/-- Paths that lead to one place are paths of one target. -/
theorem target_eq_of_placeOf {root target target' path path' : String} {s : FileSystem}
    (hroot : IsRoot root) (hpath : pathOf root target = .ok path)
    (hpath' : pathOf root target' = .ok path') (h : s.placeOf path = s.placeOf path') :
    target = target' := by
  obtain ⟨row, hrow, hplace⟩ := placeOf_pathOf hroot hpath s
  obtain ⟨row', hrow', hplace'⟩ := placeOf_pathOf hroot hpath' s
  rw [hplace, hplace'] at h
  obtain rfl := List.append_cancel_left h
  exact components_injective hrow hrow'

/-- A unit has a path to a place exactly when its components lead there. -/
theorem exists_pathOf_iff {root target : String} {s : FileSystem} (hroot : IsRoot root)
    (below : Location) :
    (∃ path, pathOf root target = .ok path ∧ s.placeOf path = s.placeOf root ++ below) ↔
      components target = .ok below := by
  constructor
  · rintro ⟨path, hpath, hplace⟩
    obtain ⟨row, hrow, hplace'⟩ := placeOf_pathOf hroot hpath s
    obtain rfl := List.append_cancel_left (hplace'.symm.trans hplace)
    exact hrow
  · intro hrow
    have hpath : pathOf root target = .ok (join root (text below)) := by
      rw [pathOf, hrow]
      rfl
    obtain ⟨row, hrow', hplace⟩ := placeOf_pathOf hroot hpath s
    obtain rfl := Except.ok.inj (hrow.symm.trans hrow')
    exact ⟨_, hpath, hplace⟩

/-- **The answer to a unit in the course of any writes**: it is taken when its name is
plain, and refused without a trace otherwise. -/
theorem destination_after {root : String} {s : FileSystem} {store : Store} (hroot : IsRoot root)
    (h : Mirrors (s.placeOf root) s store) (earlier : List SourceUnit) (unit : SourceUnit)
    (hadmits : ∀ u ∈ earlier ++ [unit], ∀ row,
      components u.target = .ok row → Admits s root row) :
    let d := destination root
    (Plain unit.target → (d (d.after s earlier) unit).outcome = .ok ()) ∧
    (¬ Plain unit.target → ∃ segment, d (d.after s earlier) unit =
      ⟨d.after s earlier, [], .error (.path (.notPlain unit.target segment))⟩) := by
  intro d
  refine ⟨fun hplain => ?_, fun hplain => destination_of_not_plain hplain root _⟩
  obtain ⟨hworkplace, hmirrors⟩ := mirrors_after hroot h earlier
    fun u hu => hadmits u (List.mem_append_left _ hu)
  obtain ⟨row, hrow⟩ := exists_components_of_plain hplain
  have hunit := hadmits unit (List.mem_append_right _ List.mem_cons_self) row hrow
  rw [← placeOf_of_workplace hworkplace] at hmirrors
  exact (mirrors_write hroot hmirrors hrow (hunit.of_workplace hworkplace)).1

/-- **A directory does what a store does.**  A run of writes and rounds into a
directory that is free at the start takes every unit whose name is plain and refuses
every other one without a trace.  The files below the root are then those of the units
that a store holds that was given the plain ones, each at its path and with its text,
and no two targets share a path. -/
theorem run_refines_store {root : String} {s : FileSystem} (hroot : IsRoot root)
    (hready : s.IsReady) (hfree : IsFree s (s.placeOf root)) (jobs : List Job)
    (hadmits : ∀ unit ∈ (destination root).calls jobs s, ∀ row,
      components unit.target = .ok row → Admits s root row) :
    let d := destination root
    let calls := d.calls jobs s
    let store := Store.destination.after .empty (calls.filter fun unit => Plain unit.target)
    (∀ earlier unit later, calls = earlier ++ unit :: later →
      (Plain unit.target → (d (d.after s earlier) unit).outcome = .ok ()) ∧
      (¬ Plain unit.target → ∃ segment, d (d.after s earlier) unit =
        ⟨d.after s earlier, [], .error (.path (.notPlain unit.target segment))⟩)) ∧
    d.run jobs s = d.after s calls ∧
    (∀ below content, (d.run jobs s).tree.view (s.placeOf root ++ below) = some (.file content) ↔
      ∃ target unit path, store.get? target = some unit ∧ pathOf root target = .ok path ∧
        s.placeOf path = s.placeOf root ++ below ∧ content = unit.text.toByteArray) ∧
    ∀ target target' path path', pathOf root target = .ok path →
      pathOf root target' = .ok path' → s.placeOf path = s.placeOf path' → target = target' := by
  intro d calls store
  have hempty := mirrors_empty hready hfree
  refine ⟨fun earlier unit later hcalls => ?_, d.run_eq_after jobs s, fun below content => ?_,
    fun _ _ _ _ hpath hpath' h => target_eq_of_placeOf hroot hpath hpath' h⟩
  · apply destination_after hroot hempty earlier unit
    intro u hu
    apply hadmits u
    change u ∈ calls
    rw [hcalls, List.append_cons]
    exact List.mem_append_left _ hu
  · have hmirrors := (mirrors_after hroot hempty calls hadmits).2
    rw [d.run_eq_after jobs s, hmirrors.files below content]
    constructor
    · rintro ⟨target, unit, hunit, hrow, hcontent⟩
      obtain ⟨path, hpath, hplace⟩ := (exists_pathOf_iff hroot below).mpr hrow
      exact ⟨target, unit, path, hunit, hpath, hplace, hcontent⟩
    · rintro ⟨target, unit, path, hunit, hpath, hplace, hcontent⟩
      exact ⟨target, unit, hunit, (exists_pathOf_iff hroot below).mp ⟨path, hpath, hplace⟩,
        hcontent⟩

/-- A type and a package of the same name do not disturb each other, and a later text
of the type replaces the earlier one. -/
theorem run_refines_store_nested_names :
    let s := FileSystem.fresh ["w"]
    let jobs : List Job := [.write ⟨"a.b", "1"⟩, .write ⟨"a.b.c", "2"⟩, .write ⟨"a..b", "3"⟩,
      .round .standard [], .write ⟨"a.b", "4"⟩]
    IsRoot "out" ∧ s.IsReady ∧ IsFree s (s.placeOf "out") ∧
      (∀ unit ∈ (destination "out").calls jobs s, ∀ row,
        components unit.target = .ok row → Admits s "out" row) ∧
      ((destination "out").run jobs s).tree.view ["w", "out", "a", "b.java"] =
        some (.file "4".toByteArray) ∧
      ((destination "out").run jobs s).tree.view ["w", "out", "a", "b", "c.java"] =
        some (.file "2".toByteArray) := by
  intro s jobs
  have hroot : IsRoot "out" := ⟨by decide, by decide⟩
  have hready := isReady_fresh ["w"]
  have hplace : s.placeOf "out" = ["w", "out"] := by decide
  have hfree : IsFree s (s.placeOf "out") := hplace ▸ isFree_fresh ["w"] ["out"]
  have hcalls : (destination "out").calls jobs s =
      [⟨"a.b", "1"⟩, ⟨"a.b.c", "2"⟩, ⟨"a..b", "3"⟩, ⟨"a.b", "4"⟩] := rfl
  have hb : Admits s "out" ["a", "b.java"] := ⟨rfl, rfl, by decide, by decide⟩
  have hc : Admits s "out" ["a", "b", "c.java"] := ⟨rfl, rfl, by decide, by decide⟩
  have hadmits : ∀ unit ∈ (destination "out").calls jobs s, ∀ row,
      components unit.target = .ok row → Admits s "out" row := by
    intro unit hunit row hrow
    rw [hcalls] at hunit
    simp only [List.mem_cons, List.not_mem_nil, or_false] at hunit
    rcases hunit with rfl | rfl | rfl | rfl
    · exact Except.ok.inj hrow ▸ hb
    · exact Except.ok.inj hrow ▸ hc
    · exact absurd (plain_of_components hrow) (by decide)
    · exact Except.ok.inj hrow ▸ hb
  obtain ⟨_, _, hfiles, _⟩ := run_refines_store hroot hready hfree jobs hadmits
  rw [hcalls, hplace] at hfiles
  refine ⟨hroot, hready, hfree, hadmits, ?_, ?_⟩
  · exact (hfiles ["a", "b.java"] _).mpr ⟨"a.b", ⟨"a.b", "4"⟩, "out/a/b.java", by decide, rfl,
      by decide, rfl⟩
  · exact (hfiles ["a", "b", "c.java"] _).mpr ⟨"a.b.c", ⟨"a.b.c", "2"⟩, "out/a/b/c.java",
      by decide, rfl, by decide, rfl⟩

end Directory
end FluentBuilders
