import FluentBuilders.Proofs.PlainPath
import FluentBuilders.Text.Split

/-! # Paths of units

The path of a unit leads from the root through one directory for each segment of
its package to a file named for the unit (`SourcePath.relative_of_plain`).  The names of
these directories hold no dot and the name of the file does
(`SourcePath.relative_shape`), so that no unit has its file where another one needs a
directory.  Units with different names have different paths
(`SourcePath.relative_injective`).  This holds of every extension that can be part of a
name; units have one of their own. -/
namespace FluentBuilders
open FilePath

namespace SourcePath

/-- A name whose segments are not empty and hold no separator. -/
def Plain (target : String) : Prop :=
  ∀ segment ∈ DottedName.segments target.toList, segment ≠ [] ∧ '/' ∉ segment

instance (target : String) : Decidable (Plain target) :=
  inferInstanceAs (Decidable (∀ segment ∈ DottedName.segments target.toList, _))

theorem isPlain_iff {segment : List Char} :
    isPlain segment = true ↔ segment ≠ [] ∧ '/' ∉ segment := by
  simp [isPlain]

/-- Segments hold no dot. -/
theorem dot_not_mem_segments (name : List Char) :
    ∀ segment ∈ DottedName.segments name, '.' ∉ segment :=
  fun _ h => Text.not_mem_of_mem_splitOn h

theorem withExtension_concat {extension : String} (h : extension ≠ "") (row : List String)
    (file : String) :
    withExtension extension (row ++ [file]) = row ++ [file ++ "." ++ extension] := by
  induction row with
  | nil => rw [List.nil_append, withExtension, if_neg h, List.nil_append]
  | cons n row ih =>
    obtain ⟨m, rest, hm⟩ := List.exists_cons_of_ne_nil (l := row ++ [file]) (by simp)
    rw [List.cons_append, List.cons_append, ← ih, hm, withExtension]
    simp

end SourcePath

namespace Directory

/-- The segments of a name as texts. -/
def segments (target : String) : List String :=
  (DottedName.segments target.toList).map String.ofList

theorem exists_segments (target : String) :
    ∃ packages simple, segments target = packages ++ [simple] := by
  have hne : segments target ≠ [] := fun h =>
    List.splitOn_ne_nil '.' target.toList (List.map_eq_nil_iff.mp h)
  exact ⟨_, _, (List.dropLast_concat_getLast hne).symm⟩

theorem toList_segments (target : String) :
    (segments target).map String.toList = DottedName.segments target.toList := by
  have hid : String.toList ∘ String.ofList = id := funext fun _ => String.toList_ofList
  rw [segments, List.map_map, hid, List.map_id]

/-- The segments of a name make up the name. -/
theorem intercalate_segments (target : String) :
    String.intercalate "." (segments target) = target := by
  apply String.toList_inj.mp
  rw [String.toList_intercalate, toList_segments]
  exact List.intercalate_splitOn '.'

theorem segments_injective : Function.Injective segments := by
  intro target other h
  rw [← intercalate_segments target, h, intercalate_segments]

end Directory

namespace SourcePath

/-! ## Paths with an extension -/

section

variable {extension : String}

/-- **A name that is not plain has no path**, and its first segment that is not plain is
blamed. -/
theorem relative_of_not_plain (extension : String) {target : String} (h : ¬ Plain target) :
    ∃ front segment back, DottedName.segments target.toList = front ++ segment :: back ∧
      (∀ s ∈ front, s ≠ [] ∧ '/' ∉ s) ∧ ¬ (segment ≠ [] ∧ '/' ∉ segment) ∧
      relative target extension = .error (.notPlain target (String.ofList segment)) := by
  cases hf : (DottedName.segments target.toList).find? fun segment => !isPlain segment with
  | none =>
    refine absurd (fun segment hsegment => isPlain_iff.mp ?_) h
    simpa using List.find?_eq_none.mp hf segment hsegment
  | some segment =>
    obtain ⟨hbad, front, back, hsplit, hfront⟩ := List.find?_eq_some_iff_append.mp hf
    refine ⟨front, segment, back, hsplit, fun s hs => ?_, ?_, ?_⟩
    · rw [← isPlain_iff]
      simpa using hfront s hs
    · rw [← isPlain_iff]
      simpa using hbad
    · simp only [relative, SourcePath.components, hf]

theorem plain_of_relative {target : String} {row : List String}
    (h : relative target extension = .ok row) : Plain target := by
  by_cases hplain : Plain target
  · exact hplain
  · obtain ⟨_, _, _, _, _, _, herror⟩ := relative_of_not_plain extension hplain
    rw [h] at herror
    simp at herror

/-- A name has an extension behind a dot. -/
theorem toList_withExtension (simple : String) :
    (simple ++ "." ++ extension).toList = simple.toList ++ '.' :: extension.toList := by
  rw [String.append_assoc, String.toList_append, String.toList_append]
  rfl

variable (hne : extension ≠ "") (hslash : '/' ∉ extension.toList)

include hne hslash

/-- **A plain name has a path**: a directory for each segment of the package and a file
named for the last segment, with the extension. -/
theorem relative_of_plain {target : String} (h : Plain target) {packages : Location}
    {simple : String} (hcut : Directory.segments target = packages ++ [simple]) :
    relative target extension = .ok (packages ++ [simple ++ "." ++ extension]) := by
  have hnames : SourcePath.components target = .ok (packages ++ [simple]) :=
    SourcePath.components_eq_ok_iff.mpr
      ⟨fun segment hsegment => isPlain_iff.mpr (h segment hsegment), hcut.symm⟩
  have hcontains : extension.toList.contains '/' = false := by simpa using hslash
  rw [relative, hnames]
  simp only [hcontains, Bool.false_eq_true, if_false]
  rw [withExtension_concat hne]

/-- What a path is made of: directories without a dot in their names, and in them a file
with a dot in its name. -/
theorem relative_shape {target : String} {row : List String}
    (h : relative target extension = .ok row) :
    ∃ packages simple, Directory.segments target = packages ++ [simple] ∧
      row = packages ++ [simple ++ "." ++ extension] ∧ (∀ n ∈ row, IsName n) ∧
      (∀ n ∈ packages, '.' ∉ n.toList) ∧ '.' ∈ (simple ++ "." ++ extension).toList := by
  have hplain := plain_of_relative h
  obtain ⟨packages, simple, hcut⟩ := Directory.exists_segments target
  rw [relative_of_plain hne hslash hplain hcut] at h
  have hsegment : ∀ n ∈ packages ++ [simple],
      ∃ c ∈ n.toList, c ≠ '.' ∧ '/' ∉ n.toList ∧ '.' ∉ n.toList := by
    intro n hn
    rw [← hcut] at hn
    obtain ⟨segment, hmem, rfl⟩ := List.mem_map.mp hn
    obtain ⟨hfilled, hplain⟩ := hplain segment hmem
    have hdot := dot_not_mem_segments _ segment hmem
    obtain ⟨c, hc⟩ := List.exists_mem_of_ne_nil segment hfilled
    rw [String.toList_ofList]
    exact ⟨c, hc, fun hcdot => hdot (hcdot ▸ hc), hplain, hdot⟩
  obtain ⟨c, hc, hcdot, hsimple, -⟩ :=
    hsegment simple (List.mem_append_right _ List.mem_cons_self)
  have hfile : IsName (simple ++ "." ++ extension) := by
    refine isName_of_mem (c := c) ?_ hcdot ?_
    · rw [toList_withExtension]
      exact List.mem_append_left _ hc
    · rw [toList_withExtension, List.mem_append, List.mem_cons]
      rintro (h | h | h)
      · exact hsimple h
      · exact absurd h (by decide)
      · exact hslash h
  refine ⟨packages, simple, hcut, (Except.ok.inj h).symm, ?_, fun n hn => ?_, ?_⟩
  · rw [← Except.ok.inj h]
    intro n hn
    rcases List.mem_append.mp hn with hn | hn
    · obtain ⟨d, hd, hddot, hplain, -⟩ := hsegment n (List.mem_append_left _ hn)
      exact isName_of_mem hd hddot hplain
    · exact (List.mem_singleton.mp hn) ▸ hfile
  · obtain ⟨_, _, _, _, hdot⟩ := hsegment n (List.mem_append_left _ hn)
    exact hdot
  · rw [toList_withExtension]
    exact List.mem_append_right _ List.mem_cons_self

/-- **Different names have different paths.** -/
theorem relative_injective {target other : String} {row : List String}
    (h : relative target extension = .ok row) (h' : relative other extension = .ok row) :
    target = other := by
  obtain ⟨packages, simple, hcut, hrow, -⟩ := relative_shape hne hslash h
  obtain ⟨packages', simple', hcut', hrow', -⟩ := relative_shape hne hslash h'
  obtain ⟨hpackages, hfile⟩ := List.append_inj' (hrow.symm.trans hrow') rfl
  injection hfile with hfile
  rw [String.append_left_inj, String.append_left_inj] at hfile
  apply Directory.segments_injective
  rw [hcut, hcut', hpackages, hfile]

end

end SourcePath

namespace Directory
open SourcePath

/-! ## Paths of units -/

/-- The name of the file of a unit. -/
def fileName (simple : String) : String := simple ++ "." ++ sourceExtension

theorem sourceExtension_ne : sourceExtension ≠ "" := by decide

theorem sourceExtension_plain : '/' ∉ sourceExtension.toList := by decide

theorem components_of_plain {target : String} (h : Plain target) {packages : Location}
    {simple : String} (hcut : segments target = packages ++ [simple]) :
    components target = .ok (packages ++ [fileName simple]) :=
  relative_of_plain sourceExtension_ne sourceExtension_plain h hcut

theorem exists_components_of_plain {target : String} (h : Plain target) :
    ∃ row, components target = .ok row := by
  obtain ⟨packages, simple, hcut⟩ := exists_segments target
  exact ⟨_, components_of_plain h hcut⟩

theorem components_of_not_plain {target : String} (h : ¬ Plain target) :
    ∃ segment ∈ DottedName.segments target.toList, ¬ (segment ≠ [] ∧ '/' ∉ segment) ∧
      components target = .error (.notPlain target (String.ofList segment)) := by
  obtain ⟨front, segment, back, hsplit, -, hbad, herror⟩ :=
    relative_of_not_plain sourceExtension h
  refine ⟨segment, ?_, hbad, herror⟩
  rw [hsplit]
  exact List.mem_append_right _ List.mem_cons_self

theorem plain_of_components {target : String} {row : List String}
    (h : components target = .ok row) : Plain target :=
  plain_of_relative h

theorem components_shape {target : String} {row : List String}
    (h : components target = .ok row) :
    ∃ packages file, row = packages ++ [file] ∧ (∀ n ∈ packages ++ [file], IsName n) ∧
      (∀ n ∈ packages, '.' ∉ n.toList) ∧ '.' ∈ file.toList := by
  obtain ⟨packages, simple, -, rfl, hnames, hdots, hdot⟩ :=
    relative_shape sourceExtension_ne sourceExtension_plain h
  exact ⟨packages, _, rfl, hnames, hdots, hdot⟩

theorem components_injective {target other : String} {row : List String}
    (h : components target = .ok row) (h' : components other = .ok row) : target = other :=
  relative_injective sourceExtension_ne sourceExtension_plain h h'

/-! ## Below a root -/

/-- A root that never climbs and is not the top itself. -/
structure IsRoot (root : String) : Prop where
  descends : Descends root
  proper : isAbsolute root = true → names root ≠ []

/-- A path that leads from a root to the place below it that some names lead to. -/
structure Extends (root path : String) (below : Location) : Prop where
  descends : Descends path
  names_eq : names path = names root ++ below
  isAbsolute_eq : isAbsolute path = isAbsolute root

theorem extends_join {root : String} (hroot : IsRoot root) {row : List String}
    (hrow : ∀ n ∈ row, IsName n) : Extends root (join root (text row)) row := by
  refine ⟨descends_join hroot.descends (descends_text hrow), ?_, ?_⟩
  · rw [names_join, names_text hrow]
  · by_cases hempty : root = ""
    · rw [join, if_pos hempty, isAbsolute_text hrow, hempty]
      decide
    · exact isAbsolute_join hempty _

theorem extends_trimmed {root : String} (hroot : IsRoot root) :
    Extends root (trimmed root) [] := by
  obtain ⟨tail, k, htext, hway⟩ := (trimmed_spec root).1
  have hnames : names (trimmed root) = names root := by
    have hstays : (List.replicate k Component.stay).filterMap nameOf = [] := by
      rw [List.filterMap_eq_nil_iff]
      intro c hc
      rw [List.eq_of_mem_replicate hc]
      rfl
    rw [names, names, hway, List.filterMap_append, hstays, List.append_nil]
  refine ⟨?_, by rw [hnames, List.append_nil], ?_⟩
  · intro h
    refine hroot.descends ?_
    rw [hway]
    exact List.mem_append_left _ h
  · by_cases hempty : trimmed root = ""
    · -- only a path without names is trimmed to nothing, and the top is no root
      have hrelative : ¬ isAbsolute root = true := by
        intro habsolute
        apply hroot.proper habsolute
        rw [← hnames, hempty]
        decide
      rw [hempty, Bool.eq_false_iff.mpr hrelative]
      decide
    · conv => rhs; rw [htext]
      exact (isAbsolute_append hempty tail).symm

/-- **The directory of a unit** lies below the root as its package tells, and making
the directories on the way to it never ends behind the last of them. -/
theorem extends_packagePath {root : String} (hroot : IsRoot root) {packages : Location}
    {file : String} (hrow : ∀ n ∈ packages ++ [file], IsName n) :
    Extends root (packagePath root (packages ++ [file])) packages ∧
      Settles (FilePath.components (packagePath root (packages ++ [file]))) := by
  have hpackages : ∀ n ∈ packages, IsName n := fun n hn => hrow n (List.mem_append_left _ hn)
  rw [packagePath, List.dropLast_concat]
  split
  · exact ⟨extends_trimmed hroot, (trimmed_spec root).2⟩
  · next hne =>
    refine ⟨extends_join hroot hpackages, settles_of_getLast? ?_⟩
    obtain ⟨front, last, rfl⟩ := (List.eq_nil_or_concat packages).resolve_left hne
    rw [List.concat_eq_append] at hpackages ⊢
    rw [components_join, components_text hpackages, List.map_append, ← List.append_assoc,
      List.map_singleton, List.getLast?_concat]
    simp

end Directory
end FluentBuilders
