import FluentBuilders.Proofs.SourcePaths
import FluentBuilders.Proofs.UnitNames

/-! # Readings of a dotted name

A name is read in three ways: as an owner, which has to be well formed, as the target of a
unit, which is cut at its last dot whatever it is, and as a path, which has to have plain
segments.  They go by the same segments.  An owner is well formed when none of them is
empty (`ofOwner_ok_iff`), and has a path when none holds a separator either
(`plain_iff`).  Each reading gives what the others give (`readings_agree`).
-/
namespace FluentBuilders

namespace DottedName

/-- **A well-formed owner** has no empty segment, and is cut like any other name. -/
theorem ofOwner_ok_iff {owner : String} {t : TypeName} :
    ofOwner owner = .ok t ↔ [] ∉ segments owner.toList ∧ cut owner = t := by
  have hany : (segments owner.toList).any List.isEmpty = true ↔ [] ∈ segments owner.toList := by
    simp [List.any_eq_true]
  unfold ofOwner
  split
  · next hempty =>
    rw [hempty]
    simp [segments]
  · split
    · next hsome => simp [hany.mp hsome]
    · next hnone => simp [mt hany.mpr hnone]

/-- Where the dots of a name are not to stand. -/
theorem exists_ofOwner_iff {owner : String} :
    (∃ t, ofOwner owner = .ok t) ↔ owner ≠ "" ∧ owner.toList.head? ≠ some '.' ∧
      owner.toList.getLast? ≠ some '.' ∧ ¬ ['.', '.'] <:+: owner.toList := by
  have hok : (∃ t, ofOwner owner = .ok t) ↔ [] ∉ segments owner.toList := by
    simp [ofOwner_ok_iff]
  rw [hok, segments, Text.nil_mem_splitOn_iff]
  simp only [not_or, ne_eq, String.toList_eq_nil_iff]

/-- The simple name is the last segment, which has no dot. -/
theorem dot_not_mem_simple_cut (name : String) : '.' ∉ (cut name).simple.toList := by
  unfold cut
  split
  · next front back h =>
    rw [String.toList_ofList]
    exact not_mem_of_splitLast? h
  · next h => exact splitLast?_eq_none_iff.mp h

/-- The segments of the package and the simple name, all of them filled. -/
theorem ofOwner_parts {owner : String} {t : TypeName} (h : ofOwner owner = .ok t) :
    t.simple ≠ "" ∧ ∀ package, t.package = some package → ∃ t', ofOwner package = .ok t' := by
  obtain ⟨hfilled, rfl⟩ := ofOwner_ok_iff.mp h
  have hsegments : "" ∉ Directory.segments owner := by
    intro hmem
    obtain ⟨part, hpart, hempty⟩ := List.mem_map.mp hmem
    rw [String.ofList_eq_empty_iff.mp hempty] at hpart
    exact hfilled hpart
  rw [SourceUnit.segments_cut, List.mem_append, not_or] at hsegments
  obtain ⟨hpackage, hsimple⟩ := hsegments
  refine ⟨fun hempty => hsimple (hempty ▸ List.mem_cons_self), fun package hsome => ?_⟩
  rw [hsome] at hpackage
  refine ⟨_, ofOwner_ok_iff.mpr ⟨fun hmem => hpackage ?_, rfl⟩⟩
  exact List.mem_map.mpr ⟨[], hmem, rfl⟩

end DottedName

namespace SourcePath

/-- **A plain name** is an owner without separators. -/
theorem plain_iff {name : String} :
    Plain name ↔ [] ∉ DottedName.segments name.toList ∧ '/' ∉ name.toList := by
  have hslash : '/' ∈ name.toList ↔ ∃ part ∈ DottedName.segments name.toList, '/' ∈ part :=
    Text.mem_iff_exists_mem_splitOn (by decide) name.toList
  rw [hslash]
  constructor
  · intro h
    refine ⟨fun hmem => (h [] hmem).1 rfl, ?_⟩
    rintro ⟨part, hpart, hmem⟩
    exact (h part hpart).2 hmem
  · rintro ⟨hfilled, hplain⟩ part hpart
    refine ⟨?_, fun hmem => hplain ⟨part, hpart, hmem⟩⟩
    rintro rfl
    exact hfilled hpart

/-- A name with separators for its dots. -/
def slashed (name : String) : String :=
  String.ofList (name.toList.map fun c => if c = '.' then '/' else c)

/-- The segments of a name make up a path. -/
theorem text_segments (name : String) : text (Directory.segments name) = slashed name := by
  apply String.toList_inj.mp
  rw [text, String.toList_intercalate, Directory.toList_segments, slashed, String.toList_ofList,
    String.toList_ofList]
  have hjoin := Text.map_intercalate (d := '/') (dot_not_mem_segments name.toList)
  rw [DottedName.segments, List.intercalate_splitOn] at hjoin
  exact hjoin.symm

/-- **A plain name has a path**: the name itself, with separators for its dots and the
extension behind it. -/
theorem text_relative_of_plain {extension : String} (hne : extension ≠ "")
    (hslash : '/' ∉ extension.toList) {name : String} (h : Plain name) :
    ∃ row, relative name extension = .ok row ∧ text row = slashed name ++ "." ++ extension := by
  obtain ⟨packages, simple, hcut⟩ := Directory.exists_segments name
  refine ⟨_, relative_of_plain hne hslash h hcut, ?_⟩
  rw [← text_segments, hcut]
  apply String.toList_inj.mp
  rw [String.append_assoc, toList_text_concat, String.append_assoc, ← String.toList_append]

/-- The directories of a package, on the way to its units. -/
def packageText : Option String → String
  | some package => slashed package ++ "/"
  | none => ""

theorem slashed_of_not_mem {name : String} (h : '.' ∉ name.toList) : slashed name = name := by
  apply String.toList_inj.mp
  rw [slashed, String.toList_ofList]
  refine (List.map_congr_left fun c hc => if_neg ?_).trans (List.map_id _)
  rintro rfl
  exact h hc

/-- The directories come in front of the simple name. -/
theorem slashed_full {t : TypeName} (h : '.' ∉ t.simple.toList) :
    slashed t.full = packageText t.package ++ t.simple := by
  obtain ⟨package, simple⟩ := t
  cases package with
  | none => rw [TypeName.full, slashed_of_not_mem h, packageText, String.empty_append]
  | some package =>
    rw [TypeName.full, packageText]
    conv => rhs; rw [← slashed_of_not_mem h]
    apply String.toList_inj.mp
    simp only [slashed, String.toList_ofList, String.toList_append, List.map_append]
    rfl

end SourcePath

/-- **The readings of a name agree.**  A name is the name of an owner when it is not empty,
has no dot at its ends and no two dots in a row; it has a path when it holds no separator
either.  The simple name of an owner is filled and has no dot, its package is the name of an
owner again, and the two make up the name.  The unit of that name has the same package and
simple name, and its path is the directories of the package and a file named for the simple
name. -/
theorem readings_agree (name : String) :
    ((∃ t, DottedName.ofOwner name = .ok t) ↔ name ≠ "" ∧ name.toList.head? ≠ some '.' ∧
      name.toList.getLast? ≠ some '.' ∧ ¬ ['.', '.'] <:+: name.toList) ∧
    ((∃ row, SourcePath.relative name "java" = .ok row) ↔
      (∃ t, DottedName.ofOwner name = .ok t) ∧ '/' ∉ name.toList) ∧
    ∀ t, DottedName.ofOwner name = .ok t →
      t.simple ≠ "" ∧ '.' ∉ t.simple.toList ∧
      (∀ package, t.package = some package → ∃ t', DottedName.ofOwner package = .ok t') ∧
      t.full = name ∧
      (∀ text, (SourceUnit.mk name text).package = t.package ∧
        (SourceUnit.mk name text).simpleName = t.simple) ∧
      ('/' ∉ name.toList → ∃ row, SourcePath.relative name "java" = .ok row ∧
        SourcePath.text row = SourcePath.packageText t.package ++ t.simple ++ ".java") := by
  have hpath : SourcePath.Plain name → ∃ row, SourcePath.relative name "java" = .ok row ∧
      SourcePath.text row = SourcePath.slashed name ++ "." ++ "java" :=
    SourcePath.text_relative_of_plain Directory.sourceExtension_ne Directory.sourceExtension_plain
  have hplain : SourcePath.Plain name ↔
      (∃ t, DottedName.ofOwner name = .ok t) ∧ '/' ∉ name.toList := by
    simp [SourcePath.plain_iff, DottedName.ofOwner_ok_iff]
  refine ⟨DottedName.exists_ofOwner_iff, ?_, fun t h => ?_⟩
  · rw [← hplain]
    constructor
    · rintro ⟨row, hrow⟩
      exact SourcePath.plain_of_relative hrow
    · intro h
      obtain ⟨row, hrow, -⟩ := hpath h
      exact ⟨row, hrow⟩
  · obtain ⟨hsimple, hpackage⟩ := DottedName.ofOwner_parts h
    have hcut := DottedName.cut_of_ofOwner h
    have hdot : '.' ∉ t.simple.toList := hcut ▸ DottedName.dot_not_mem_simple_cut name
    have hfull : t.full = name := hcut ▸ DottedName.full_cut name
    refine ⟨hsimple, hdot, hpackage, hfull, fun text => ?_, fun hslash => ?_⟩
    · rw [SourceUnit.package, SourceUnit.simpleName, hcut]
      exact ⟨rfl, rfl⟩
    · obtain ⟨row, hrow, htext⟩ := hpath (hplain.mpr ⟨⟨t, h⟩, hslash⟩)
      refine ⟨row, hrow, ?_⟩
      rw [htext, ← hfull, SourcePath.slashed_full hdot, String.append_assoc]
      rfl

/-- An owner in a package of two segments, and one with a separator, which has no path. -/
theorem readings_agree_two_owners :
    DottedName.ofOwner "a.b.C" = .ok ⟨some "a.b", "C"⟩ ∧ '/' ∉ "a.b.C".toList ∧
      (∃ row, SourcePath.relative "a.b.C" "java" = .ok row ∧
        SourcePath.text row = "a/b/C.java") ∧
      (∃ t', DottedName.ofOwner "a.b" = .ok t') ∧
      DottedName.ofOwner "a/b.C" = .ok ⟨some "a/b", "C"⟩ ∧
      (SourceUnit.mk "a/b.C" "").package = some "a/b" ∧
      ¬ ∃ row, SourcePath.relative "a/b.C" "java" = .ok row := by
  have hname : DottedName.ofOwner "a.b.C" = .ok ⟨some "a.b", "C"⟩ := by rfl
  have hother : DottedName.ofOwner "a/b.C" = .ok ⟨some "a/b", "C"⟩ := by rfl
  have hslash : '/' ∉ "a.b.C".toList := by decide
  have htext : SourcePath.packageText (some "a.b") ++ "C" ++ ".java" = "a/b/C.java" := by decide
  obtain ⟨-, -, hparts⟩ := readings_agree "a.b.C"
  obtain ⟨-, -, hpackage, -, -, hpath⟩ := hparts _ hname
  obtain ⟨-, hrelative, hparts'⟩ := readings_agree "a/b.C"
  obtain ⟨-, -, -, -, hunit, -⟩ := hparts' _ hother
  refine ⟨hname, hslash, htext ▸ hpath hslash, hpackage _ rfl, hother, (hunit "").1, fun h => ?_⟩
  exact (hrelative.mp h).2 (by decide)

end FluentBuilders
