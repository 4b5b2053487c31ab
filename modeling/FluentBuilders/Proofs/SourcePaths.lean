import FluentBuilders.Proofs.UnitPath

/-! # Where sources can lie

A segment can be a part of a path when it is a path of one component on its own
(`isPlain_iff_components`).  Whatever directory the path of a source is joined to, it leads
from there down through names and to nothing else, and it tells the name that it was made
from (`targetOf_text`).  Since only the last of its names holds a dot, no source lies where
the path of another one has a directory (`eq_of_above`).
-/
namespace FluentBuilders
open FilePath

namespace SourcePath

/-! ## Segments as paths -/

/-- A segment is plain when it is itself a path of one component, which is its name. -/
theorem isPlain_iff_components {name segment : List Char}
    (h : segment ∈ DottedName.segments name) : isPlain segment = true ↔
      FilePath.components (String.ofList segment) = [.name (String.ofList segment)] := by
  have hdot := dot_not_mem_segments name segment h
  rw [isPlain_iff]
  constructor
  · rintro ⟨hne, hslash⟩
    obtain ⟨c, hc⟩ := List.exists_mem_of_ne_nil segment hne
    have hname : IsName (String.ofList segment) := by
      refine isName_of_mem (c := c) ?_ (fun hcdot => hdot (hcdot ▸ hc)) ?_
      · rwa [String.toList_ofList]
      · rwa [String.toList_ofList]
    have htext := components_text (List.forall_mem_singleton.mpr hname)
    rwa [text, String.intercalate_singleton] at htext
  · intro hcomponents
    constructor
    · rintro rfl
      exact absurd hcomponents (by decide)
    · -- the only component is made from a part between separators, which holds none
      have hmem : Component.name (String.ofList segment) ∈
          FilePath.components (String.ofList segment) := by
        rw [hcomponents]
        exact List.mem_cons_self
      obtain ⟨part, hpart, hname⟩ := List.mem_map.mp hmem
      have hslash := Text.not_mem_of_mem_splitOn ((List.mem_filter.mp hpart).1)
      rw [component] at hname
      split at hname
      · contradiction
      · split at hname
        · contradiction
        · rwa [← String.ofList_injective (Component.name.inj hname)]

/-- The name of a file up to its last dot, unless that dot is at its start. -/
def stem (file : String) : String :=
  match DottedName.splitLast? file.toList with
  | some (c :: front, _) => String.ofList (c :: front)
  | _ => file

theorem stem_of_mem_segments {target segment : String} (h : segment ∈ Directory.segments target) :
    stem segment = segment := by
  obtain ⟨part, hpart, rfl⟩ := List.mem_map.mp h
  have hnone := DottedName.splitLast?_eq_none_iff.mpr (dot_not_mem_segments _ part hpart)
  rw [stem, String.toList_ofList, hnone]

/-! ## Names and paths -/

/-- The name whose source has a path: the path without its extension, with dots for the
separators. -/
def targetOf (extension path : String) : String :=
  let length := path.toList.length - (extension.toList.length + 1)
  String.ofList ((path.toList.take length).map fun c => if c = '/' then '.' else c)

/-- What stands behind the last name of a path stands behind the path. -/
theorem toList_text_concat (packages : List String) (simple tail : String) :
    (text (packages ++ [simple ++ tail])).toList =
      (text (packages ++ [simple])).toList ++ tail.toList := by
  induction packages with
  | nil =>
    rw [List.nil_append, List.nil_append, text, text, String.intercalate_singleton,
      String.intercalate_singleton, String.toList_append]
  | cons name packages ih =>
    have hcons : ∀ file, (text (name :: packages ++ [file])).toList =
        name.toList ++ ['/'] ++ (text (packages ++ [file])).toList := by
      intro file
      rw [text, String.toList_intercalate, List.cons_append, List.map_cons,
        List.intercalate_cons_of_ne_nil (by simp), ← String.toList_intercalate]
      rfl
    rw [hcons, hcons, ih, List.append_assoc, List.append_assoc, List.append_assoc]

/-- A path with dots for the separators is its names with dots between them. -/
theorem map_text {row : List String} (h : ∀ n ∈ row, '/' ∉ n.toList) :
    (text row).toList.map (fun c => if c = '/' then '.' else c) =
      (String.intercalate "." row).toList := by
  have hparts : ∀ part ∈ row.map String.toList, '/' ∉ part := by
    intro part hpart
    obtain ⟨n, hn, rfl⟩ := List.mem_map.mp hpart
    exact h n hn
  rw [text, String.toList_intercalate, String.toList_intercalate]
  exact Text.map_intercalate hparts

section

variable {extension : String} (hne : extension ≠ "") (hslash : '/' ∉ extension.toList)

include hne hslash

/-- **A path tells its name**: without the extension, and with dots for the separators. -/
theorem targetOf_text {target : String} {row : List String}
    (h : relative target extension = .ok row) : targetOf extension (text row) = target := by
  obtain ⟨packages, simple, hcut, rfl, -⟩ := relative_shape hne hslash h
  have hplain : ∀ n ∈ packages ++ [simple], '/' ∉ n.toList := by
    rw [← hcut]
    intro n hn
    obtain ⟨segment, hsegment, rfl⟩ := List.mem_map.mp hn
    rw [String.toList_ofList]
    exact (plain_of_relative h segment hsegment).2
  have htail : ("." ++ extension).toList = '.' :: extension.toList := String.toList_append
  have hlength : (text (packages ++ [simple ++ "." ++ extension])).toList.length -
      (extension.toList.length + 1) = (text (packages ++ [simple])).toList.length := by
    rw [String.append_assoc, toList_text_concat, htail, List.length_append, List.length_cons,
      Nat.add_sub_cancel]
  rw [targetOf, hlength, String.append_assoc, toList_text_concat, List.take_left,
    map_text hplain, String.ofList_toList, ← hcut, Directory.intercalate_segments]

/-- The extension comes in the place of the one that the last segment has, as it has none. -/
theorem relative_stem {target : String} {row : List String}
    (h : relative target extension = .ok row) : ∃ packages simple,
      Directory.segments target = packages ++ [simple] ∧
      row = packages ++ [stem simple ++ "." ++ extension] := by
  obtain ⟨packages, simple, hcut, hrow, -⟩ := relative_shape hne hslash h
  have hmem : simple ∈ Directory.segments target := by
    rw [hcut]
    exact List.mem_append_right _ List.mem_cons_self
  exact ⟨packages, simple, hcut, (stem_of_mem_segments hmem).symm ▸ hrow⟩

/-- **No path leads through another one.** -/
theorem eq_of_above {target other : String} {row row' : List String}
    (h : relative target extension = .ok row) (h' : relative other extension = .ok row')
    (habove : row <+: row') : target = other := by
  obtain ⟨packages, simple, -, hrow, -, -, hdot⟩ := relative_shape hne hslash h
  obtain ⟨packages', simple', -, hrow', -, hdots, -⟩ := relative_shape hne hslash h'
  rw [hrow', List.prefix_concat_iff, ← hrow'] at habove
  rcases habove with rfl | habove
  · exact relative_injective hne hslash h h'
  · -- the file would be one of the directories, whose names have no dot
    refine absurd hdot (hdots _ (habove.subset ?_))
    rw [hrow]
    exact List.mem_append_right _ List.mem_cons_self

end

/-- **Sources lie below the directory they are placed in**, apart from each other.  A name
that has a path has one whose components are its segments, the last with the extension;
they are names, none of them special, so that the path adds them to any directory it is
joined to.  The path tells the name, and leads neither to nor through that of another.  A
name without a path has a segment that is empty or holds a separator, and the first such
segment is blamed. -/
theorem relative_confined {extension : String} (hne : extension ≠ "")
    (hslash : '/' ∉ extension.toList) (target : String) :
    (∀ row, relative target extension = .ok row →
      (∃ packages simple, Directory.segments target = packages ++ [simple] ∧
        row = packages ++ [simple ++ "." ++ extension]) ∧
      (∀ n ∈ row, IsName n) ∧
      FilePath.components (text row) = row.map .name ∧ isAbsolute (text row) = false ∧
      (∀ root, FilePath.components (join root (text row)) =
          FilePath.components root ++ row.map .name ∧
        isAbsolute (join root (text row)) = isAbsolute root) ∧
      targetOf extension (text row) = target ∧
      ∀ other row', relative other extension = .ok row' → other ≠ target →
        text row' ≠ text row ∧ ¬ row <+: row') ∧
    ∀ fault, relative target extension = .error fault →
      ∃ front segment back, Directory.segments target = front ++ segment :: back ∧
        (∀ s ∈ front, s ≠ "" ∧ '/' ∉ s.toList) ∧ (segment = "" ∨ '/' ∈ segment.toList) ∧
        fault = .notPlain target segment ∧
        fault.message? = some ("type name '" ++ target ++ "' has segment '" ++ segment ++
          "' that is not a plain path component") := by
  constructor
  · intro row h
    obtain ⟨packages, simple, hcut, hrow, hnames, -, -⟩ := relative_shape hne hslash h
    have htext := components_text hnames
    have hrelative := isAbsolute_text hnames
    refine ⟨⟨packages, simple, hcut, hrow⟩, hnames, htext, hrelative, fun root => ⟨?_, ?_⟩,
      targetOf_text hne hslash h, fun other row' h' hother => ⟨fun heq => ?_, fun habove => ?_⟩⟩
    · rw [components_join, htext]
    · by_cases hroot : root = ""
      · rw [join, if_pos hroot, hrelative, hroot]
        decide
      · exact isAbsolute_join hroot _
    · rw [← targetOf_text hne hslash h', heq] at hother
      exact hother (targetOf_text hne hslash h)
    · exact hother (eq_of_above hne hslash h h' habove).symm
  · intro fault h
    have hplain : ¬ Plain target := fun hplain => by
      obtain ⟨packages, simple, hcut⟩ := Directory.exists_segments target
      rw [relative_of_plain hne hslash hplain hcut] at h
      simp at h
    obtain ⟨front, segment, back, hsplit, hfront, hbad, herror⟩ :=
      relative_of_not_plain extension hplain
    obtain rfl := Except.error.inj (h.symm.trans herror)
    refine ⟨front.map String.ofList, String.ofList segment, back.map String.ofList, ?_, ?_, ?_,
      rfl, rfl⟩
    · rw [Directory.segments, hsplit, List.map_append, List.map_cons]
    · intro s hs
      obtain ⟨part, hpart, rfl⟩ := List.mem_map.mp hs
      rw [String.toList_ofList, Ne, String.ofList_eq_empty_iff]
      exact hfront part hpart
    · rw [String.toList_ofList, String.ofList_eq_empty_iff]
      by_cases hempty : segment = []
      · exact .inl hempty
      · exact .inr (Decidable.of_not_not fun hno => hbad ⟨hempty, hno⟩)

/-- The last of three segments has the extension in the path, and the path tells the name
again.  Of two segments that are not plain, the first one is blamed. -/
theorem relative_confined_three_segments :
    "java" ≠ "" ∧ '/' ∉ "java".toList ∧
      relative "a.b.C" "java" = .ok ["a", "b", "C.java"] ∧
      FilePath.components (join "out/" (text ["a", "b", "C.java"])) =
        [.name "out", .name "a", .name "b", .name "C.java"] ∧
      targetOf "java" (text ["a", "b", "C.java"]) = "a.b.C" ∧
      (∀ row, relative "a.b" "java" = .ok row → ¬ ["a", "b", "C.java"] <+: row) ∧
      relative "a./b..C" "java" = .error (.notPlain "a./b..C" "/b") ∧
      ∃ front back, Directory.segments "a./b..C" = front ++ "/b" :: back ∧
        ∀ s ∈ front, s ≠ "" ∧ '/' ∉ s.toList := by
  have hne : "java" ≠ "" := by decide
  have hslash : '/' ∉ "java".toList := by decide
  have hrow : relative "a.b.C" "java" = .ok ["a", "b", "C.java"] := by rfl
  have herror : relative "a./b..C" "java" = .error (.notPlain "a./b..C" "/b") := by rfl
  obtain ⟨-, -, -, -, hjoin, htarget, hother⟩ :=
    (relative_confined hne hslash "a.b.C").1 _ hrow
  obtain ⟨front, segment, back, hsplit, hfront, -, hfault, -⟩ :=
    (relative_confined hne hslash "a./b..C").2 _ herror
  injection hfault with _ hsegment
  subst hsegment
  have hroot : FilePath.components "out/" = [.name "out"] := by decide
  refine ⟨hne, hslash, hrow, ?_, htarget, fun row h => (hother _ row h (by decide)).2, herror,
    front, back, hsplit, hfront⟩
  rw [(hjoin "out/").1, hroot]
  rfl

end SourcePath
end FluentBuilders
