import FluentBuilders.Naming
import FluentBuilders.Proofs.BuilderText
import FluentBuilders.Proofs.UnitPath

/-! # The names of a unit

A builder is named three times: its text declares a package and a class, its full name
is cut into a package and a simple name, and its path is made of the segments of the
full name.  The last two always agree (`pathOf_eq`).  The text agrees with them exactly
when the suffix has no dot (`names_agree_iff`), which the naming rules do not ask for:
a suffix with a dot moves the builder to another package than the text says. -/
namespace FluentBuilders

namespace DottedName

theorem splitLast?_append {t : List Char} (h : '.' ∉ t) (s : List Char) :
    splitLast? (s ++ t) = (splitLast? s).map fun p => (p.1, p.2 ++ t) := by
  induction s with
  | nil => exact splitLast?_eq_none_iff.mpr h
  | cons c s ih =>
    rw [List.cons_append, splitLast?, splitLast?, ih]
    cases splitLast? s with
    | some p => rfl
    | none =>
      by_cases hc : c = '.'
      · simp [hc]
      · simp [hc]

/-- The last dot of a name is in its tail when the tail has one. -/
theorem splitLast?_append_of_splitLast? {t front back : List Char}
    (h : splitLast? t = some (front, back)) (s : List Char) :
    splitLast? (s ++ t) = some (s ++ front, back) := by
  induction s with
  | nil => exact h
  | cons c s ih => rw [List.cons_append, splitLast?, ih, List.cons_append]

/-- A tail without a dot goes to the simple name. -/
theorem cut_append {suffix : String} (h : '.' ∉ suffix.toList) (name : String) :
    cut (name ++ suffix) = ⟨(cut name).package, (cut name).simple ++ suffix⟩ := by
  unfold cut
  rw [String.toList_append, splitLast?_append h]
  cases splitLast? name.toList with
  | none => rfl
  | some p => simp only [Option.map_some, String.ofList_append, String.ofList_toList]

/-- A tail with a dot takes all of the name into the package. -/
theorem package_cut_append {suffix : String} (h : '.' ∈ suffix.toList) (name : String) :
    ∃ front, (cut (name ++ suffix)).package = some (name ++ front) := by
  cases hs : splitLast? suffix.toList with
  | none => exact absurd h (splitLast?_eq_none_iff.mp hs)
  | some p =>
    refine ⟨String.ofList p.1, ?_⟩
    unfold cut
    rw [String.toList_append, splitLast?_append_of_splitLast? hs]
    simp only [String.ofList_append, String.ofList_toList]

end DottedName

namespace SourceUnit

/-- The directories of a package, one for each of its segments. -/
def packageDirectories : Option String → List String
  | some package => Directory.segments package
  | none => []

/-- The segments of a full name are those of its package and its simple name. -/
theorem segments_cut (target : String) :
    Directory.segments target =
      packageDirectories (DottedName.cut target).package ++ [(DottedName.cut target).simple] := by
  unfold DottedName.cut
  split
  · next front back h =>
    have hback := List.splitOn_eq_singleton (DottedName.not_mem_of_splitLast? h)
    rw [Directory.segments, DottedName.segments, DottedName.eq_of_splitLast? h,
      List.splitOn_append_cons_self, hback, List.map_append, List.map_singleton]
    simp only [packageDirectories, Directory.segments, DottedName.segments, String.toList_ofList]
  · next h =>
    have htarget := List.splitOn_eq_singleton (DottedName.splitLast?_eq_none_iff.mp h)
    rw [Directory.segments, DottedName.segments, htarget, List.map_singleton,
      String.ofList_toList]
    rfl

/-- **The path of a unit** leads through the directories of its package to a file named
for its simple name. -/
theorem pathOf_eq {unit : SourceUnit} {root path : String}
    (h : Directory.pathOf root unit.target = .ok path) :
    path = FilePath.join root (SourcePath.text
      (packageDirectories unit.package ++ [unit.simpleName ++ ".java"])) := by
  rw [Directory.pathOf] at h
  cases hrow : Directory.components unit.target with
  | error fault =>
    rw [hrow] at h
    simp [Except.map] at h
  | ok row =>
    rw [Directory.components_of_plain (Directory.plain_of_components hrow)
      (segments_cut unit.target)] at h
    rw [← Except.ok.inj h, Directory.fileName, String.append_assoc]
    rfl

end SourceUnit

namespace BuilderClass

/-- What the source of a class starts with: the clause of its package, if it has one,
and the line that opens the class. -/
def declaration (package : Option String) (simple : String) : String :=
  unlines (packageLines package ++ ["public class " ++ simple ++ opening])

/-- A text declares a package and a class when it starts with their declaration. -/
def Declares (text : String) (package : Option String) (simple : String) : Prop :=
  (declaration package simple).toList <+: text.toList

/-- The text of a builder declares the package of its owner and a class named for the
owner with the suffix appended. -/
theorem declares_lines (name : TypeName) (members : List (String × String)) (suffix : String) :
    Declares (unlines (lines name members suffix)) name.package (name.simple ++ suffix) := by
  obtain ⟨package, simple⟩ := name
  cases package with
  | none =>
    simp only [Declares, declaration, lines, packageLines, headLines, List.nil_append,
      List.cons_append, toList_unlines_cons]
    exact (List.prefix_append_right_inj _).mpr (List.cons_prefix_cons.mpr ⟨rfl, List.nil_prefix⟩)
  | some package =>
    simp only [Declares, declaration, lines, packageLines, headLines, List.nil_append,
      List.cons_append, toList_unlines_cons, List.prefix_append_right_inj, List.cons_prefix_cons,
      true_and]
    exact List.nil_prefix

/-- The text of a builder declares no package that is longer than the one of its owner
by a dot and more. -/
theorem not_declares_lines (name : TypeName) (members : List (String × String))
    (suffix front simple : String) :
    ¬ Declares (unlines (lines name members suffix)) (some (name.full ++ front)) simple := by
  obtain ⟨package, ownSimple⟩ := name
  intro h
  cases package with
  | none =>
    -- a text without a package clause starts with another word
    simp only [Declares, declaration, lines, packageLines, headLines, List.nil_append,
      List.cons_append, toList_unlines_cons, String.toList_append, List.append_assoc] at h
    have hsecond := (List.cons_prefix_cons.mp (List.cons_prefix_cons.mp h).2).1
    exact absurd hsecond (by decide)
  | some package =>
    -- the clause ends where the other one goes on with a dot
    simp only [Declares, declaration, lines, packageLines, TypeName.full, List.cons_append,
      toList_unlines_cons, String.toList_append, List.append_assoc,
      List.prefix_append_right_inj] at h
    exact absurd (List.cons_prefix_cons.mp h).1 (by decide)

/-- The builder of a well-formed owner, told by the parts of the owner. -/
theorem render_of_ofOwner {owner : String} {name : TypeName}
    (hname : DottedName.ofOwner owner = .ok name) (members : Members) (suffix : String) :
    render owner members suffix =
      .ok ⟨owner ++ suffix, unlines (lines name members.entries suffix)⟩ := by
  rw [render, hname]
  rfl

theorem unit_of_render {owner suffix : String} {members : Members} {unit : SourceUnit}
    {name : TypeName} (hname : DottedName.ofOwner owner = .ok name)
    (hunit : render owner members suffix = .ok unit) :
    unit = ⟨owner ++ suffix, unlines (lines name members.entries suffix)⟩ :=
  Except.ok.inj (hunit.symm.trans (render_of_ofOwner hname members suffix))

/-- **When the names of a builder agree.**  The package and the simple name of a builder
always give its path.  They are what its text declares, and the package is the one of
the owner, exactly when the suffix has no dot. -/
theorem names_agree_iff {owner suffix : String} {members : Members} {unit : SourceUnit}
    {name : TypeName} (hname : DottedName.ofOwner owner = .ok name)
    (hunit : render owner members suffix = .ok unit) :
    (∀ root path, Directory.pathOf root unit.target = .ok path →
      path = FilePath.join root (SourcePath.text
        (SourceUnit.packageDirectories unit.package ++ [unit.simpleName ++ ".java"]))) ∧
    Declares unit.text name.package (name.simple ++ suffix) ∧
    (Declares unit.text unit.package unit.simpleName ↔ '.' ∉ suffix.toList) ∧
    (unit.package = name.package ↔ '.' ∉ suffix.toList) := by
  have hdeclares := declares_lines name members.entries suffix
  have hcut := DottedName.cut_of_ofOwner hname
  refine ⟨fun root path h => SourceUnit.pathOf_eq h, ?_⟩
  obtain rfl := unit_of_render hname hunit
  refine ⟨hdeclares, ?_⟩
  by_cases hdot : '.' ∈ suffix.toList
  · -- the package reaches into the suffix, so it is longer than the one declared
    obtain ⟨front, hpackage⟩ := DottedName.package_cut_append hdot owner
    have hother : ∀ simple, ¬ Declares (unlines (lines name members.entries suffix))
        (DottedName.cut (owner ++ suffix)).package simple := by
      intro simple
      rw [hpackage, ← DottedName.full_cut owner, hcut]
      exact not_declares_lines name members.entries suffix front simple
    refine ⟨iff_of_false (hother _) (not_not_intro hdot), iff_of_false ?_ (not_not_intro hdot)⟩
    intro heq
    refine hother (name.simple ++ suffix) ?_
    rw [SourceUnit.package] at heq
    rw [heq]
    exact hdeclares
  · have hunit' := DottedName.cut_append hdot owner
    rw [hcut] at hunit'
    refine ⟨iff_of_true ?_ hdot, iff_of_true ?_ hdot⟩
    · rw [SourceUnit.package, SourceUnit.simpleName, hunit']
      exact hdeclares
    · rw [SourceUnit.package, hunit']

/-- A suffix without a dot keeps the builder in the package of its owner. -/
theorem names_agree_iff_plain_suffix :
    let members : Members := ⟨[("setX", "int")], by decide⟩
    DottedName.ofOwner "a.b.C" = .ok ⟨some "a.b", "C"⟩ ∧
      ∃ unit, render "a.b.C" members "Builder" = .ok unit ∧
        Declares unit.text unit.package unit.simpleName ∧ unit.package = some "a.b" := by
  intro members
  have hname : DottedName.ofOwner "a.b.C" = .ok ⟨some "a.b", "C"⟩ := by rfl
  obtain ⟨unit, hunit⟩ : ∃ unit, render "a.b.C" members "Builder" = .ok unit := ⟨_, rfl⟩
  obtain ⟨_, _, hdeclared, hpackage⟩ := names_agree_iff hname hunit
  exact ⟨hname, unit, hunit, hdeclared.mpr (by decide), hpackage.mpr (by decide)⟩

/-- The naming rules take a suffix with a dot.  The builder of `a.C` then lies in the
package `a.C` by its full name and its path, and in the package `a` by its text. -/
theorem names_of_dotted_suffix :
    let members : Members := ⟨[("setX", "int")], by decide⟩
    Naming.ofSettings [.builderSuffix ".B"] = .ok ⟨"set", ".B"⟩ ∧
      DottedName.ofOwner "a.C" = .ok ⟨some "a", "C"⟩ ∧
      ∃ unit, render "a.C" members ".B" = .ok unit ∧
        unit.package = some "a.C" ∧ unit.simpleName = "B" ∧
        Directory.pathOf "out" unit.target = .ok "out/a/C/B.java" ∧
        Declares unit.text (some "a") "C.B" ∧
        ¬ Declares unit.text unit.package unit.simpleName := by
  intro members
  have hname : DottedName.ofOwner "a.C" = .ok ⟨some "a", "C"⟩ := by rfl
  obtain ⟨unit, hunit⟩ : ∃ unit, render "a.C" members ".B" = .ok unit := ⟨_, rfl⟩
  have heq := unit_of_render hname hunit
  have htarget : unit.target = "a.C.B" := by rw [heq]; decide
  have hpackage : unit.package = some "a.C" := by rw [SourceUnit.package, htarget]; decide
  have hsimple : unit.simpleName = "B" := by rw [SourceUnit.simpleName, htarget]; decide
  have hpath : Directory.pathOf "out" unit.target = .ok "out/a/C/B.java" := by rw [htarget]; rfl
  refine ⟨by rfl, hname, unit, hunit, hpackage, hsimple, hpath, ?_, ?_⟩
  · rw [heq]
    exact declares_lines ⟨some "a", "C"⟩ members.entries ".B"
  · rw [hpackage, hsimple, heq]
    exact not_declares_lines ⟨some "a", "C"⟩ members.entries ".B" "" "B"

end BuilderClass
end FluentBuilders
