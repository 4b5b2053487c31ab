import FluentBuilders.Members
import FluentBuilders.SourceUnit

/-! # Builder classes

The source of a builder holds one object of the owner, a method that returns it
and one fluent method for each member, in the order of the members.  The text is
a list of lines, each ended by a line feed.
-/
namespace FluentBuilders
namespace BuilderClass

/-- One step of indentation. -/
def indent : String := "    "

/-- Opens a block at the end of a line. -/
def opening : String := " \x7b"

/-- Closes a block. -/
def closing : String := "\x7d"

/-- The clause that names the package, with the empty line after it. -/
def packageLines : Option String → List String
  | some package => ["package " ++ package ++ ";", ""]
  | none => []

/-- The header of the class, the object and the method that returns it. -/
def headLines (simple builder : String) : List String :=
  ["public class " ++ builder ++ opening,
    "",
    indent ++ "private " ++ simple ++ " object = new " ++ simple ++ "();",
    "",
    indent ++ "public " ++ simple ++ " build()" ++ opening,
    indent ++ indent ++ "return object;",
    indent ++ closing]

/-- The method for one member, with the empty line before it. -/
def methodLines (builder method parameter : String) : List String :=
  ["",
    indent ++ "public " ++ builder ++ " " ++ method ++ "(" ++ parameter ++ " value)" ++ opening,
    indent ++ indent ++ "object." ++ method ++ "(value);",
    indent ++ indent ++ "return this;",
    indent ++ closing]

/-- The lines of the builder of an owner. -/
def lines (owner : TypeName) (members : List (String × String)) (suffix : String) :
    List String :=
  let builder := owner.simple ++ suffix
  packageLines owner.package ++ headLines owner.simple builder ++
    members.flatMap (fun member => methodLines builder member.1 member.2) ++ [closing]

/-- Lines as one text, each ended by a line feed. -/
def unlines (lines : List String) : String :=
  String.join (lines.map fun line => line ++ "\n")

/-- The builder of an owner, named for it with the suffix appended. -/
def render (owner : String) (members : Members) (suffix : String) :
    Except OwnerError SourceUnit :=
  (DottedName.ofOwner owner).map fun name =>
    ⟨owner ++ suffix, unlines (lines name members.entries suffix)⟩

/-- Only the name of the owner keeps a builder from being rendered. -/
theorem render_eq_error_iff {owner suffix : String} {members : Members} {e : OwnerError} :
    render owner members suffix = .error e ↔ DottedName.ofOwner owner = .error e := by
  unfold render
  cases DottedName.ofOwner owner with
  | error f => simp [Except.map]
  | ok t => simp [Except.map]

theorem target_of_render {owner suffix : String} {members : Members} {unit : SourceUnit}
    (h : render owner members suffix = .ok unit) : unit.target = owner ++ suffix := by
  unfold render at h
  cases ho : DottedName.ofOwner owner with
  | error f => rw [ho] at h; simp [Except.map] at h
  | ok t =>
    rw [ho] at h
    simp only [Except.map] at h
    injection h with h
    rw [← h]

end BuilderClass
end FluentBuilders
