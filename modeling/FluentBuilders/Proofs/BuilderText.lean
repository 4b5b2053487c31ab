import FluentBuilders.BuilderClass

/-! # Reading builder classes back

The text of a builder tells what it was rendered from, as long as none of the texts
that went into it holds a line feed.  The lines of the text are then the lines that
were rendered (`textLines_unlines`), and each of them has one text between a start and
an end that are known (`between?_append`).  The header of a method alone is ambiguous,
since a name and a type may hold brackets themselves; the call below it gives the name
first, and with the name the header gives the type (`readMethods_methodLines`). -/
namespace FluentBuilders
open Text

namespace DottedName

/-- The parts of a name make up the name. -/
theorem full_cut (name : String) : (cut name).full = name := by
  unfold cut
  split
  · next front back h =>
    apply String.toList_inj.mp
    rw [eq_of_splitLast? h]
    simp only [TypeName.full, String.toList_append, String.toList_ofList, List.append_assoc]
    rfl
  · rfl

/-- What holds of all characters of a name holds of those of its parts. -/
theorem forall_mem_cut {P : Char → Prop} {name : String} (h : ∀ c ∈ name.toList, P c) :
    (∀ package ∈ (cut name).package, ∀ c ∈ package.toList, P c) ∧
      ∀ c ∈ (cut name).simple.toList, P c := by
  unfold cut
  split
  · next front back hsplit =>
    rw [eq_of_splitLast? hsplit, List.forall_mem_append, List.forall_mem_cons] at h
    refine ⟨fun package hpackage => ?_, ?_⟩
    · obtain rfl := Option.some.inj hpackage
      rw [String.toList_ofList]
      exact h.1
    · rw [String.toList_ofList]
      exact h.2.2
  · exact ⟨fun package hpackage => by simp at hpackage, h⟩

end DottedName

namespace BuilderClass

/-! ## Lines -/

/-- A text without line feeds. -/
def OneLine (s : String) : Prop := '\n' ∉ s.toList

instance (s : String) : Decidable (OneLine s) :=
  inferInstanceAs (Decidable ('\n' ∉ s.toList))

theorem oneLine_append {s t : String} : OneLine (s ++ t) ↔ OneLine s ∧ OneLine t := by
  rw [OneLine, String.toList_append, List.mem_append, not_or]
  rfl

/-- The lines of a text; there is an empty one behind the last line feed. -/
def textLines (text : String) : List String :=
  (text.toList.splitOn '\n').map String.ofList

theorem toList_unlines_cons (row : String) (rows : List String) :
    (unlines (row :: rows)).toList = row.toList ++ '\n' :: (unlines rows).toList := by
  rw [unlines, List.map_cons, String.join_cons, String.toList_append, String.toList_append,
    List.append_assoc]
  rfl

theorem textLines_unlines {rows : List String} (h : ∀ row ∈ rows, OneLine row) :
    textLines (unlines rows) = rows ++ [""] := by
  induction rows with
  | nil => rfl
  | cons row rows ih =>
    have hrow : OneLine row := h row List.mem_cons_self
    rw [textLines, toList_unlines_cons, List.splitOn_append_cons_self_of_not_mem hrow,
      List.map_cons, String.ofList_toList]
    exact congrArg (row :: ·) (ih fun r hr => h r (List.mem_cons_of_mem row hr))

/-- What stands in a line between a known start and a known end. -/
def between? (front back line : String) : Option String :=
  let rest := line.toList.drop front.toList.length
  if front.toList <+: line.toList ∧ back.toList <:+ rest then
    some (String.ofList (rest.take (rest.length - back.toList.length)))
  else none

theorem between?_append (front middle back : String) :
    between? front back (front ++ middle ++ back) = some middle := by
  have hrest : (front ++ middle ++ back).toList.drop front.toList.length =
      middle.toList ++ back.toList := by
    rw [String.toList_append, String.toList_append, List.append_assoc, List.drop_left]
  have hfront : front.toList <+: (front ++ middle ++ back).toList := by
    rw [String.toList_append, String.toList_append, List.append_assoc]
    exact List.prefix_append _ _
  have hlength : (middle.toList ++ back.toList).length - back.toList.length =
      middle.toList.length := by
    rw [List.length_append, Nat.add_sub_cancel]
  simp only [between?, hrest, hlength, List.take_left, String.ofList_toList]
  rw [if_pos ⟨hfront, List.suffix_append _ _⟩]

/-! ## The reader -/

/-- What the text of a builder tells. -/
structure Contents where
  package : Option String
  /-- The name of the owner within its package. -/
  simple : String
  /-- The name of the builder within its package. -/
  builder : String
  /-- The methods with the types of their parameters, in the order of the text. -/
  methods : List (String × String)
deriving DecidableEq, Repr

/-- The package that the first lines name, if they name one, and the lines after
that. -/
def readPackage : List String → Option String × List String
  | clause :: gap :: rest =>
    match between? "package " ";" clause with
    | some package => (some package, rest)
    | none => (none, clause :: gap :: rest)
  | rest => (none, rest)

/-- The methods, each given by an empty line and four more. -/
def readMethods (builder : String) : List String → Option (List (String × String))
  | _ :: header :: call :: _ :: _ :: rest =>
    (between? (indent ++ indent ++ "object.") "(value);" call).bind fun method =>
      (between? (indent ++ "public " ++ builder ++ " " ++ method ++ "(") (" value)" ++ opening)
        header).bind fun parameter =>
          (readMethods builder rest).map ((method, parameter) :: ·)
  | _ => some []

/-- What the text of a builder tells, read off the text alone. -/
def readContents (text : String) : Option Contents :=
  let top := readPackage (textLines text)
  match top.2 with
  | header :: _ :: _ :: _ :: build :: _ :: _ :: rest =>
    (between? "public class " opening header).bind fun builder =>
      (between? (indent ++ "public ") (" build()" ++ opening) build).bind fun simple =>
        (readMethods builder rest).map fun methods => ⟨top.1, simple, builder, methods⟩
  | _ => none

/-! ## Reading undoes rendering -/

/-- A line that names a class does not name a package. -/
theorem readPackage_packageLines (package : Option String) (simple builder : String)
    (rest : List String) :
    readPackage (packageLines package ++ (headLines simple builder ++ rest)) =
      (package, headLines simple builder ++ rest) := by
  cases package with
  | some package =>
    rw [packageLines, List.cons_append, List.cons_append, List.nil_append, readPackage,
      between?_append]
  | none =>
    have hclass : ¬ "package ".toList <+: ("public class " ++ builder ++ opening).toList := by
      rw [String.toList_append, String.toList_append, List.append_assoc]
      intro h
      have hsecond := (List.cons_prefix_cons.mp (List.cons_prefix_cons.mp h).2).1
      exact absurd hsecond (by decide)
    have hnone : between? "package " ";" ("public class " ++ builder ++ opening) = none :=
      if_neg fun h => hclass h.1
    rw [packageLines, List.nil_append, headLines, List.cons_append, List.cons_append, readPackage,
      hnone]

/-- **The methods are read back** from the lines of each of them. -/
theorem readMethods_methodLines (builder : String) (members : List (String × String)) :
    readMethods builder
      (members.flatMap (fun member => methodLines builder member.1 member.2) ++
        [closing, ""]) = some members := by
  induction members with
  | nil => rfl
  | cons member members ih =>
    obtain ⟨method, parameter⟩ := member
    have hheader : indent ++ "public " ++ builder ++ " " ++ method ++ "(" ++ parameter ++
        " value)" ++ opening =
          (indent ++ "public " ++ builder ++ " " ++ method ++ "(") ++ parameter ++
            (" value)" ++ opening) := by
      simp only [String.append_assoc]
    rw [List.flatMap_cons, methodLines, List.append_assoc]
    simp only [List.cons_append, List.nil_append]
    -- the call gives the name, and the name tells where the type starts
    rw [readMethods, between?_append, Option.bind_some, hheader, between?_append, Option.bind_some,
      ih, Option.map_some]

/-- What goes into a builder holds no line feed. -/
structure Printable (owner : String) (members : Members) (suffix : String) : Prop where
  owner : OneLine owner
  suffix : OneLine suffix
  members : ∀ member ∈ members.entries, OneLine member.1 ∧ OneLine member.2

theorem oneLine_cut {name : String} (h : OneLine name) :
    (∀ package ∈ (DottedName.cut name).package, OneLine package) ∧
      OneLine (DottedName.cut name).simple := by
  have hname : ∀ c ∈ name.toList, c ≠ '\n' := fun c hc heq => h (heq ▸ hc)
  obtain ⟨hpackage, hsimple⟩ := DottedName.forall_mem_cut hname
  exact ⟨fun package hp hmem => hpackage package hp _ hmem rfl, fun hmem => hsimple _ hmem rfl⟩

/-- The lines of a builder are lines. -/
theorem oneLine_lines {owner suffix : String} {members : Members}
    (h : Printable owner members suffix) :
    ∀ row ∈ lines (DottedName.cut owner) members.entries suffix, OneLine row := by
  obtain ⟨hpackage, hsimple⟩ := oneLine_cut h.owner
  have hbuilder : OneLine ((DottedName.cut owner).simple ++ suffix) :=
    oneLine_append.mpr ⟨hsimple, h.suffix⟩
  have hindent : OneLine indent := by decide
  have hopening : OneLine opening := by decide
  have hclosing : OneLine closing := by decide
  intro row hrow
  rw [lines, List.mem_append, List.mem_append, List.mem_append] at hrow
  rcases hrow with ((hrow | hrow) | hrow) | hrow
  · cases hp : (DottedName.cut owner).package with
    | none => simp [hp, packageLines] at hrow
    | some package =>
      rw [hp, packageLines, List.mem_cons, List.mem_singleton] at hrow
      rcases hrow with rfl | rfl
      · simp only [oneLine_append]
        exact ⟨⟨by decide, hpackage package hp⟩, by decide⟩
      · decide
  · simp only [headLines, List.mem_cons, List.not_mem_nil, or_false] at hrow
    rcases hrow with rfl | rfl | rfl | rfl | rfl | rfl | rfl
    · simp only [oneLine_append] at hbuilder ⊢
      exact ⟨⟨by decide, hbuilder⟩, hopening⟩
    · decide
    · simp only [oneLine_append]
      exact ⟨⟨⟨⟨⟨hindent, by decide⟩, hsimple⟩, by decide⟩, hsimple⟩, by decide⟩
    · decide
    · simp only [oneLine_append]
      exact ⟨⟨⟨⟨hindent, by decide⟩, hsimple⟩, by decide⟩, hopening⟩
    · decide
    · decide
  · obtain ⟨member, hmember, hrow⟩ := List.mem_flatMap.mp hrow
    obtain ⟨hmethod, hparameter⟩ := h.members member hmember
    simp only [methodLines, List.mem_cons, List.not_mem_nil, or_false] at hrow
    rcases hrow with rfl | rfl | rfl | rfl | rfl
    · decide
    · simp only [oneLine_append] at hbuilder ⊢
      exact ⟨⟨⟨⟨⟨⟨⟨⟨hindent, by decide⟩, hbuilder⟩, by decide⟩, hmethod⟩, by decide⟩, hparameter⟩,
        by decide⟩, hopening⟩
    · simp only [oneLine_append]
      exact ⟨⟨⟨⟨hindent, hindent⟩, by decide⟩, hmethod⟩, by decide⟩
    · decide
    · decide
  · rw [List.mem_singleton.mp hrow]
    exact hclosing

/-- The lines of a builder part by part, with the empty one behind the last line feed. -/
theorem lines_append_last (name : TypeName) (members : List (String × String)) (suffix : String) :
    lines name members suffix ++ [""] =
      packageLines name.package ++ (headLines name.simple (name.simple ++ suffix) ++
        (members.flatMap (fun member =>
          methodLines (name.simple ++ suffix) member.1 member.2) ++ [closing, ""])) := by
  simp only [lines, List.append_assoc, List.cons_append, List.nil_append]

theorem readContents_lines {owner suffix : String} {members : Members}
    (h : Printable owner members suffix) :
    readContents (unlines (lines (DottedName.cut owner) members.entries suffix)) =
      some ⟨(DottedName.cut owner).package, (DottedName.cut owner).simple,
        (DottedName.cut owner).simple ++ suffix, members.entries⟩ := by
  generalize hname : DottedName.cut owner = name
  have hlines := textLines_unlines (oneLine_lines h)
  rw [hname] at hlines
  have hbuild : indent ++ "public " ++ name.simple ++ " build()" ++ opening =
      (indent ++ "public ") ++ name.simple ++ (" build()" ++ opening) := by
    simp only [String.append_assoc]
  rw [readContents, hlines, lines_append_last, readPackage_packageLines]
  simp only [headLines, List.cons_append, List.nil_append, between?_append, Option.bind_some,
    hbuild, readMethods_methodLines, Option.map_some]

/-- A rendered text is read back as what was rendered. -/
theorem readContents_of_render {owner suffix : String} {members : Members} {unit : SourceUnit}
    (h : Printable owner members suffix) (hunit : render owner members suffix = .ok unit) :
    readContents unit.text = some ⟨(DottedName.cut owner).package, (DottedName.cut owner).simple,
      (DottedName.cut owner).simple ++ suffix, members.entries⟩ := by
  unfold render at hunit
  cases hname : DottedName.ofOwner owner with
  | error e => rw [hname] at hunit; simp [Except.map] at hunit
  | ok name =>
    rw [hname] at hunit
    simp only [Except.map] at hunit
    injection hunit with hunit
    rw [← hunit, ← DottedName.cut_of_ofOwner hname]
    exact readContents_lines h

/-- **Rendering loses nothing.**  The text of a builder alone tells the package, the
two simple names and the methods with the types of their parameters: one for each name
that has a type, in the order of the bytes of the names.  So no two builders share a
text. -/
theorem readContents_render {owner suffix : String} {members : Members} {name : TypeName}
    (h : Printable owner members suffix) (hname : DottedName.ofOwner owner = .ok name) :
    ∃ unit contents, render owner members suffix = .ok unit ∧
      readContents unit.text = some contents ∧
      contents.package = name.package ∧ contents.simple = name.simple ∧
      contents.builder = name.simple ++ suffix ∧
      (contents.methods.Pairwise fun a b => ByteLt a.1 b.1) ∧
      (∀ method parameter, (method, parameter) ∈ contents.methods ↔
        members.get? method = some parameter) ∧
      ∀ owner' members' suffix' unit', Printable owner' members' suffix' →
        render owner' members' suffix' = .ok unit' → unit'.text = unit.text →
          owner' = owner ∧ members' = members ∧ suffix' = suffix := by
  obtain ⟨unit, hunit⟩ : ∃ unit, render owner members suffix = .ok unit := by
    rw [render, hname]
    exact ⟨_, rfl⟩
  have hread := readContents_of_render h hunit
  rw [DottedName.cut_of_ofOwner hname] at hread
  refine ⟨unit, _, hunit, hread, rfl, rfl, rfl, members.sorted,
    fun method parameter => Members.mem_entries_iff, ?_⟩
  intro owner' members' suffix' unit' h' hunit' htext
  have hread' := readContents_of_render h' hunit'
  rw [htext, hread] at hread'
  injection hread' with hcontents
  injection hcontents with hpackage hsimple hbuilder hmethods
  have hcut : DottedName.cut owner' = name := by
    rw [TypeName.mk.injEq]
    exact ⟨hpackage.symm, hsimple.symm⟩
  refine ⟨?_, ?_, ?_⟩
  · rw [← DottedName.full_cut owner', ← DottedName.full_cut owner, hcut,
      DottedName.cut_of_ofOwner hname]
  · exact Members.ext_get fun method => congrArg (List.lookup method) hmethods.symm
  · rw [hcut, String.append_right_inj] at hbuilder
    exact hbuilder.symm

/-- Two methods with the very same header, since a bracket in the name of one stands in
the type of the other. -/
theorem readContents_render_same_headers :
    let members : Members := ⟨[("set", "a(b"), ("set(a", "b")], by decide⟩
    Printable "p.q.C" members " B" ∧
      DottedName.ofOwner "p.q.C" = .ok ⟨some "p.q", "C"⟩ ∧
      ∃ unit contents, render "p.q.C" members " B" = .ok unit ∧
        readContents unit.text = some contents ∧ contents.builder = "C B" ∧
        (("set(a", "b") ∈ contents.methods) := by
  intro members
  have h : Printable "p.q.C" members " B" := ⟨by decide, by decide, by decide⟩
  have hname : DottedName.ofOwner "p.q.C" = .ok ⟨some "p.q", "C"⟩ := by rfl
  obtain ⟨unit, contents, hunit, hread, -, -, hbuilder, -, hmethods, -⟩ :=
    readContents_render h hname
  exact ⟨h, hname, unit, contents, hunit, hread, hbuilder, (hmethods _ _).mpr rfl⟩

end BuilderClass
end FluentBuilders
