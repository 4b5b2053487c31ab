import Mathlib.Data.List.Chain
import FluentBuilders.Proofs.Brackets
import FluentBuilders.Proofs.UnitNames
import FluentBuilders.Text.Blank

/-! # The braces of a builder

What goes into a builder is put into its text as it is, so a bracket in it would be a
bracket of the text.  Without such brackets the text of a builder is a class with a block
for each method and for the one that returns the object (`isClass_render`).

The text is made of frames, lines around a block that is closed at the end of them
(`toList_unlines_frame`).  Each method is a frame of lines without braces, the methods
together are the body, and the class is a frame around it.  Every frame of a method starts
with an empty line and ends with a line that is not, so no two blank lines meet
(`spaced_lines`). -/
namespace FluentBuilders
namespace BuilderClass

/-! ## The body of a builder -/

/-- What goes into a builder holds no bracket. -/
structure BracketFree (owner : String) (members : Members) (suffix : String) : Prop where
  owner : Unbracketed owner.toList
  suffix : Unbracketed suffix.toList
  members : ∀ member ∈ members.entries,
    Unbracketed member.1.toList ∧ Unbracketed member.2.toList

theorem unbracketed_append {s t : String} :
    Unbracketed (s ++ t).toList ↔ Unbracketed s.toList ∧ Unbracketed t.toList := by
  rw [Unbracketed, String.toList_append, List.forall_mem_append]
  rfl

theorem nested_append {height : Nat} {s t : String} (hs : Nested height s.toList)
    (ht : Nested height t.toList) : Nested height (s ++ t).toList := by
  rw [String.toList_append]
  exact hs.append ht

theorem nested_parens {height : Nat} {inner : String} (h : Nested height inner.toList) :
    Nested height ("(" ++ inner ++ ")").toList := by
  rw [String.toList_append, String.toList_append, List.append_assoc]
  exact .round h .nil

/-- A line that ends in a call. -/
theorem nested_call (word inner last : String) {before call : String}
    (hcall : call = word ++ ("(" ++ inner ++ ")") ++ last) (hbefore : Unbracketed before.toList)
    (hword : Unbracketed word.toList) (hinner : Unbracketed inner.toList)
    (hlast : Unbracketed last.toList) : Nested 0 (before ++ call).toList := by
  have hparens := nested_parens (hinner.nested 0)
  rw [hcall]
  exact nested_append (hbefore.nested 0)
    (nested_append (nested_append (hword.nested 0) hparens) (hlast.nested 0))

theorem nested_unlines {height : Nat} {rows : List String}
    (h : ∀ row ∈ rows, Nested height row.toList) : Nested height (unlines rows).toList := by
  induction rows with
  | nil => exact .nil
  | cons row rows ih =>
    obtain ⟨hrow, hrows⟩ := List.forall_mem_cons.mp h
    rw [toList_unlines_cons]
    exact hrow.append (.plain (by decide) (ih hrows))

theorem toList_unlines_append (rows rows' : List String) :
    (unlines (rows ++ rows')).toList = (unlines rows).toList ++ (unlines rows').toList := by
  induction rows with
  | nil => rfl
  | cons row rows ih =>
    rw [List.cons_append, toList_unlines_cons, toList_unlines_cons, ih, List.append_assoc,
      List.cons_append]

theorem toList_opening : opening.toList = [' ', '\x7b'] := by decide

/-- Lines around a block that is closed at their end. -/
theorem toList_unlines_frame (rows inner : List String) (header margin : String) :
    (unlines (rows ++ (header ++ opening) :: (inner ++ [margin ++ closing]))).toList =
      ((unlines rows).toList ++ (header.toList ++ [' '])) ++
        '\x7b' :: ('\n' :: ((unlines inner).toList ++ margin.toList) ++ ['\x7d', '\n']) := by
  have hlast : (unlines [margin ++ closing]).toList = margin.toList ++ ['\x7d', '\n'] := by
    rw [toList_unlines_cons, String.toList_append, List.append_assoc]
    rfl
  rw [toList_unlines_append, toList_unlines_cons, toList_unlines_append, hlast,
    String.toList_append, toList_opening]
  simp only [List.append_assoc, List.cons_append, List.nil_append]

/-- Lines without braces around a block of such lines are a piece of a body. -/
theorem isBody_unlines_frame {rows inner : List String} {header margin : String}
    (hrows : ∀ row ∈ rows, Nested 0 row.toList) (hheader : Nested 0 header.toList)
    (hinner : ∀ row ∈ inner, Nested 0 row.toList) (hmargin : Nested 0 margin.toList) :
    IsBody 1
      (unlines (rows ++ (header ++ opening) :: (inner ++ [margin ++ closing]))).toList := by
  have hblank : Nested 0 [' '] := Unbracketed.nested (by decide) 0
  rw [toList_unlines_frame]
  exact isBody_frame ((nested_unlines hrows).append (hheader.append hblank))
    (.plain (by decide) ((nested_unlines hinner).append hmargin)) (nested_lineFeed 0)

/-- **A method is one block.** -/
theorem isBody_methodLines {builder method parameter : String}
    (hbuilder : Unbracketed builder.toList) (hmethod : Unbracketed method.toList)
    (hparameter : Unbracketed parameter.toList) :
    IsBody 1 (unlines (methodLines builder method parameter)).toList := by
  have hindent : Unbracketed indent.toList := by decide
  have hfront : Unbracketed (indent ++ "public " ++ builder ++ " " ++ method).toList := by
    simp only [unbracketed_append]
    exact ⟨⟨⟨⟨hindent, by decide⟩, hbuilder⟩, by decide⟩, hmethod⟩
  have hvalue : Unbracketed (parameter ++ " value").toList :=
    unbracketed_append.mpr ⟨hparameter, by decide⟩
  have hobject : Unbracketed (indent ++ indent ++ "object." ++ method).toList := by
    simp only [unbracketed_append]
    exact ⟨⟨⟨hindent, hindent⟩, by decide⟩, hmethod⟩
  have hreturn : Unbracketed (indent ++ indent ++ "return this;").toList := by decide
  have hcall : Nested 0 (indent ++ indent ++ "object." ++ method ++ "(value);").toList :=
    nested_call "" "value" ";" (by decide) hobject (by decide) (by decide) (by decide)
  have hheader := nested_append (hfront.nested 0) (nested_parens (hvalue.nested 0))
  -- the header with the parentheses around its parameter in one piece
  have hrows : methodLines builder method parameter =
      [""] ++ (indent ++ "public " ++ builder ++ " " ++ method ++
        ("(" ++ (parameter ++ " value") ++ ")") ++ opening) ::
          ([indent ++ indent ++ "object." ++ method ++ "(value);",
            indent ++ indent ++ "return this;"] ++ [indent ++ closing]) := by
    have hclose : " value)" = " value" ++ ")" := by decide
    rw [methodLines, hclose]
    simp only [String.append_assoc, List.cons_append, List.nil_append]
  rw [hrows]
  refine isBody_unlines_frame ?_ hheader ?_ (hindent.nested 0)
  · exact List.forall_mem_singleton.mpr .nil
  · rw [List.forall_mem_cons, List.forall_mem_singleton]
    exact ⟨hcall, hreturn.nested 0⟩

/-- The object needs no block, and the method that returns it is one. -/
theorem isBody_headLines_tail {simple : String} (hsimple : Unbracketed simple.toList)
    (builder : String) : IsBody 1 (unlines (headLines simple builder).tail).toList := by
  have hindent : Unbracketed indent.toList := by decide
  have hobject : Nested 0
      (indent ++ "private " ++ simple ++ " object = new " ++ simple ++ "();").toList := by
    have hfront : Unbracketed
        (indent ++ "private " ++ simple ++ " object = new " ++ simple).toList := by
      simp only [unbracketed_append]
      exact ⟨⟨⟨⟨hindent, by decide⟩, hsimple⟩, by decide⟩, hsimple⟩
    exact nested_call "" "" ";" (by decide) hfront (by decide) (by decide) (by decide)
  have hheader : Nested 0 (indent ++ "public " ++ simple ++ " build()").toList := by
    have hfront : Unbracketed (indent ++ "public " ++ simple).toList := by
      simp only [unbracketed_append]
      exact ⟨⟨hindent, by decide⟩, hsimple⟩
    exact nested_call " build" "" "" (by decide) hfront (by decide) (by decide) (by decide)
  have hreturn : Unbracketed (indent ++ indent ++ "return object;").toList := by decide
  have hrows : (headLines simple builder).tail =
      ["", indent ++ "private " ++ simple ++ " object = new " ++ simple ++ "();", ""] ++
        (indent ++ "public " ++ simple ++ " build()" ++ opening) ::
          ([indent ++ indent ++ "return object;"] ++ [indent ++ closing]) := rfl
  rw [hrows]
  refine isBody_unlines_frame ?_ hheader ?_ (hindent.nested 0)
  · rw [List.forall_mem_cons, List.forall_mem_cons, List.forall_mem_singleton]
    exact ⟨.nil, hobject, .nil⟩
  · exact List.forall_mem_singleton.mpr (hreturn.nested 0)

/-- **The methods are as many blocks.** -/
theorem isBody_methods {builder : String} (hbuilder : Unbracketed builder.toList)
    {members : List (String × String)}
    (h : ∀ member ∈ members, Unbracketed member.1.toList ∧ Unbracketed member.2.toList) :
    IsBody members.length
      (unlines (members.flatMap fun member => methodLines builder member.1 member.2)).toList := by
  induction members with
  | nil => exact isBody_nil
  | cons member members ih =>
    obtain ⟨⟨hmethod, hparameter⟩, hmembers⟩ := List.forall_mem_cons.mp h
    rw [List.flatMap_cons, toList_unlines_append, List.length_cons, Nat.add_comm]
    exact (isBody_methodLines hbuilder hmethod hparameter).append (ih hmembers)

/-- The lines between the header of the class and its end. -/
def bodyLines (simple builder : String) (members : List (String × String)) : List String :=
  (headLines simple builder).tail ++
    members.flatMap fun member => methodLines builder member.1 member.2

/-- The body has a block for each member and one more. -/
theorem isBody_bodyLines {simple builder : String} {members : List (String × String)}
    (hsimple : Unbracketed simple.toList) (hbuilder : Unbracketed builder.toList)
    (hmembers : ∀ member ∈ members,
      Unbracketed member.1.toList ∧ Unbracketed member.2.toList) :
    IsBody (members.length + 1) ('\n' :: (unlines (bodyLines simple builder members)).toList) := by
  have hlineFeed : IsBody 0 ['\n'] := ⟨nested_lineFeed 1, rfl⟩
  have hbody := hlineFeed.append
    ((isBody_headLines_tail hsimple builder).append (isBody_methods hbuilder hmembers))
  have hcount : 0 + (1 + members.length) = members.length + 1 := by omega
  rwa [← toList_unlines_append, hcount] at hbody

/-- What the text of a builder has in front of the body of its class. -/
def classFront (name : TypeName) (suffix : String) : List Char :=
  (unlines (packageLines name.package)).toList ++
    (("public class " ++ (name.simple ++ suffix)).toList ++ [' '])

/-- The declaration of a class opens its body. -/
theorem toList_declaration (name : TypeName) (suffix : String) :
    (declaration name.package (name.simple ++ suffix)).toList =
      classFront name suffix ++ ['\x7b', '\n'] := by
  rw [declaration, classFront, toList_unlines_append, toList_unlines_cons, String.toList_append,
    toList_opening]
  simp only [List.append_assoc, List.cons_append, List.nil_append]
  rfl

theorem nested_classFront {name : TypeName} {suffix : String}
    (hpackage : ∀ package ∈ name.package, Unbracketed package.toList)
    (hsimple : Unbracketed name.simple.toList) (hsuffix : Unbracketed suffix.toList) :
    Nested 0 (classFront name suffix) := by
  have hclause : Nested 0 (unlines (packageLines name.package)).toList := by
    refine nested_unlines fun row hrow => ?_
    cases hp : name.package with
    | none => simp [hp, packageLines] at hrow
    | some package =>
      rw [hp, packageLines, List.mem_cons, List.mem_singleton] at hrow
      rcases hrow with rfl | rfl
      · refine Unbracketed.nested ?_ 0
        simp only [unbracketed_append]
        exact ⟨⟨by decide, hpackage package hp⟩, by decide⟩
      · exact .nil
  have hclass : Unbracketed ("public class " ++ (name.simple ++ suffix)).toList := by
    simp only [unbracketed_append]
    exact ⟨by decide, hsimple, hsuffix⟩
  exact hclause.append ((hclass.nested 0).append (Unbracketed.nested (by decide) 0))

/-- The text of a builder is a class with a block for each member and one more. -/
theorem isClass_lines {name : TypeName} {suffix : String} {members : List (String × String)}
    (hpackage : ∀ package ∈ name.package, Unbracketed package.toList)
    (hsimple : Unbracketed name.simple.toList) (hsuffix : Unbracketed suffix.toList)
    (hmembers : ∀ member ∈ members,
      Unbracketed member.1.toList ∧ Unbracketed member.2.toList) :
    ∃ body, IsClass (classFront name suffix) body (members.length + 1)
      (unlines (lines name members suffix)).toList := by
  have hbuilder : Unbracketed (name.simple ++ suffix).toList :=
    unbracketed_append.mpr ⟨hsimple, hsuffix⟩
  have hlines : lines name members suffix =
      packageLines name.package ++ (("public class " ++ (name.simple ++ suffix)) ++ opening) ::
        (bodyLines name.simple (name.simple ++ suffix) members ++ ["" ++ closing]) := by
    simp only [lines, headLines, bodyLines, List.tail_cons, List.append_assoc, List.cons_append,
      List.nil_append]
    rfl
  have hmargin : ("" : String).toList = [] := rfl
  rw [hlines, toList_unlines_frame, hmargin, List.append_nil]
  exact ⟨_, (isBody_bodyLines hsimple hbuilder hmembers).isClass
    (nested_classFront hpackage hsimple hsuffix)⟩

/-! ## Blank lines -/

/-- A line with nothing but blanks on it. -/
def IsBlankLine (row : String) : Prop := ∀ c ∈ row.toList, Text.isBlank c = true

instance (row : String) : Decidable (IsBlankLine row) :=
  List.decidableBAll (fun c => Text.isBlank c = true) row.toList

/-- No two blank lines in a row. -/
def Spaced (rows : List String) : Prop :=
  rows.IsChain fun above below => ¬ (IsBlankLine above ∧ IsBlankLine below)

theorem not_isBlankLine_append (s : String) {t : String} (h : ¬ IsBlankLine t) :
    ¬ IsBlankLine (s ++ t) := by
  intro hst
  refine h fun c hc => hst c ?_
  rw [String.toList_append]
  exact List.mem_append_right _ hc

theorem Spaced.cons {row : String} {rows : List String} (hrow : ¬ IsBlankLine row)
    (h : Spaced rows) : Spaced (row :: rows) :=
  List.isChain_cons.mpr ⟨fun _ _ hblank => hrow hblank.1, h⟩

/-- A blank line may stand above one that is not blank. -/
theorem Spaced.gap {row : String} {rows : List String} (hrow : ¬ IsBlankLine row)
    (h : Spaced rows) (above : String) : Spaced (above :: row :: rows) :=
  List.isChain_cons_cons.mpr ⟨fun hblank => hrow hblank.2, h.cons hrow⟩

theorem spaced_methods {rows : List String} (hrows : Spaced rows) (builder : String)
    (members : List (String × String)) :
    Spaced (members.flatMap (fun member => methodLines builder member.1 member.2) ++ rows) := by
  have hopening : ¬ IsBlankLine opening := by decide
  have hcall : ¬ IsBlankLine "(value);" := by decide
  have hreturn : ¬ IsBlankLine (indent ++ indent ++ "return this;") := by decide
  have hclosing : ¬ IsBlankLine (indent ++ closing) := by decide
  induction members with
  | nil => exact hrows
  | cons member members ih =>
    rw [List.flatMap_cons, List.append_assoc]
    have hcalls := Spaced.cons (not_isBlankLine_append (indent ++ indent ++ "object." ++ member.1)
      hcall) ((ih.cons hclosing).cons hreturn)
    exact hcalls.gap (not_isBlankLine_append _ hopening) ""

/-- **No two blank lines in a row** stand in the text of a builder. -/
theorem spaced_lines (name : TypeName) (members : List (String × String)) (suffix : String) :
    Spaced (lines name members suffix ++ [""]) := by
  have hopening : ¬ IsBlankLine opening := by decide
  have hobject : ¬ IsBlankLine "();" := by decide
  have hreturn : ¬ IsBlankLine (indent ++ indent ++ "return object;") := by decide
  have hclosing : ¬ IsBlankLine (indent ++ closing) := by decide
  have hend : Spaced [closing, ""] := (List.isChain_singleton _).cons (by decide)
  have hmethods := spaced_methods hend (name.simple ++ suffix) members
  have hbuild := ((hmethods.cons hclosing).cons hreturn).gap
    (not_isBlankLine_append (indent ++ "public " ++ name.simple ++ " build()") hopening) ""
  have hbody := hbuild.gap (not_isBlankLine_append
    (indent ++ "private " ++ name.simple ++ " object = new " ++ name.simple) hobject) ""
  have hheader := not_isBlankLine_append ("public class " ++ (name.simple ++ suffix)) hopening
  rw [lines_append_last]
  cases name.package with
  | none => exact hbody.cons hheader
  | some package =>
    have hclause := not_isBlankLine_append ("package " ++ package) (by decide : ¬ IsBlankLine ";")
    exact (hbody.gap hheader "").cons hclause

/-! ## The text of a builder -/

/-- **The brackets of a builder.**  When nothing that goes into a builder holds a bracket,
its text is a class, opened where the text declares it, with one block for each member and
one for the method that returns the object.  When nothing holds a line feed either, the
text has no two blank lines in a row and ends in one line feed. -/
theorem isClass_render {owner suffix : String} {members : Members} {name : TypeName}
    (hname : DottedName.ofOwner owner = .ok name) (h : BracketFree owner members suffix) :
    ∃ unit front body, render owner members suffix = .ok unit ∧
      (declaration name.package (name.simple ++ suffix)).toList = front ++ ['\x7b', '\n'] ∧
      IsClass front body (members.size + 1) unit.text.toList ∧
      (Printable owner members suffix → Spaced (textLines unit.text) ∧
        ['\n'] <:+ unit.text.toList ∧ ¬ ['\n', '\n'] <:+ unit.text.toList) := by
  have hcut := DottedName.cut_of_ofOwner hname
  obtain ⟨hpackage, hsimple⟩ := DottedName.forall_mem_cut h.owner
  rw [hcut] at hpackage hsimple
  obtain ⟨body, hclass⟩ := isClass_lines hpackage hsimple h.suffix h.members
  refine ⟨_, _, body, render_of_ofOwner hname members suffix, toList_declaration name suffix,
    hclass, fun hprintable => ?_⟩
  have hlines := textLines_unlines (oneLine_lines hprintable)
  rw [hcut] at hlines
  refine ⟨?_, ?_⟩
  · rw [hlines]
    exact spaced_lines name members.entries suffix
  · -- the text ends in the brace that closes the class and a line feed
    have hend : ['\x7d', '\n'] <:+ (unlines (lines name members.entries suffix)).toList :=
      ⟨classFront name suffix ++ '\x7b' :: body, by simp [hclass.text_eq]⟩
    refine ⟨(List.suffix_cons _ _).trans hend, fun hdouble => ?_⟩
    have heq := (List.suffix_of_suffix_length_le hdouble hend (Nat.le_refl 2)).eq_of_length rfl
    exact absurd heq (by decide)

/-- Two methods and the one that returns the object. -/
theorem isClass_render_two_members :
    let members : Members := ⟨[("setX", "int"), ("setY", "int")], by decide⟩
    DottedName.ofOwner "a.C" = .ok ⟨some "a", "C"⟩ ∧
      BracketFree "a.C" members "Builder" ∧ Printable "a.C" members "Builder" ∧
      ∃ unit, render "a.C" members "Builder" = .ok unit ∧ Nested 2 unit.text.toList ∧
        rises 0 unit.text.toList = 3 ∧ Spaced (textLines unit.text) := by
  intro members
  have hname : DottedName.ofOwner "a.C" = .ok ⟨some "a", "C"⟩ := by rfl
  have hfree : BracketFree "a.C" members "Builder" := ⟨by decide, by decide, by decide⟩
  have hprintable : Printable "a.C" members "Builder" := ⟨by decide, by decide, by decide⟩
  obtain ⟨unit, front, body, hunit, -, hclass, hlines⟩ := isClass_render hname hfree
  exact ⟨hname, hfree, hprintable, unit, hunit, hclass.nested, hclass.rises_eq,
    (hlines hprintable).1⟩

end BuilderClass
end FluentBuilders
