import FluentBuilders.Proofs.PlainPath

/-! # Ways through a file tree

What walking, making directories and replacing a file do when nothing is in their
way, told by the view of the tree.  Making the directories of a way turns every place
on it into a directory and leaves all others as they were (`makeWay_ok`).  Replacing
a file puts the new one in its place and nothing else: the temporary file it goes
through leaves no trace (`replaceFile_ok`).
-/
namespace FluentBuilders
open FilePath

namespace FileTree

/-! ## Views -/

/-- What has something below it is a directory. -/
theorem view_of_view_append {t : FileTree} {place rest : Location} {node : Node}
    (hrest : rest ≠ []) (h : t.view (place ++ rest) = some node) :
    t.view place = some .directory := by
  induction place generalizing t with
  | nil =>
    obtain ⟨name, rest, rfl⟩ := List.exists_cons_of_ne_nil hrest
    cases t with
    | file content => simp [view, lookup] at h
    | directory entries => rfl
  | cons a place ih =>
    cases t with
    | file content => simp [view, lookup] at h
    | directory entries =>
      rw [List.cons_append, view_cons] at h
      rw [view_cons]
      cases hl : entries.lookup a with
      | none => simp [hl] at h
      | some t =>
        rw [hl, Option.bind_some] at h
        rw [Option.bind_some]
        exact ih h

/-- Every place on the way to a directory is a directory. -/
theorem view_of_above {t : FileTree} {above place : Location} (hp : above <+: place)
    (h : t.view place = some .directory) : t.view above = some .directory := by
  obtain ⟨rest, rfl⟩ := hp
  by_cases hrest : rest = []
  · rw [hrest, List.append_nil] at h
    exact h
  · exact view_of_view_append hrest h

/-- Below anything but a directory there is nothing. -/
theorem view_below_none {t : FileTree} {place rest : Location} (hrest : rest ≠ [])
    (h : t.view place ≠ some .directory) : t.view (place ++ rest) = none := by
  cases hv : t.view (place ++ rest) with
  | none => rfl
  | some node => exact absurd (view_of_view_append hrest hv) h

/-- A tree with nothing below its top. -/
def IsLeaf (t : FileTree) : Prop := ∀ rest, rest ≠ [] → t.view rest = none

theorem isLeaf_file (content : ByteArray) : IsLeaf (.file content) := by
  intro rest hrest
  obtain ⟨name, rest, rfl⟩ := List.exists_cons_of_ne_nil hrest
  rfl

theorem isLeaf_empty : IsLeaf empty := by
  intro rest hrest
  obtain ⟨name, rest, rfl⟩ := List.exists_cons_of_ne_nil hrest
  rfl

theorem view_put_self {t : FileTree} {place : Location} (h : t.view place = some .directory)
    (name : String) (new : FileTree) :
    (t.put (place ++ [name]) new).view (place ++ [name]) = some new.node := by
  rw [view_put_below h]
  cases new <;> rfl

/-- **The view elsewhere after a leaf was put** where no directory was: nothing is
covered by it. -/
theorem view_put_of_ne {t new : FileTree} {place there : Location} {name : String}
    (h : t.view place = some .directory) (hfree : t.view (place ++ [name]) ≠ some .directory)
    (hnew : IsLeaf new) (hne : there ≠ place ++ [name]) :
    (t.put (place ++ [name]) new).view there = t.view there := by
  by_cases hp : place ++ [name] <+: there
  · -- below the leaf there is nothing, as there was before
    obtain ⟨rest, rfl⟩ := hp
    have hrest : rest ≠ [] := fun hr => hne (by rw [hr, List.append_nil])
    rw [view_below_none hrest hfree, List.append_assoc, List.singleton_append, view_put_below h,
      hnew rest hrest]
  · exact view_put_elsewhere h hp new

/-! ## Walking -/

/-- A way that never climbs, through directories, ends where its names lead to. -/
theorem walk_of_view {t : FileTree} {place : Location} {way : List Component}
    (hup : .up ∉ way) (hshort : ∀ n ∈ way.filterMap nameOf, isNameTooLong n = false)
    (h : t.view (place ++ way.filterMap nameOf) = some .directory) :
    walk t place way = .ok (place ++ way.filterMap nameOf) := by
  induction way generalizing place with
  | nil => rw [walk, List.filterMap_nil, List.append_nil]
  | cons c way ih =>
    have hup' : .up ∉ way := fun hm => hup (List.mem_cons_of_mem c hm)
    cases c with
    | stay => exact ih hup' hshort h
    | up => exact absurd List.mem_cons_self hup
    | name name =>
      have hnames : (Component.name name :: way).filterMap nameOf =
          name :: way.filterMap nameOf := rfl
      rw [hnames] at hshort h ⊢
      rw [List.append_cons] at h ⊢
      have hd := view_of_above (List.prefix_append _ _) h
      rw [walk, hshort name List.mem_cons_self, hd]
      exact ih hup' (fun n hn => hshort n (List.mem_cons_of_mem name hn)) h

/-! ## Making directories -/

/-- **Making the directories of a way** on which no file stands: all places on it are
directories then, and all others are as they were. -/
theorem makeWay_ok {t : FileTree} {place : Location} {way : List Component}
    (hup : .up ∉ way) (hshort : ∀ n ∈ way.filterMap nameOf, isNameTooLong n = false)
    (hsettles : Settles way) (hplace : t.view place = some .directory)
    (hfree : ∀ above, above <+: place ++ way.filterMap nameOf → ∀ content,
      t.view above ≠ some (.file content)) (made : Bool) :
    ∃ t', makeWay made place t way = (t', .ok ()) ∧
      (∀ there, there <+: place ++ way.filterMap nameOf → t'.view there = some .directory) ∧
      ∀ there, ¬ there <+: place ++ way.filterMap nameOf → t'.view there = t.view there := by
  induction way generalizing t place made with
  | nil =>
    refine ⟨t, rfl, fun there hp => ?_, fun _ _ => rfl⟩
    rw [List.filterMap_nil, List.append_nil] at hp
    exact view_of_above hp hplace
  | cons c way ih =>
    have hup' : .up ∉ way := fun hm => hup (List.mem_cons_of_mem c hm)
    cases c with
    | stay => exact ih hup' hshort hsettles.of_cons hplace hfree made
    | up => exact absurd List.mem_cons_self hup
    | name name =>
      have hnames : (Component.name name :: way).filterMap nameOf =
          name :: way.filterMap nameOf := rfl
      rw [hnames] at hshort hfree ⊢
      rw [List.append_cons] at hfree ⊢
      have hshort' : ∀ n ∈ way.filterMap nameOf, isNameTooLong n = false :=
        fun n hn => hshort n (List.mem_cons_of_mem name hn)
      have hhere := hfree (place ++ [name]) (List.prefix_append _ _)
      rw [makeWay, hshort name List.mem_cons_self]
      cases hv : t.view (place ++ [name]) with
      | none =>
        -- the directory that is missing is made, which shows nowhere else
        have hnew : t.view (place ++ [name]) ≠ some .directory := by rw [hv]; simp
        have hself := view_put_self hplace name empty
        have hother : ∀ there, there ≠ place ++ [name] →
            (t.put (place ++ [name]) empty).view there = t.view there :=
          fun there hne => view_put_of_ne hplace hnew isLeaf_empty hne
        have hfree' : ∀ above, above <+: place ++ [name] ++ way.filterMap nameOf → ∀ content,
            (t.put (place ++ [name]) empty).view above ≠ some (.file content) := by
          intro above hp content hfile
          by_cases heq : above = place ++ [name]
          · rw [heq, hself] at hfile
            simp [empty, node] at hfile
          · rw [hother above heq] at hfile
            exact hfree above hp content hfile
        obtain ⟨t', hmake, hon, hoff⟩ := ih hup' hshort' hsettles.of_cons hself hfree' true
        refine ⟨t', ?_, hon, fun there hp => ?_⟩
        · simp only [hsettles [] name way rfl, Bool.false_eq_true, if_false, hmake]
        · rw [hoff there hp]
          refine hother there fun heq => hp ?_
          rw [heq]
          exact List.prefix_append _ _
      | some node =>
        cases node with
        | file content => exact absurd hv (hhere content)
        | directory => exact ih hup' hshort' hsettles.of_cons hv hfree made

theorem lookup_of_view_file {t : FileTree} {place : Location} {content : ByteArray}
    (h : t.view place = some (.file content)) : t.lookup place = some (.file content) := by
  rw [view, Option.map_eq_some_iff] at h
  obtain ⟨found, hfound, hnode⟩ := h
  cases found with
  | file content' =>
    injection hnode with hnode
    rw [hfound, hnode]
  | directory entries => simp [node] at hnode

end FileTree

namespace FileSystem

/-- The place that a path leads to. -/
def placeOf (s : FileSystem) (path : String) : Location :=
  s.start path ++ names path

/-- A directory is found at the place of its path. -/
theorem locate_of_view {s : FileSystem} {path : String} (hpath : Descends path)
    (hshort : ∀ n ∈ names path, isNameTooLong n = false)
    (h : s.tree.view (s.placeOf path) = some .directory) :
    s.locate path = .ok (s.placeOf path) :=
  FileTree.walk_of_view hpath hshort h

/-- The last name of a path is looked for in the directory in front of it. -/
theorem approach_of_view {s : FileSystem} {path name : String} {way : List Component}
    (hcheck : check path = .ok ()) (hway : components path = way ++ [.name name])
    (hpath : Descends path) (hshort : ∀ n ∈ names path, isNameTooLong n = false)
    (h : s.tree.view (s.start path ++ way.filterMap nameOf) = some .directory) :
    s.approach path = .ok (s.start path ++ way.filterMap nameOf, some (.name name)) := by
  rw [Descends, hway] at hpath
  rw [names, hway, List.filterMap_append] at hshort
  have hwalk := FileTree.walk_of_view (fun hm => hpath (List.mem_append_left _ hm))
    (fun n hn => hshort n (List.mem_append_left _ hn)) h
  rw [approach, hcheck]
  simp only [hway, List.dropLast_concat, List.getLast?_concat, hwalk]
  rfl

theorem rename_ok {s : FileSystem} {source there : Location} {path name : String}
    {moved : FileTree} (hsource : s.tree.lookup source = some moved)
    (happroach : s.approach path = .ok (there, some (.name name)))
    (hname : isNameTooLong name = false)
    (hfree : FileTree.isDirectory (s.tree.view (there ++ [name])) = false) :
    s.rename source path =
      .ok ⟨(s.tree.remove source).put (there ++ [name]) moved, s.workplace⟩ := by
  rw [rename, hsource, happroach]
  simp only [hname, hfree, Bool.false_eq_true, if_false]

/-- **Replacing a file** that is found in some directory, or is not there yet, puts
the new one in its place and does nothing else. -/
theorem replaceFile_ok {s : FileSystem} {directory path name : String} {place there : Location}
    {content : ByteArray} (hsize : s.isTemporaryTooLong directory = false)
    (hlocate : s.locate directory = .ok place) (hplace : s.tree.view place = some .directory)
    (happroach : ∀ t : FileTree, (∀ p, s.tree.view p = some .directory →
      t.view p = some .directory) →
        (⟨t, s.workplace⟩ : FileSystem).approach path = .ok (there, some (.name name)))
    (hname : isNameTooLong name = false)
    (hfree : s.tree.view (there ++ [name]) ≠ some .directory) :
    s.replaceFile directory path content =
      (⟨s.tree.put (there ++ [name]) (.file content), s.workplace⟩, .ok ()) := by
  -- the temporary file is a new entry, so no directory is lost while it is there
  have hnew := FileTree.view_unusedName hplace
  have hnotDirectory : s.tree.view (place ++ [s.tree.unusedName place]) ≠ some .directory := by
    rw [hnew]; simp
  have hself := FileTree.view_put_self hplace (s.tree.unusedName place) (.file content)
  have hother : ∀ p, p ≠ place ++ [s.tree.unusedName place] →
      (s.tree.put (place ++ [s.tree.unusedName place]) (.file content)).view p = s.tree.view p :=
    fun p hne => FileTree.view_put_of_ne hplace hnotDirectory (FileTree.isLeaf_file content) hne
  have hstaged := happroach (s.tree.put (place ++ [s.tree.unusedName place]) (.file content))
    fun p hp => by
      rw [hother p fun heq => hnotDirectory (heq ▸ hp)]
      exact hp
  have hvacant : FileTree.isDirectory ((s.tree.put (place ++ [s.tree.unusedName place])
      (.file content)).view (there ++ [name])) = false := by
    by_cases heq : there ++ [name] = place ++ [s.tree.unusedName place]
    · rw [heq, hself]
      rfl
    · rw [hother _ heq]
      unfold FileTree.isDirectory
      split
      · next hv => exact absurd hv hfree
      · rfl
  have hrename := rename_ok (FileTree.lookup_of_view_file hself) hstaged hname hvacant
  rw [FileTree.remove_put hplace hnew] at hrename
  rw [replaceFile, hsize, hlocate]
  simp only [Bool.false_eq_true, if_false, hrename]

/-- A fresh file system is nothing but the way to its workplace. -/
theorem view_fresh (workplace there : Location) :
    (fresh workplace).tree.view there = if there <+: workplace then some .directory else none := by
  induction workplace generalizing there with
  | nil =>
    cases there with
    | nil => rfl
    | cons n there => rw [if_neg (by simp)]; rfl
  | cons m workplace ih =>
    have htree : (fresh (m :: workplace)).tree =
        .directory [(m, (fresh workplace).tree)] := rfl
    cases there with
    | nil => rw [if_pos List.nil_prefix]; rfl
    | cons n there =>
      rw [htree, FileTree.view_cons]
      by_cases hn : n = m
      · subst hn
        rw [List.lookup_cons_self, Option.bind_some, ih]
        simp only [List.cons_prefix_cons, true_and]
      · rw [List.lookup_cons, beq_false_of_ne hn, if_neg fun h => hn (List.cons_prefix_cons.mp h).1]
        rfl

end FileSystem
end FluentBuilders
