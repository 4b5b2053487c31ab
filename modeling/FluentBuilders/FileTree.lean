/-! # File trees

A directory is a list of named entries, each a file or a directory; the first
entry of a name is the one that counts.  A location is the names on the way
from the top to an entry, and what stands at each location is the view of a tree
(`FileTree.view`).  Putting an entry changes the view at its location and below
(`view_put_below`) and nowhere else (`view_put_elsewhere`); removing a new entry
again leaves the tree as it was (`remove_put`).
-/
namespace FluentBuilders

/-- A file or a directory. -/
inductive FileTree where
  | file (content : ByteArray)
  | directory (entries : List (String × FileTree))

/-- The entries of a directory. -/
abbrev Entries := List (String × FileTree)

/-- The names on the way from the top of a tree to one of its entries. -/
abbrev Location := List String

/-- What stands at a location. -/
inductive Node where
  | file (content : ByteArray)
  | directory

namespace Entries

/-- Gives a name an entry, in the place of the one it had or at the end. -/
def set (name : String) (tree : FileTree) : Entries → Entries
  | [] => [(name, tree)]
  | e :: rest => if e.1 = name then (name, tree) :: rest else e :: set name tree rest

/-- Removes the first entry of a name. -/
def erase (name : String) : Entries → Entries
  | [] => []
  | e :: rest => if e.1 = name then rest else e :: erase name rest

/-- The length of the longest name. -/
def longestLength (entries : Entries) : Nat :=
  entries.foldr (fun e n => max e.1.length n) 0

/-- A hidden name that no entry has, since it is longer than each of them. -/
def unusedName (entries : Entries) : String :=
  String.ofList ('.' :: List.replicate entries.longestLength '0')

/-- **Look-up after an entry was set.** -/
theorem lookup_set (name : String) (tree : FileTree) (other : String) (entries : Entries) :
    (entries.set name tree).lookup other =
      if other = name then some tree else entries.lookup other := by
  induction entries with
  | nil =>
    by_cases h : other = name
    · simp [set, h]
    · simp [set, List.lookup_cons, h, beq_false_of_ne h]
  | cons e rest ih =>
    obtain ⟨k, t⟩ := e
    rw [set]
    by_cases hk : k = name
    · rw [if_pos hk]
      by_cases h : other = name
      · simp [h]
      · have h' : ¬ other = k := fun ho => h (ho.trans hk)
        simp [List.lookup_cons, h, beq_false_of_ne h, beq_false_of_ne h']
    · rw [if_neg hk]
      by_cases h : other = k
      · have h' : ¬ other = name := fun ho => hk (h.symm.trans ho)
        subst h
        simp [h']
      · rw [List.lookup_cons, beq_false_of_ne h, List.lookup_cons, beq_false_of_ne h]
        exact ih

/-- Setting a name that is not in use and removing it again changes nothing. -/
theorem erase_set {name : String} {tree : FileTree} {entries : Entries}
    (h : entries.lookup name = none) : (entries.set name tree).erase name = entries := by
  induction entries with
  | nil => simp [set, erase]
  | cons e rest ih =>
    obtain ⟨k, t⟩ := e
    rw [List.lookup_cons] at h
    split at h
    · simp at h
    · next hb =>
      have hk : ¬ k = name := fun hk => by simp [hk] at hb
      rw [set, if_neg hk, erase, if_neg hk, ih h]

/-- Of two entries set for one name the later one counts. -/
theorem set_set (name : String) (first second : FileTree) (entries : Entries) :
    (entries.set name first).set name second = entries.set name second := by
  induction entries with
  | nil => simp [set]
  | cons e rest ih =>
    by_cases hk : e.1 = name
    · simp [set, hk]
    · simp [set, hk, ih]

/-- Setting the entry that a name has changes nothing. -/
theorem set_lookup {name : String} {tree : FileTree} {entries : Entries}
    (h : entries.lookup name = some tree) : entries.set name tree = entries := by
  induction entries with
  | nil => simp at h
  | cons e rest ih =>
    obtain ⟨k, t⟩ := e
    rw [List.lookup_cons] at h
    by_cases hk : k = name
    · subst hk
      rw [beq_self_eq_true] at h
      injection h with h
      rw [set, if_pos rfl, h]
    · have hb : (name == k) = false := beq_false_of_ne fun hn => hk hn.symm
      rw [hb] at h
      rw [set, if_neg hk, ih h]

theorem length_le_longestLength {e : String × FileTree} {entries : Entries} (h : e ∈ entries) :
    e.1.length ≤ entries.longestLength := by
  induction entries with
  | nil => simp at h
  | cons f rest ih =>
    rw [longestLength, List.foldr_cons]
    rcases List.mem_cons.mp h with rfl | h
    · exact Nat.le_max_left _ _
    · exact Nat.le_trans (ih h) (Nat.le_max_right _ _)

theorem lookup_eq_none_of_forall {name : String} {entries : Entries}
    (h : ∀ e ∈ entries, e.1 ≠ name) : entries.lookup name = none := by
  induction entries with
  | nil => rfl
  | cons e rest ih =>
    have hne : ¬ name = e.1 := fun he => h e List.mem_cons_self he.symm
    rw [List.lookup_cons, beq_false_of_ne hne]
    exact ih fun a ha => h a (List.mem_cons_of_mem e ha)

/-- The unused name is not in use. -/
theorem lookup_unusedName (entries : Entries) : entries.lookup entries.unusedName = none := by
  refine lookup_eq_none_of_forall fun e he heq => ?_
  have hle := length_le_longestLength he
  have hlen : entries.unusedName.length = entries.longestLength + 1 := by
    rw [unusedName, String.length_ofList, List.length_cons, List.length_replicate]
  rw [heq, hlen] at hle
  exact Nat.not_succ_le_self _ hle

end Entries

namespace FileTree

/-- An empty directory. -/
def empty : FileTree := .directory []

/-- What a tree is, its entries aside. -/
def node : FileTree → Node
  | .file content => .file content
  | .directory _ => .directory

/-- The tree at a location. -/
def lookup : FileTree → Location → Option FileTree
  | t, [] => some t
  | .file _, _ :: _ => none
  | .directory entries, name :: rest =>
    match entries.lookup name with
    | none => none
    | some t => t.lookup rest

/-- What stands at a location. -/
def view (t : FileTree) (there : Location) : Option Node :=
  (t.lookup there).map node

/-- Hangs a new tree in at a location whose directory exists. -/
def put : FileTree → Location → FileTree → FileTree
  | _, [], new => new
  | .file content, _ :: _, _ => .file content
  | .directory entries, name :: rest, new =>
    match entries.lookup name with
    | some t => .directory (Entries.set name (t.put rest new) entries)
    | none => .directory (if rest.isEmpty then Entries.set name new entries else entries)

/-- Removes what stands at a location. -/
def remove : FileTree → Location → FileTree
  | t, [] => t
  | .file content, _ :: _ => .file content
  | .directory entries, name :: rest =>
    if rest.isEmpty then .directory (Entries.erase name entries)
    else
      match entries.lookup name with
      | some t => .directory (Entries.set name (t.remove rest) entries)
      | none => .directory entries

/-- A name that no entry of the directory at a location has. -/
def unusedName (t : FileTree) (there : Location) : String :=
  match t.lookup there with
  | some (.directory entries) => Entries.unusedName entries
  | _ => ""

theorem view_cons (entries : Entries) (name : String) (rest : Location) :
    (directory entries).view (name :: rest) = (entries.lookup name).bind fun t => t.view rest := by
  unfold view
  rw [lookup]
  cases entries.lookup name <;> rfl

/-- A tree whose top is a directory has entries. -/
theorem exists_entries_of_view {t : FileTree} (h : t.view [] = some .directory) :
    ∃ entries, t = .directory entries := by
  cases t with
  | file content => simp [view, lookup, node] at h
  | directory entries => exact ⟨entries, rfl⟩

/-- A directory lies in a directory. -/
theorem view_dropLast {t : FileTree} {place : Location} (h : t.view place = some .directory) :
    t.view place.dropLast = some .directory := by
  induction place generalizing t with
  | nil => exact h
  | cons a place ih =>
    cases t with
    | file content => simp [view, lookup] at h
    | directory entries =>
      cases place with
      | nil => rfl
      | cons b place =>
        rw [view_cons] at h
        rw [List.dropLast_cons_cons, view_cons]
        cases hl : entries.lookup a with
        | none => simp [hl] at h
        | some t =>
          rw [hl, Option.bind_some] at h
          rw [Option.bind_some]
          exact ih h

/-- **The view at and below an entry that was put.** -/
theorem view_put_below {t : FileTree} {place : Location} (h : t.view place = some .directory)
    (name : String) (new : FileTree) (rest : Location) :
    (t.put (place ++ [name]) new).view (place ++ name :: rest) = new.view rest := by
  induction place generalizing t with
  | nil =>
    obtain ⟨entries, rfl⟩ := exists_entries_of_view h
    rw [List.nil_append, List.nil_append, put]
    cases hl : entries.lookup name with
    | some t => simp [view_cons, Entries.lookup_set, put]
    | none => simp [view_cons, Entries.lookup_set]
  | cons a place ih =>
    cases t with
    | file content => simp [view, lookup] at h
    | directory entries =>
      rw [view_cons] at h
      rw [List.cons_append, List.cons_append, put]
      cases hl : entries.lookup a with
      | none => simp [hl] at h
      | some t =>
        rw [hl, Option.bind_some] at h
        simp [view_cons, Entries.lookup_set, ih h]

/-- **The view elsewhere after an entry was put.** -/
theorem view_put_elsewhere {t : FileTree} {place there : Location} {name : String}
    (h : t.view place = some .directory) (hne : ¬ place ++ [name] <+: there) (new : FileTree) :
    (t.put (place ++ [name]) new).view there = t.view there := by
  induction place generalizing t there with
  | nil =>
    obtain ⟨entries, rfl⟩ := exists_entries_of_view h
    cases there with
    | nil =>
      rw [List.nil_append, put]
      cases entries.lookup name <;> rfl
    | cons b there =>
      have hb : ¬ b = name := fun hb => hne (by simp [hb])
      rw [List.nil_append, put]
      cases hl : entries.lookup name with
      | some t => simp [view_cons, Entries.lookup_set, hb]
      | none => simp [view_cons, Entries.lookup_set, hb]
  | cons a place ih =>
    cases t with
    | file content => simp [view, lookup] at h
    | directory entries =>
      rw [view_cons] at h
      rw [List.cons_append, put]
      cases hl : entries.lookup a with
      | none => simp [hl] at h
      | some t =>
        rw [hl, Option.bind_some] at h
        cases there with
        | nil => rfl
        | cons b there =>
          rw [view_cons, view_cons, Entries.lookup_set]
          by_cases hb : b = a
          · subst hb
            have hne' : ¬ place ++ [name] <+: there := fun hp =>
              hne (by simpa using hp)
            simp [hl, ih h hne']
          · simp [hb]

/-- An entry that was not there and is removed again leaves the tree as it
was. -/
theorem remove_put {t : FileTree} {place : Location} {name : String}
    (h : t.view place = some .directory) (hnew : t.view (place ++ [name]) = none)
    (new : FileTree) :
    (t.put (place ++ [name]) new).remove (place ++ [name]) = t := by
  induction place generalizing t with
  | nil =>
    obtain ⟨entries, rfl⟩ := exists_entries_of_view h
    rw [List.nil_append, view_cons] at hnew
    cases hl : entries.lookup name with
    | some t => simp [hl, view, lookup] at hnew
    | none => simp [put, hl, remove, Entries.erase_set hl]
  | cons a place ih =>
    cases t with
    | file content => simp [view, lookup] at h
    | directory entries =>
      rw [view_cons] at h
      rw [List.cons_append, view_cons] at hnew
      cases hl : entries.lookup a with
      | none => simp [hl] at h
      | some t =>
        rw [hl, Option.bind_some] at h hnew
        have hi := ih h hnew
        simp [put, hl, remove, Entries.lookup_set, Entries.set_set, hi, Entries.set_lookup hl]

/-- The unused name of a directory is not in use. -/
theorem view_unusedName {t : FileTree} {place : Location} (h : t.view place = some .directory) :
    t.view (place ++ [t.unusedName place]) = none := by
  induction place generalizing t with
  | nil =>
    obtain ⟨entries, rfl⟩ := exists_entries_of_view h
    rw [List.nil_append, view_cons]
    have hn : unusedName (directory entries) [] = Entries.unusedName entries := rfl
    rw [hn, Entries.lookup_unusedName]
    rfl
  | cons a place ih =>
    cases t with
    | file content => simp [view, lookup] at h
    | directory entries =>
      rw [view_cons] at h
      cases hl : entries.lookup a with
      | none => simp [hl] at h
      | some t =>
        rw [hl, Option.bind_some] at h
        have hn : unusedName (directory entries) (a :: place) = t.unusedName place := by
          unfold unusedName
          rw [lookup, hl]
        rw [hn, List.cons_append, view_cons, hl, Option.bind_some]
        exact ih h

/-! ## Listing -/

mutual

/-- Everything below a place, the place included; a directory has no content and
a separator behind its path. -/
def listing (place : String) : FileTree → List (String × Option ByteArray)
  | .file content => [(place, some content)]
  | .directory entries => (place ++ "/", none) :: listingEntries (place ++ "/") entries

/-- Everything below a directory, given its path with the separator. -/
def listingEntries (place : String) :
    List (String × FileTree) → List (String × Option ByteArray)
  | [] => []
  | (name, t) :: rest => listing (place ++ name) t ++ listingEntries place rest

end

/-- Everything below the top of a tree. -/
def contents : FileTree → List (String × Option ByteArray)
  | .file _ => []
  | .directory entries => listingEntries "" entries

end FileTree
end FluentBuilders
