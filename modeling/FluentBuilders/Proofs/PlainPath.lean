import FluentBuilders.Directory

/-! # Texts of paths

The text of a path told by its components.  Joining texts joins their components
(`components_join`), a row of names is cut into the names again
(`components_text`), and trimming takes away nothing but separators and components
that stay, and leaves none of them behind a name (`trimmed_spec`). -/
namespace FluentBuilders
namespace FilePath

/-! ## Components -/

/-- The name that a component gives, if it gives one. -/
def nameOf : Component → Option String
  | .name text => some text
  | _ => none

/-- The names that a path leads through. -/
def names (path : String) : Location :=
  (components path).filterMap nameOf

/-- A path that never climbs. -/
def Descends (path : String) : Prop := Component.up ∉ components path

instance (path : String) : Decidable (Descends path) :=
  inferInstanceAs (Decidable (Component.up ∉ components path))

theorem components_empty : components "" = [] := by decide

/-- The components of two texts with a separator between them. -/
theorem components_separated (a b : String) :
    components (a ++ "/" ++ b) = components a ++ components b := by
  have hs : (a ++ "/" ++ b).toList = a.toList ++ '/' :: b.toList := by
    simp only [String.toList_append, List.append_assoc]
    rfl
  rw [components, hs, List.splitOn_append_cons_self, List.filter_append, List.map_append]
  rfl

theorem eq_of_endsInSeparator {path : String} (h : endsInSeparator path = true) :
    ∃ front, path = front ++ "/" := by
  rw [endsInSeparator, beq_iff_eq] at h
  obtain ⟨front, hfront⟩ := List.getLast?_eq_some_iff.mp h
  refine ⟨String.ofList front, String.toList_inj.mp ?_⟩
  rw [hfront, String.toList_append, String.toList_ofList]
  rfl

theorem components_join (directory path : String) :
    components (join directory path) = components directory ++ components path := by
  unfold join
  split
  · next h => rw [h, components_empty, List.nil_append]
  · split
    · next h =>
      obtain ⟨front, rfl⟩ := eq_of_endsInSeparator h
      have hfront := components_separated front ""
      rw [components_empty, List.append_nil, String.append_empty] at hfront
      rw [components_separated, hfront]
    · exact components_separated directory path

theorem names_join (directory path : String) :
    names (join directory path) = names directory ++ names path := by
  rw [names, components_join, List.filterMap_append]
  rfl

theorem descends_join {directory path : String} (hd : Descends directory) (hp : Descends path) :
    Descends (join directory path) := by
  rw [Descends, components_join, List.mem_append]
  exact fun h => h.elim hd hp

theorem isAbsolute_append {front : String} (h : front ≠ "") (tail : String) :
    isAbsolute (front ++ tail) = isAbsolute front := by
  have hne : front.toList ≠ [] := fun hl => h (String.toList_inj.mp hl)
  obtain ⟨c, rest, hc⟩ := List.exists_cons_of_ne_nil hne
  rw [isAbsolute, isAbsolute, String.toList_append, hc]
  rfl

theorem isAbsolute_join {directory : String} (h : directory ≠ "") (path : String) :
    isAbsolute (join directory path) = isAbsolute directory := by
  rw [join, if_neg h]
  split
  · exact isAbsolute_append h path
  · rw [String.append_assoc]
    exact isAbsolute_append h _

/-! ## Texts of names -/

/-- A text that can be the name of an entry. -/
structure IsName (name : String) : Prop where
  nonempty : name ≠ ""
  plain : '/' ∉ name.toList
  not_stay : name ≠ "."
  not_up : name ≠ ".."

theorem isName_of_mem {name : String} {c : Char} (hc : c ∈ name.toList) (hdot : c ≠ '.')
    (hplain : '/' ∉ name.toList) : IsName name := by
  have hdots : ∀ text : String, text.toList.all (· = '.') = true → name ≠ text := by
    rintro text htext rfl
    exact hdot (of_decide_eq_true (List.all_eq_true.mp htext c hc))
  exact ⟨hdots "" (by decide), hplain, hdots "." (by decide), hdots ".." (by decide)⟩

theorem component_of_isName {name : String} (h : IsName name) :
    component name.toList = .name name := by
  have hstay : name.toList ≠ ['.'] := fun hl => h.not_stay (String.toList_inj.mp hl)
  have hup : name.toList ≠ ['.', '.'] := fun hl => h.not_up (String.toList_inj.mp hl)
  rw [component, if_neg hstay, if_neg hup, String.ofList_toList]

/-- A row of names is cut into the names again. -/
theorem components_text {row : List String} (h : ∀ n ∈ row, IsName n) :
    components (SourcePath.text row) = row.map .name := by
  by_cases hrow : row = []
  · subst hrow
    decide
  · have hsplit : (SourcePath.text row).toList.splitOn '/' = row.map String.toList := by
      rw [SourcePath.text, String.toList_intercalate]
      refine List.splitOn_intercalate '/' ?_ (by simpa using hrow)
      intro l hl
      obtain ⟨n, hn, rfl⟩ := List.mem_map.mp hl
      exact (h n hn).plain
    -- no name is empty, so none is dropped
    have hfilter : (row.map String.toList).filter (fun part => !part.isEmpty) =
        row.map String.toList := by
      rw [List.filter_eq_self]
      intro l hl
      obtain ⟨n, hn, rfl⟩ := List.mem_map.mp hl
      have hne : n.toList ≠ [] := fun hl => (h n hn).nonempty (String.toList_inj.mp hl)
      simpa using hne
    rw [components, hsplit, hfilter, List.map_map]
    exact List.map_congr_left fun n hn => component_of_isName (h n hn)

theorem names_text {row : List String} (h : ∀ n ∈ row, IsName n) :
    names (SourcePath.text row) = row := by
  rw [names, components_text h, List.filterMap_map]
  exact List.filterMap_some

theorem descends_text {row : List String} (h : ∀ n ∈ row, IsName n) :
    Descends (SourcePath.text row) := by
  rw [Descends, components_text h, List.mem_map]
  rintro ⟨_, _, h⟩
  simp at h

/-- A row of names starts with a name and not with a separator. -/
theorem isAbsolute_text {row : List String} (h : ∀ n ∈ row, IsName n) :
    isAbsolute (SourcePath.text row) = false := by
  cases row with
  | nil => decide
  | cons n row =>
    have hn := h n List.mem_cons_self
    have hne : n.toList ≠ [] := fun hl => hn.nonempty (String.toList_inj.mp hl)
    obtain ⟨c, rest, hc⟩ := List.exists_cons_of_ne_nil hne
    have hslash : c ≠ '/' := by
      rintro rfl
      exact hn.plain (hc ▸ List.mem_cons_self)
    have hhead : (SourcePath.text (n :: row)).toList.head? = some c := by
      cases row with
      | nil => rw [SourcePath.text, String.intercalate_singleton, hc, List.head?_cons]
      | cons m row =>
        rw [SourcePath.text, String.intercalate_cons_cons, String.toList_append,
          String.toList_append, hc]
        rfl
    rw [isAbsolute, hhead]
    simpa using hslash

/-! ## Ends of paths -/

/-- A way on which no name is followed by nothing but components that stay. -/
def Settles (way : List Component) : Prop :=
  ∀ front name back, way = front ++ .name name :: back → FileTree.onlyStays back = false

theorem Settles.of_cons {c : Component} {way : List Component} (h : Settles (c :: way)) :
    Settles way :=
  fun front name back heq => h (c :: front) name back (congrArg (c :: ·) heq)

theorem settles_of_getLast? {way : List Component} (h : way.getLast? ≠ some .stay) :
    Settles way := by
  intro front name back heq
  subst heq
  rcases List.eq_nil_or_concat back with rfl | ⟨back, c, rfl⟩
  · rfl
  · rw [List.concat_eq_append, ← List.cons_append, ← List.append_assoc,
      List.getLast?_concat] at h
    rw [List.concat_eq_append, FileTree.onlyStays, List.all_append]
    cases c with
    | stay => exact absurd rfl h
    | up => simp [Component.stays]
    | name text => simp [Component.stays]

/-- A path with nothing but a tail of separators and components that stay taken
away. -/
def Shortens (shorter path : String) : Prop :=
  ∃ tail k, path = shorter ++ tail ∧
    components path = components shorter ++ List.replicate k .stay

theorem shortens_refl (path : String) : Shortens path path :=
  ⟨"", 0, (String.append_empty).symm, (List.append_nil _).symm⟩

theorem Shortens.trans {a b c : String} (hab : Shortens a b) (hbc : Shortens b c) :
    Shortens a c := by
  obtain ⟨tail, k, rfl, hk⟩ := hab
  obtain ⟨tail', k', rfl, hk'⟩ := hbc
  refine ⟨tail ++ tail', k + k', String.append_assoc, ?_⟩
  rw [hk', hk, List.append_assoc, List.replicate_append_replicate]

theorem components_endSeparator (path : String) : components (path ++ "/") = components path := by
  have h := components_separated path ""
  rwa [String.append_empty, components_empty, List.append_nil] at h

theorem shortens_separator (path : String) : Shortens path (path ++ "/") :=
  ⟨"/", 0, rfl, (components_endSeparator path).trans (List.append_nil _).symm⟩

theorem shortens_stay (path : String) : Shortens (path ++ "/") (path ++ "/" ++ ".") := by
  have hdot : components "." = [.stay] := by decide
  refine ⟨".", 1, rfl, ?_⟩
  rw [components_separated, components_endSeparator, hdot]
  rfl

/-- The text whose characters are given from its end to its start. -/
def backwards (r : List Char) : String := String.ofList r.reverse

theorem backwards_cons (c : Char) (r : List Char) :
    backwards (c :: r) = backwards r ++ String.ofList [c] := by
  rw [backwards, List.reverse_cons, String.ofList_append]
  rfl

theorem shortens_trimBackwards (r : List Char) :
    Shortens (backwards (trimBackwards r)) (backwards r) := by
  fun_induction trimBackwards r with
  | case1 rest ih =>
    refine ih.trans ?_
    rw [backwards_cons '/' ('.' :: '/' :: rest), backwards_cons '.', backwards_cons '/']
    exact (shortens_stay _).trans (shortens_separator _)
  | case2 rest _ ih =>
    refine ih.trans ?_
    rw [backwards_cons]
    exact shortens_separator _
  | case3 r => exact shortens_refl _

theorem trimBackwards_head (r : List Char) : (trimBackwards r).head? ≠ some '/' := by
  fun_induction trimBackwards r with
  | case1 rest ih => exact ih
  | case2 rest _ ih => exact ih
  | case3 r _ hr =>
    intro h
    obtain ⟨rest, rfl⟩ := List.head?_eq_some_iff.mp h
    exact hr rest rfl

theorem trimBackwards_stay {r : List Char} (h : ¬ ['.', '/'] <+: r) :
    ¬ ['.', '/'] <+: trimBackwards r := by
  fun_induction trimBackwards r with
  | case1 rest ih => exact ih (by simp)
  | case2 rest hr ih =>
    refine ih ?_
    rintro ⟨tail, rfl⟩
    exact hr tail rfl
  | case3 r => exact h

/-- A part without separators is one component. -/
theorem components_part {part : List Char} (hne : part ≠ []) (h : '/' ∉ part) :
    components (String.ofList part) = [component part] := by
  have hfilter : [part].filter (fun part => !part.isEmpty) = [part] := by
    rw [List.filter_eq_self]
    intro l hl
    obtain rfl := List.mem_singleton.mp hl
    simpa using hne
  rw [components, String.toList_ofList, List.splitOn_eq_singleton h, hfilter, List.map_singleton]

theorem eq_of_component_stay {part : List Char} (h : component part = .stay) : part = ['.'] := by
  unfold component at h
  split at h
  · next hp => exact hp
  · split at h
    · simp at h
    · simp at h

/-- A text that ends neither in a separator nor in a component that stays settles. -/
theorem settles_backwards {r : List Char} (hhead : r.head? ≠ some '/')
    (hstay : ¬ ['.', '/'] <+: r) : Settles (components (backwards r)) := by
  by_cases hslash : '/' ∈ r
  · obtain ⟨part, rest, rfl, hplain⟩ := List.eq_append_cons_of_mem hslash
    -- what stands behind the last separator is the last component
    have hne : part.reverse ≠ [] := by
      intro h
      rw [List.reverse_eq_nil_iff.mp h] at hhead
      exact hhead rfl
    have hpart := components_part hne fun h => hplain (List.mem_reverse.mp h)
    have htext : backwards (part ++ '/' :: rest) =
        backwards rest ++ "/" ++ String.ofList part.reverse := by
      rw [backwards, backwards, List.reverse_append, List.reverse_cons, String.ofList_append,
        String.ofList_append]
    refine settles_of_getLast? ?_
    rw [htext, components_separated, hpart, List.getLast?_concat]
    intro h
    have hdot := eq_of_component_stay (Option.some.inj h)
    rw [List.reverse_eq_iff] at hdot
    rw [hdot] at hstay
    exact hstay ⟨rest, rfl⟩
  · by_cases hr : r = []
    · subst hr
      exact settles_of_getLast? (by decide)
    · have hne : r.reverse ≠ [] := fun h => hr (List.reverse_eq_nil_iff.mp h)
      rw [backwards, components_part hne fun h => hslash (List.mem_reverse.mp h)]
      intro front name back heq
      have hlength := congrArg List.length heq
      simp only [List.length_append, List.length_cons, List.length_nil] at hlength
      have hback : back = [] := List.eq_nil_of_length_eq_zero (by omega)
      rw [hback]
      rfl

/-- **Trimming** takes separators and components that stay from the end of a path,
and all of them. -/
theorem trimmed_spec (path : String) :
    Shortens (trimmed path) path ∧ Settles (components (trimmed path)) := by
  have hpath : backwards path.toList.reverse = path := by
    rw [backwards, List.reverse_reverse, String.ofList_toList]
  unfold trimmed
  split
  · next rest heq =>
    rw [heq, backwards_cons, backwards_cons] at hpath
    have hs := shortens_trimBackwards ('/' :: rest)
    rw [backwards_cons] at hs
    refine ⟨?_, settles_backwards (trimBackwards_head _) (trimBackwards_stay (by simp))⟩
    rw [← hpath]
    exact hs.trans (shortens_stay _)
  · next r hr =>
    refine ⟨?_, settles_backwards (trimBackwards_head _) (trimBackwards_stay ?_)⟩
    · conv => rhs; rw [← hpath]
      exact shortens_trimBackwards _
    · rintro ⟨tail, htail⟩
      exact hr tail htail.symm

end FilePath
end FluentBuilders
