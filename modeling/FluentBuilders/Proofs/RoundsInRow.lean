import FluentBuilders.Proofs.MergedGroups
import FluentBuilders.Proofs.RoundBuilders
import FluentBuilders.Proofs.StoreWrites

/-! # Rounds one after another

A round keeps nothing for the next one, so what two rounds do is told by what each of
them writes.  To a store, a round says the same whatever is stored already
(`writeGroups_store`), and since the targets of a round differ, the same round once more
changes nothing (`perform_store_again`).  A round over two lists whose setters have no
owner in common has the groups of both (`groups_append`), and writing these is writing
the ones and then the others (`writeGroups_append`), to any destination.
-/
namespace FluentBuilders

/-! ## To a store -/

namespace Store

/-- A store takes everything. -/
theorem takesAll_destination (s : Store) (units : List SourceUnit) :
    destination.TakesAll s units :=
  Destination.takesAll_of_accepts (fun _ _ => rfl) units

theorem after_destination (s : Store) (units : List SourceUnit) :
    destination.after s units = units.foldl write s := by
  induction units generalizing s with
  | nil => rfl
  | cons unit rest ih => exact ih (s.write unit)

end Store

/-- **What is stored already is not noticed** while builders are written. -/
theorem writeGroups_store (suffix : String) (groups : List SetterGroup) (s s' : Store) :
    (writeGroups Store.destination suffix groups s').log =
        (writeGroups Store.destination suffix groups s).log ∧
      (writeGroups Store.destination suffix groups s').outcome =
        (writeGroups Store.destination suffix groups s).outcome := by
  induction groups generalizing s s' with
  | nil => exact ⟨rfl, rfl⟩
  | cons g gs ih =>
    rw [writeGroups, writeGroups]
    cases BuilderClass.render g.owner g.members suffix with
    | error e => exact ⟨rfl, rfl⟩
    | ok unit =>
      obtain ⟨hlog, houtcome⟩ := ih (s.write unit) (s'.write unit)
      exact ⟨congrArg (_ ++ ·) hlog, congrArg (Except.map (unit :: ·)) houtcome⟩

attribute [ext] Round

namespace Round

section

variable (naming : Naming) (es : List Element) (s s' : Store)

theorem state_perform_store :
    (perform naming Store.destination es s).state =
      (calls naming Store.destination es s).foldl Store.write s := by
  rw [state_eq_after, Store.after_destination]

/-- The units of a round do not hang on what is stored. -/
theorem calls_store :
    calls naming Store.destination es s' = calls naming Store.destination es s :=
  (rendered_calls (s'.takesAll_destination _)).unique (rendered_calls (s.takesAll_destination _))

theorem outcome_store :
    (perform naming Store.destination es s').outcome =
      (perform naming Store.destination es s).outcome := by
  rw [outcome_perform, outcome_perform, (writeGroups_store _ _ s s').2]

/-- What a round logs does not hang on what is stored. -/
theorem log_store :
    (perform naming Store.destination es s').log =
      (perform naming Store.destination es s).log := by
  rw [log_eq, log_eq, (writeGroups_store _ _ s s').1, outcome_store naming es s s']

/-- **The same round once more** changes nothing and ends in the same way, also when it is
given up. -/
theorem perform_store_again :
    perform naming Store.destination es (perform naming Store.destination es s).state =
      perform naming Store.destination es s := by
  refine Round.ext ?_ (log_store ..) ?_ (outcome_store ..)
  · have hnodup : ((calls naming Store.destination es s).map SourceUnit.target).Nodup :=
      nodup_targets_calls (s.takesAll_destination _)
    rw [state_perform_store, calls_store naming es s, state_perform_store]
    exact Store.foldl_write_again hnodup s
  · rw [diagnostics_perform, diagnostics_perform]

end

/-! ## Groups of two lists -/

/-- **The groups of two lists** whose setters have no owner in common. -/
theorem groups_append {naming : Naming} {es fs : List Element}
    (h : ∀ e ∈ qualifying naming.namePrefix es, ∀ f ∈ qualifying naming.namePrefix fs,
      e.owner ≠ f.owner) :
    groups naming (es ++ fs) = groups naming es ++ groups naming fs := by
  have hdisjoint : (((qualifying naming.namePrefix es).map Element.asSetter).map
      Setter.owner).Disjoint
        (((qualifying naming.namePrefix fs).map Element.asSetter).map Setter.owner) := by
    simp only [List.map_map, List.disjoint_left, List.mem_map]
    rintro owner ⟨e, he, rfl⟩ ⟨f, hf, howner⟩
    exact h e he f hf howner.symm
  rw [groups, groups, groups, accepted_eq_map, accepted_eq_map, accepted_eq_map,
    List.filter_append, List.map_append]
  exact SetterGroups.toList_ofList_append_of_disjoint hdisjoint

end Round

section

variable {σ : Type} {d : Destination σ} {suffix : String}

/-- A builder that is taken is followed by those of the other groups. -/
theorem writeGroups_cons {g : SetterGroup} {unit : SourceUnit} {state : σ}
    (hunit : BuilderClass.render g.owner g.members suffix = .ok unit)
    (htaken : (d state unit).outcome = .ok ()) (gs : List SetterGroup) :
    writeGroups d suffix (g :: gs) state =
      let rest := writeGroups d suffix gs (d state unit).state
      ⟨rest.state, .writing unit.target g.members.size :: (d state unit).log ++ rest.log,
        rest.outcome.map (unit :: ·)⟩ := by
  rw [writeGroups, hunit]
  dsimp only
  rw [htaken]

/-- When all builders are written, the first one was taken and the others were written. -/
theorem exists_of_writeGroups_cons {g : SetterGroup} {gs : List SetterGroup} {state : σ}
    {units : List SourceUnit} (h : (writeGroups d suffix (g :: gs) state).outcome = .ok units) :
    ∃ unit later, BuilderClass.render g.owner g.members suffix = .ok unit ∧
      (d state unit).outcome = .ok () ∧
      (writeGroups d suffix gs (d state unit).state).outcome = .ok later ∧
      units = unit :: later := by
  rw [writeGroups] at h
  cases hr : BuilderClass.render g.owner g.members suffix with
  | error e =>
    rw [hr] at h
    simp at h
  | ok unit =>
    rw [hr] at h
    dsimp only at h
    cases ha : (d state unit).outcome with
    | error cause =>
      rw [ha] at h
      simp at h
    | ok _ =>
      rw [ha] at h
      dsimp only at h
      cases hlater : (writeGroups d suffix gs (d state unit).state).outcome with
      | error e =>
        rw [hlater] at h
        simp [Except.map] at h
      | ok later =>
        rw [hlater] at h
        exact ⟨unit, later, rfl, ha, hlater, (Except.ok.inj h).symm⟩

/-- **Groups after groups**: when the builders of the first are written, the others go on
from there. -/
theorem writeGroups_append {gs : List SetterGroup} {state : σ} {units : List SourceUnit}
    (h : (writeGroups d suffix gs state).outcome = .ok units) (hs : List SetterGroup) :
    writeGroups d suffix (gs ++ hs) state =
      let rest := writeGroups d suffix hs (writeGroups d suffix gs state).state
      ⟨rest.state, (writeGroups d suffix gs state).log ++ rest.log,
        rest.outcome.map (units ++ ·)⟩ := by
  induction gs generalizing state units with
  | nil =>
    obtain rfl : [] = units := Except.ok.inj h
    simp only [List.nil_append, writeGroups]
    generalize writeGroups d suffix hs state = rest
    obtain ⟨state', log, outcome⟩ := rest
    cases outcome <;> rfl
  | cons g gs ih =>
    obtain ⟨unit, later, hunit, htaken, hlater, rfl⟩ := exists_of_writeGroups_cons h
    rw [List.cons_append, writeGroups_cons hunit htaken, writeGroups_cons hunit htaken, ih hlater]
    dsimp only
    generalize writeGroups d suffix hs _ = rest
    obtain ⟨state', log, outcome⟩ := rest
    cases outcome <;> simp [Except.map]

end

namespace Round

/-- **A round over two lists** whose setters have no owner in common is the round over the
one and then the round over the other, to any destination, as long as the first succeeds. -/
theorem perform_append {σ : Type} {naming : Naming} {d : Destination σ} {es fs : List Element}
    {state : σ} {x : Summary}
    (howners : ∀ e ∈ qualifying naming.namePrefix es, ∀ f ∈ qualifying naming.namePrefix fs,
      e.owner ≠ f.owner)
    (hx : (perform naming d es state).outcome = .ok x) :
    let second := perform naming d fs (perform naming d es state).state
    (perform naming d (es ++ fs) state).state = second.state ∧
      (perform naming d (es ++ fs) state).outcome =
        second.outcome.map fun y => ⟨x.rejected ++ y.rejected, x.written ++ y.written⟩ := by
  intro second
  have hsecond : second.state = _ ∧ second.outcome = _ :=
    ⟨state_perform naming d fs _, outcome_perform naming d fs _⟩
  have hrejected : (sift naming.namePrefix (es ++ fs)).rejected =
      (sift naming.namePrefix es).rejected ++ (sift naming.namePrefix fs).rejected := by
    rw [rejected_eq_map, rejected_eq_map, rejected_eq_map, List.filter_append, List.map_append]
  obtain ⟨hwritten, hfirst⟩ := writeGroups_of_ok hx
  have happend := writeGroups_append hwritten (groups naming fs)
  rw [← groups_append howners, ← state_perform] at happend
  rw [state_perform, outcome_perform, happend, hsecond.1, hsecond.2, hrejected, hfirst]
  refine ⟨rfl, ?_⟩
  dsimp only
  cases (writeGroups d naming.builderSuffix (groups naming fs)
    (perform naming d es state).state).outcome <;> rfl

theorem diagnostics_append {σ : Type} (naming : Naming) (d : Destination σ) (es fs : List Element)
    (state state' : σ) :
    (perform naming d (es ++ fs) state).diagnostics =
      (perform naming d es state).diagnostics ++ (perform naming d fs state').diagnostics := by
  rw [diagnostics_eq_map, diagnostics_eq_map, diagnostics_eq_map, List.filter_append,
    List.map_append]

/-- **Rounds to a store** can be repeated and put together.  The same round once more ends
in the same way and leaves the store as it is.  Two rounds whose setters have no owner in
common and only owners that are well formed are one round over both lists. -/
theorem perform_store_again_and_append (naming : Naming) (s : Store) :
    (∀ es, perform naming Store.destination es (perform naming Store.destination es s).state =
      perform naming Store.destination es s) ∧
    ∀ es fs, (∀ e ∈ qualifying naming.namePrefix es, ∀ f ∈ qualifying naming.namePrefix fs,
        e.owner ≠ f.owner) →
      (∀ e ∈ qualifying naming.namePrefix (es ++ fs),
        ∃ name, DottedName.ofOwner e.owner = .ok name) →
      let first := perform naming Store.destination es s
      let second := perform naming Store.destination fs first.state
      let both := perform naming Store.destination (es ++ fs) s
      both.state = second.state ∧
      both.diagnostics = first.diagnostics ++ second.diagnostics ∧
      ∃ x y, first.outcome = .ok x ∧ second.outcome = .ok y ∧
        both.outcome = .ok ⟨x.rejected ++ y.rejected, x.written ++ y.written⟩ := by
  refine ⟨fun es => perform_store_again naming es s, fun es fs howners hwell => ?_⟩
  intro first second both
  rw [qualifying_append] at hwell
  have hfirst : first.outcome = _ := outcome_of_takesAll (s.takesAll_destination _) fun e he =>
    DottedName.isOwner_iff.mpr (hwell e (List.mem_append_left _ he))
  have hsecond : second.outcome = _ :=
    outcome_of_takesAll (first.state.takesAll_destination _) fun e he =>
      DottedName.isOwner_iff.mpr (hwell e (List.mem_append_right _ he))
  obtain ⟨hstate, hboth⟩ := perform_append howners hfirst
  have hboth : both.outcome = second.outcome.map _ := hboth
  rw [hsecond] at hboth
  exact ⟨hstate, diagnostics_append .., _, _, hfirst, hsecond, hboth⟩

/-- Two rounds over a store that has one of their builders already. -/
theorem perform_store_again_and_append_stored_target :
    let s : Store := ⟨[⟨"TwoBuilder", ""⟩, ⟨"Three", ""⟩]⟩
    let es : List Element :=
      [⟨"a.One", "setX", ["int"], none⟩, ⟨"a.", "getX", [], none⟩,
        ⟨"a.One", "setX", ["long"], none⟩]
    let fs : List Element := [⟨"Two", "setX", ["int"], none⟩]
    let second := perform .standard Store.destination fs
      (perform .standard Store.destination es s).state
    (∀ e ∈ qualifying "set" es, ∀ f ∈ qualifying "set" fs, e.owner ≠ f.owner) ∧
      (∀ e ∈ qualifying "set" (es ++ fs), ∃ name, DottedName.ofOwner e.owner = .ok name) ∧
      (perform .standard Store.destination (es ++ fs) s).state = second.state ∧
      perform .standard Store.destination fs second.state = second := by
  intro s es fs second
  have howner : ∀ e ∈ qualifying "set" (es ++ fs), DottedName.isOwner e.owner = true := by
    decide
  have hwell : ∀ e ∈ qualifying "set" (es ++ fs),
      ∃ name, DottedName.ofOwner e.owner = .ok name := fun e he =>
    DottedName.isOwner_iff.mp (howner e he)
  have howners : ∀ e ∈ qualifying "set" es, ∀ f ∈ qualifying "set" fs, e.owner ≠ f.owner := by
    decide
  obtain ⟨-, hsplit⟩ := perform_store_again_and_append .standard s
  obtain ⟨hagain, -⟩ := perform_store_again_and_append .standard
    (perform .standard Store.destination es s).state
  exact ⟨howners, hwell, (hsplit es fs howners hwell).1, hagain fs⟩

end Round
end FluentBuilders
