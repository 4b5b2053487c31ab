import FluentBuilders.Proofs.BuilderText
import FluentBuilders.Proofs.RoundBuilders
import FluentBuilders.Proofs.StoreWrites

/-! # The store of a session

Whatever a session does and whatever the host refuses, the store behind the host is
what the writes that were let through make of it, one after the other.  At any moment,
also in the middle of a round, its targets stand in the order of their first writes, a
target has the unit of its last write, and no later moment moves a target or takes it
away.  When nothing is refused, the builder that is stored for an owner is told by the
last round that reached the owner; no other round has any part in it
(`store_of_session`).
-/
namespace FluentBuilders
namespace Session

variable (naming : Naming) (refuses : Nat → Bool)

/-- The units that a step hands to the host, in order. -/
def given (host : Host) : Step → List SourceUnit
  | .round elements => Round.calls naming (Host.destination refuses) elements host
  | .lines text =>
    match Ndjson.read text with
    | .error _ => []
    | .ok elements => Round.calls naming (Host.destination refuses) elements host
  | .write unit => [unit]
  | .look _ => []

/-- The units that a session hands to the host, in order. -/
def calls : Host → List Step → List SourceUnit
  | _, [] => []
  | host, s :: rest => given naming refuses host s ++ calls (step naming refuses host s).host rest

/-- **A step does to the host what its units do.** -/
theorem host_step (host : Host) (s : Step) :
    (step naming refuses host s).host =
      (Host.destination refuses).after host (given naming refuses host s) := by
  cases s with
  | round elements => exact Round.state_eq_after naming _ elements host
  | lines text =>
    rw [step, given]
    cases Ndjson.read text with
    | error e => rfl
    | ok elements => exact Round.state_eq_after naming _ elements host
  | write unit => rfl
  | look target => rfl

/-- **A session does to the host what its units do.** -/
theorem final_eq_after (host : Host) (steps : List Step) :
    final naming refuses host steps =
      (Host.destination refuses).after host (calls naming refuses host steps) := by
  induction steps generalizing host with
  | nil => rfl
  | cons s rest ih =>
    rw [calls, Destination.after_append, ← host_step, ← ih]
    rfl

theorem calls_append (host : Host) (xs ys : List Step) :
    calls naming refuses host (xs ++ ys) =
      calls naming refuses host xs ++ calls naming refuses (final naming refuses host xs) ys := by
  induction xs generalizing host with
  | nil => rfl
  | cons s rest ih =>
    rw [List.cons_append, calls, calls, ih, List.append_assoc]
    rfl

theorem final_append (host : Host) (xs ys : List Step) :
    final naming refuses host (xs ++ ys) =
      final naming refuses (final naming refuses host xs) ys :=
  List.foldl_append

/-! ## Rounds that are not disturbed -/

section

variable {naming : Naming} {refuses : Nat → Bool} {host : Host}

/-- The store after a round in which nothing is refused. -/
theorem store_round {es : List Element}
    (h : (Host.destination refuses).TakesAll host
      (Round.calls naming (Host.destination refuses) es host)) :
    (step naming refuses host (.round es)).host.store =
      (Round.calls naming (Host.destination refuses) es host).foldl Store.write host.store := by
  rw [host_step, Destination.store_after (Host.keptIn_store refuses)]
  exact congrArg (List.foldl Store.write host.store) (Destination.taken_of_takesAll h)

/-- A round stores the builders of the owners it reaches. -/
theorem get?_round_of_mem {es : List Element}
    (h : (Host.destination refuses).TakesAll host
      (Round.calls naming (Host.destination refuses) es host)) {owner : String}
    (howner : owner ∈ (reached naming.namePrefix es).map Element.owner) :
    ∃ unit, IsBuilder naming.builderSuffix (qualifying naming.namePrefix es) owner unit ∧
      (step naming refuses host (.round es)).host.store.get? (owner ++ naming.builderSuffix) =
        some unit := by
  have htarget : owner ++ naming.builderSuffix ∈
      (Round.calls naming (Host.destination refuses) es host).map SourceUnit.target := by
    rw [Round.targets_calls h]
    exact List.mem_map_of_mem (List.mem_eraseDups.mpr howner)
  obtain ⟨unit, hunit, htarget⟩ := List.mem_map.mp htarget
  refine ⟨unit, ((Round.mem_calls_iff_of_target h htarget).mp hunit).2, ?_⟩
  rw [store_round h, ← htarget]
  exact Store.get?_foldl_write_of_mem (Round.nodup_targets_calls h) hunit _

/-- A round leaves the builders of all other owners as they are. -/
theorem get?_round_of_not_mem {es : List Element}
    (h : (Host.destination refuses).TakesAll host
      (Round.calls naming (Host.destination refuses) es host)) {owner : String}
    (howner : owner ∉ (reached naming.namePrefix es).map Element.owner) :
    (step naming refuses host (.round es)).host.store.get? (owner ++ naming.builderSuffix) =
      host.store.get? (owner ++ naming.builderSuffix) := by
  rw [store_round h]
  refine Store.get?_foldl_write_of_not_mem (fun htarget => howner ?_) _
  rw [Round.targets_calls h] at htarget
  obtain ⟨owner', howner', heq⟩ := List.mem_map.mp htarget
  exact Round.target_injective naming.builderSuffix heq ▸ List.mem_eraseDups.mp howner'

/-- **Rounds that do not reach an owner** leave its builder as it is. -/
theorem get?_final_of_not_mem {rounds : List (List Element)} {owner : String}
    (h : (Host.destination refuses).TakesAll host
      (calls naming refuses host (rounds.map Step.round)))
    (howner : ∀ es ∈ rounds, owner ∉ (reached naming.namePrefix es).map Element.owner) :
    (final naming refuses host (rounds.map Step.round)).store.get?
        (owner ++ naming.builderSuffix) =
      host.store.get? (owner ++ naming.builderSuffix) := by
  induction rounds generalizing host with
  | nil => rfl
  | cons es rest ih =>
    obtain ⟨hfirst, hrest⟩ := (Destination.takesAll_append _ _ _ _).mp h
    have hfirst : (Host.destination refuses).TakesAll host
        (Round.calls naming (Host.destination refuses) es host) := hfirst
    rw [← host_step] at hrest
    rw [← get?_round_of_not_mem hfirst (howner es List.mem_cons_self)]
    exact ih hrest fun fs hfs => howner fs (List.mem_cons_of_mem es hfs)

/-- **The last round that reaches an owner** tells its builder. -/
theorem get?_final_of_last {before after : List (List Element)} {es : List Element}
    {owner : String}
    (h : (Host.destination refuses).TakesAll host
      (calls naming refuses host ((before ++ es :: after).map Step.round)))
    (howner : owner ∈ (reached naming.namePrefix es).map Element.owner)
    (hafter : ∀ fs ∈ after, owner ∉ (reached naming.namePrefix fs).map Element.owner) :
    ∃ unit, IsBuilder naming.builderSuffix (qualifying naming.namePrefix es) owner unit ∧
      (final naming refuses host ((before ++ es :: after).map Step.round)).store.get?
        (owner ++ naming.builderSuffix) = some unit := by
  rw [List.map_append, List.map_cons, calls_append, Destination.takesAll_append,
    ← final_eq_after] at h
  rw [List.map_append, List.map_cons, final_append]
  obtain ⟨hes, hlater⟩ := (Destination.takesAll_append _ _ _ _).mp h.2
  rw [← host_step] at hlater
  obtain ⟨unit, hbuilder, hunit⟩ := get?_round_of_mem hes howner
  exact ⟨unit, hbuilder, (get?_final_of_not_mem hlater hafter).trans hunit⟩

end

/-! ## Any session -/

/-- The store behind the host at any moment of handing it units. -/
theorem store_after_initial (units : List SourceUnit) :
    ((Host.destination refuses).after .initial units).store =
      ((Host.destination refuses).taken .initial units).foldl Store.write .empty :=
  Destination.store_after (Host.keptIn_store refuses) .initial units

/-- A target that is stored stays where it is. -/
theorem targets_prefix_after (host : Host) (units : List SourceUnit) :
    host.store.targets <+: ((Host.destination refuses).after host units).store.targets := by
  rw [Destination.store_after (Host.keptIn_store refuses)]
  exact Store.targets_prefix_foldl_write _ host.store

/-- **The store of a session.**  At every moment the targets are different and stand in the
order of their first successful writes, a target has the unit of its last successful
write, and at every later moment the same targets stand in the same places.  After rounds
in which nothing was refused, an owner has the builder that the last round made which
reached it, and none when no round did; if no round was given up, that is the last round
with a setter of the owner. -/
theorem store_of_session (naming : Naming) (refuses : Nat → Bool) (steps : List Step) :
    let d := Host.destination refuses
    let units := calls naming refuses .initial steps
    final naming refuses .initial steps = d.after .initial units ∧
    (∀ earlier later, units = earlier ++ later →
      let writes := d.taken .initial earlier
      let store := (d.after .initial earlier).store
      FirstSeen (writes.map SourceUnit.target) store.targets ∧
      store.targets.Nodup ∧
      (∀ target, store.get? target =
        (writes.filter fun unit => unit.target = target).getLast?) ∧
      ∀ next rest, later = next ++ rest →
        store.targets <+: (d.after .initial (earlier ++ next)).store.targets) ∧
    ∀ rounds, steps = rounds.map Step.round → d.TakesAll .initial units →
      let store := (final naming refuses .initial steps).store
      (∀ owner, (∀ es ∈ rounds, owner ∉ (reached naming.namePrefix es).map Element.owner) →
        store.get? (owner ++ naming.builderSuffix) = none) ∧
      (∀ before es after owner, rounds = before ++ es :: after →
        owner ∈ (reached naming.namePrefix es).map Element.owner →
        (∀ fs ∈ after, owner ∉ (reached naming.namePrefix fs).map Element.owner) →
        ∃ unit, IsBuilder naming.builderSuffix (qualifying naming.namePrefix es) owner unit ∧
          store.get? (owner ++ naming.builderSuffix) = some unit) ∧
      ((∀ es ∈ rounds, ∀ e ∈ qualifying naming.namePrefix es,
          ∃ name, DottedName.ofOwner e.owner = .ok name) →
        ∀ before es after owner, rounds = before ++ es :: after →
          owner ∈ (qualifying naming.namePrefix es).map Element.owner →
          (∀ fs ∈ after, owner ∉ (qualifying naming.namePrefix fs).map Element.owner) →
          ∃ unit, IsBuilder naming.builderSuffix (qualifying naming.namePrefix es) owner unit ∧
            store.get? (owner ++ naming.builderSuffix) = some unit) := by
  intro d units
  refine ⟨final_eq_after naming refuses .initial steps, fun earlier later _ => ?_,
    fun rounds hsteps htakes => ?_⟩
  · intro writes store
    have hstore : store = writes.foldl Store.write .empty := store_after_initial refuses earlier
    have hfirst : FirstSeen (writes.map SourceUnit.target) store.targets := by
      rw [hstore]
      exact Store.firstSeen_targets writes
    refine ⟨hfirst, hfirst.nodup, fun target => ?_, fun next rest _ => ?_⟩
    · rw [hstore, Store.get?_foldl_write]
      exact Option.or_none
    · rw [Destination.after_append]
      exact targets_prefix_after refuses _ next
  · subst hsteps
    refine ⟨fun owner howner => get?_final_of_not_mem htakes howner, ?_, ?_⟩
    · rintro before es after owner rfl howner hafter
      exact get?_final_of_last htakes howner hafter
    · rintro hwell before es after owner rfl howner hafter
      -- every setter is reached
      have hreached : ∀ fs ∈ before ++ es :: after,
          reached naming.namePrefix fs = qualifying naming.namePrefix fs := fun fs hfs =>
        reached_eq_qualifying fun e he => DottedName.isOwner_iff.mpr (hwell fs hfs e he)
      have hes := hreached es (List.mem_append_right _ List.mem_cons_self)
      refine get?_final_of_last htakes (hes ▸ howner) fun fs hfs => ?_
      rw [hreached fs (List.mem_append_right _ (List.mem_cons_of_mem es hfs))]
      exact hafter fs hfs

/-- A host that lets every write through. -/
theorem takesAll_of_never (host : Host) (units : List SourceUnit) :
    (Host.destination fun _ => false).TakesAll host units :=
  Destination.takesAll_of_accepts (fun _ _ => rfl) units

/-- The second round tells the type, and the owner it does not mention is left alone. -/
theorem store_of_session_two_rounds :
    let first : List Element := [⟨"a.One", "setX", ["int"], none⟩, ⟨"Two", "setX", ["int"], none⟩]
    let second : List Element :=
      [⟨"a.One", "setX", ["int"], none⟩, ⟨"a.One", "setX", ["long"], none⟩]
    let steps : List Step := [first, second].map Step.round
    let store := (final .standard (fun _ => false) .initial steps).store
    (Host.destination fun _ => false).TakesAll .initial
        (calls .standard (fun _ => false) .initial steps) ∧
      (∃ unit, IsBuilder "Builder" (qualifying "set" second) "a.One" unit ∧
        store.get? "a.OneBuilder" = some unit) ∧
      (∃ unit, IsBuilder "Builder" (qualifying "set" first) "Two" unit ∧
        store.get? "TwoBuilder" = some unit) ∧
      store.get? "a.Builder" = none := by
  intro first second steps store
  have htakes := takesAll_of_never .initial (calls .standard (fun _ => false) .initial steps)
  obtain ⟨-, -, hrounds⟩ := store_of_session .standard (fun _ => false) steps
  obtain ⟨hnone, hlast, -⟩ := hrounds [first, second] rfl htakes
  refine ⟨htakes, ?_, ?_, ?_⟩
  · exact hlast [first] second [] "a.One" rfl (by decide) (by decide)
  · exact hlast [] first [second] "Two" rfl (by decide) (by decide)
  · exact hnone "a." (by decide)

/-- A round that is given up in front of an owner has setters of the owner, and yet the
builder of the owner stays the one of an earlier round. -/
theorem store_of_abandoned_round :
    let first : List Element := [⟨"a.One", "setX", ["int"], none⟩]
    let second : List Element := [⟨"a.", "setX", ["int"], none⟩, ⟨"a.One", "setX", ["long"], none⟩]
    let steps : List Step := [first, second].map Step.round
    let store := (final .standard (fun _ => false) .initial steps).store
    (Host.destination fun _ => false).TakesAll .initial
        (calls .standard (fun _ => false) .initial steps) ∧
      "a.One" ∈ (qualifying "set" second).map Element.owner ∧
      ¬ ∃ unit, IsBuilder "Builder" (qualifying "set" second) "a.One" unit ∧
        store.get? "a.OneBuilder" = some unit := by
  intro first second steps store
  have htakes := takesAll_of_never .initial (calls .standard (fun _ => false) .initial steps)
  refine ⟨htakes, by decide, ?_⟩
  rintro ⟨unit, hsecond, hunit⟩
  -- the store has the builder of the first round, whose text is another one
  obtain ⟨unit', hfirst, hunit'⟩ : ∃ unit,
      IsBuilder "Builder" (qualifying "set" first) "a.One" unit ∧
        store.get? "a.OneBuilder" = some unit :=
    @get?_final_of_last .standard _ .initial [] [second] first "a.One" htakes (by decide)
      (by decide)
  obtain rfl := Option.some.inj (hunit.symm.trans hunit')
  have hrendered := (isBuilder_iff (fun _ => length_parameters_of_mem) "a.One" unit).mp hfirst
  have hrendered' := (isBuilder_iff (fun _ => length_parameters_of_mem) "a.One" unit).mp hsecond
  have hread := BuilderClass.readContents_of_render ⟨by decide, by decide, by decide⟩ hrendered
  have hread' := BuilderClass.readContents_of_render ⟨by decide, by decide, by decide⟩ hrendered'
  exact absurd (congrArg (Option.map BuilderClass.Contents.methods) (hread.symm.trans hread'))
    (by decide)

end Session
end FluentBuilders
