import Mathlib.Data.List.Induction
import FluentBuilders.Proofs.Grouping
import FluentBuilders.Store

/-! # A store after some writes

Each write replaces in place or appends.  After any writes the targets therefore stand
in the order of their first writes (`firstSeen_targets`), and a target has the unit of
its last write (`get?_foldl_write`).  A write of what is there already does nothing
(`write_self`), so writing units with different targets once more does nothing
(`foldl_write_again`).
-/
namespace FluentBuilders
namespace Store

/-! ## Targets -/

theorem targets_write (s : Store) (unit : SourceUnit) :
    (s.write unit).targets =
      if unit.target ∈ s.targets then s.targets else s.targets ++ [unit.target] :=
  targets_put unit s.units

/-- A write moves no target and takes none away. -/
theorem targets_prefix_write (s : Store) (unit : SourceUnit) :
    s.targets <+: (s.write unit).targets := by
  rw [targets_write]
  split
  · exact List.prefix_refl _
  · exact List.prefix_append _ _

theorem targets_prefix_foldl_write (units : List SourceUnit) (s : Store) :
    s.targets <+: (units.foldl write s).targets := by
  induction units generalizing s with
  | nil => exact List.prefix_refl _
  | cons unit rest ih => exact (s.targets_prefix_write unit).trans (ih (s.write unit))

/-- **The targets stand in the order of their first writes.** -/
theorem firstSeen_targets (units : List SourceUnit) :
    FirstSeen (units.map SourceUnit.target) (units.foldl write empty).targets := by
  have htargets : (units.foldl write empty).targets =
      (units.map SourceUnit.target).eraseDups := by
    induction units using List.reverseRecOn with
    | nil => rfl
    | append_singleton units unit ih =>
      rw [List.foldl_append, List.foldl_cons, List.foldl_nil, targets_write, ih, List.map_append,
        List.map_singleton, eraseDups_concat]
      simp only [List.mem_eraseDups]
  rw [htargets]
  exact firstSeen_eraseDups _

/-! ## Look-up -/

/-- **A target has the unit of its last write.** -/
theorem get?_foldl_write (units : List SourceUnit) (s : Store) (target : String) :
    (units.foldl write s).get? target =
      ((units.filter fun unit => unit.target = target).getLast?).or (s.get? target) := by
  induction units using List.reverseRecOn with
  | nil => rfl
  | append_singleton units unit ih =>
    rw [List.foldl_append, List.foldl_cons, List.foldl_nil, get?_write, List.filter_append]
    by_cases h : unit.target = target
    · simp [h]
    · have h' : ¬ target = unit.target := fun heq => h heq.symm
      simp [h, h', ih]

/-- A target that is not written keeps its unit. -/
theorem get?_foldl_write_of_not_mem {units : List SourceUnit} {target : String}
    (h : target ∉ units.map SourceUnit.target) (s : Store) :
    (units.foldl write s).get? target = s.get? target := by
  have hnil : units.filter (fun unit => unit.target = target) = [] := by
    rw [List.filter_eq_nil_iff]
    intro unit hunit
    simpa using fun heq : unit.target = target => h (heq ▸ List.mem_map_of_mem hunit)
  rw [get?_foldl_write, hnil]
  rfl

/-- Units with different targets are all there once they are written. -/
theorem get?_foldl_write_of_mem {units : List SourceUnit}
    (hnodup : (units.map SourceUnit.target).Nodup) {unit : SourceUnit} (h : unit ∈ units)
    (s : Store) : (units.foldl write s).get? unit.target = some unit := by
  obtain ⟨front, back, rfl⟩ := List.append_of_mem h
  rw [List.map_append, List.map_cons] at hnodup
  have hback := (List.nodup_cons.mp (List.nodup_append.mp hnodup).2.1).1
  rw [List.foldl_append, List.foldl_cons, get?_foldl_write_of_not_mem hback, get?_write,
    if_pos rfl]

/-! ## Writing again -/

/-- A write of what is there already does nothing. -/
theorem write_self {s : Store} {unit : SourceUnit} (h : s.get? unit.target = some unit) :
    s.write unit = s := by
  obtain ⟨units⟩ := s
  refine congrArg Store.mk ?_
  unfold get? at h
  dsimp only at h ⊢
  induction units with
  | nil => simp at h
  | cons first rest ih =>
    rw [put]
    by_cases htarget : first.target = unit.target
    · rw [List.find?_cons_of_pos (by simpa using htarget)] at h
      rw [if_pos htarget, Option.some.inj h]
    · rw [List.find?_cons_of_neg (by simpa using htarget)] at h
      rw [if_neg htarget, ih h]

theorem foldl_write_of_get? {units : List SourceUnit} {s : Store}
    (h : ∀ unit ∈ units, s.get? unit.target = some unit) : units.foldl write s = s := by
  induction units with
  | nil => rfl
  | cons unit rest ih =>
    rw [List.foldl_cons, write_self (h unit List.mem_cons_self)]
    exact ih fun unit' hunit' => h unit' (List.mem_cons_of_mem unit hunit')

/-- **Units with different targets need to be written only once.** -/
theorem foldl_write_again {units : List SourceUnit}
    (hnodup : (units.map SourceUnit.target).Nodup) (s : Store) :
    units.foldl write (units.foldl write s) = units.foldl write s :=
  foldl_write_of_get? fun _ hunit => get?_foldl_write_of_mem hnodup hunit s

end Store
end FluentBuilders
