import FluentBuilders.Destination

/-! # Stores

A store keeps source units in memory, in the order in which their targets were
first written.  Writing to a target again replaces its text in place
(`targets_put`, `get?_write`).
-/
namespace FluentBuilders

/-- Source units in the order of the first write to their targets. -/
structure Store where
  units : List SourceUnit
deriving DecidableEq, Repr

namespace Store

/-- Nothing is stored. -/
def empty : Store := ⟨[]⟩

/-- The unit with a target. -/
def get? (s : Store) (target : String) : Option SourceUnit :=
  s.units.find? fun unit => unit.target = target

/-- The targets in order. -/
def targets (s : Store) : List String :=
  s.units.map SourceUnit.target

/-- Puts a unit in the place of the one with its target, or at the end. -/
def put (unit : SourceUnit) : List SourceUnit → List SourceUnit
  | [] => [unit]
  | s :: rest => if s.target = unit.target then unit :: rest else s :: put unit rest

/-- A store after a write. -/
def write (s : Store) (unit : SourceUnit) : Store :=
  ⟨put unit s.units⟩

/-- A store as a destination, which accepts every write. -/
def destination : Destination Store :=
  fun s unit => ⟨s.write unit, [], .ok ()⟩

theorem targets_put (unit : SourceUnit) (l : List SourceUnit) :
    (put unit l).map SourceUnit.target =
      if unit.target ∈ l.map SourceUnit.target then l.map SourceUnit.target
      else l.map SourceUnit.target ++ [unit.target] := by
  induction l with
  | nil => rfl
  | cons s rest ih =>
    rw [put]
    by_cases h : s.target = unit.target
    · rw [if_pos h]
      simp [h]
    · have h' : ¬ unit.target = s.target := fun hs => h hs.symm
      rw [if_neg h, List.map_cons, ih]
      by_cases hr : unit.target ∈ rest.map SourceUnit.target
      · have hc : unit.target ∈ (s :: rest).map SourceUnit.target :=
          List.mem_cons_of_mem _ hr
        rw [if_pos hr, if_pos hc, List.map_cons]
      · have hc : ¬ unit.target ∈ (s :: rest).map SourceUnit.target := by
          rw [List.map_cons, List.mem_cons]
          exact fun hm => hm.elim h' hr
        rw [if_neg hr, if_neg hc, List.map_cons, List.cons_append]

/-- **Look-up after a write.** -/
theorem get?_write (s : Store) (unit : SourceUnit) (target : String) :
    (s.write unit).get? target =
      if target = unit.target then some unit else s.get? target := by
  obtain ⟨l⟩ := s
  unfold write get?
  dsimp only
  induction l with
  | nil =>
    by_cases h : target = unit.target
    · simp [put, h]
    · have h' : ¬ unit.target = target := fun hs => h hs.symm
      simp [put, h, h']
  | cons s rest ih =>
    rw [put]
    by_cases hs : s.target = unit.target
    · rw [if_pos hs]
      by_cases h : target = unit.target
      · simp [h]
      · have h' : ¬ unit.target = target := fun hs' => h hs'.symm
        simp [hs, h, h']
    · rw [if_neg hs]
      by_cases h : s.target = target
      · have hne : ¬ target = unit.target := fun ht => hs (h.trans ht)
        simp [h, hne]
      · simpa [List.find?_cons, h] using ih

end Store
end FluentBuilders
