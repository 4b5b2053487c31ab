import Mathlib.Data.List.Count
import FluentBuilders.Setter

/-! # Sifting loses nothing

The setters and the rejections of a list of elements, dealt out again along the list of
answers to whether an element is a setter, give the list back, but for the locations of the
setters (`rejoin_sift`).  An element that a setter comes from is a setter whatever its
location is, so sifting the setters once more keeps all of them (`sift_elements`).
-/
namespace FluentBuilders

/-- An element that a setter comes from. -/
def Setter.element (s : Setter) (location : Option String) : Element :=
  ⟨s.owner, s.name, [s.parameter], location⟩

namespace Element

/-- **The setter that an element is**: its owner, its name and its only parameter. -/
theorem setter?_eq_some_iff {e : Element} {namePrefix : String} {s : Setter} :
    e.setter? namePrefix = some s ↔
      e.isSetter namePrefix = true ∧ { e with location := none } = s.element none := by
  rw [← isSome_setter?]
  obtain ⟨owner, name, parameters, location⟩ := e
  obtain ⟨owner', name', parameter⟩ := s
  unfold setter?
  split
  · next p hp =>
    obtain rfl : parameters = [p] := hp
    split <;> simp [Setter.element]
  · simp

end Element

/-- Elements put together along a list of answers: for each yes the next setter, for each no
the next rejection.  There have to be as many of each as there are answers. -/
def rejoin : List Bool → List Setter → List Rejection → Option (List Element)
  | [], [], [] => some []
  | true :: answers, s :: setters, rejections =>
    (rejoin answers setters rejections).map (s.element none :: ·)
  | false :: answers, setters, r :: rejections =>
    (rejoin answers setters rejections).map (r.element :: ·)
  | _, _, _ => none

/-- **The two lists make up the elements again**, without the locations of setters. -/
theorem rejoin_sift (namePrefix : String) (es : List Element) :
    rejoin (es.map fun e => e.isSetter namePrefix) (sift namePrefix es).accepted
        (sift namePrefix es).rejected =
      some (es.map fun e =>
        if e.isSetter namePrefix = true then { e with location := none } else e) := by
  induction es with
  | nil => rfl
  | cons e es ih =>
    rw [sift, List.map_cons, List.map_cons]
    cases h : e.setter? namePrefix with
    | some s =>
      obtain ⟨hsetter, hs⟩ := Element.setter?_eq_some_iff.mp h
      rw [if_pos hsetter, hsetter, hs]
      dsimp only
      rw [rejoin, ih]
      rfl
    | none =>
      have hsetter : e.isSetter namePrefix = false := by
        rw [← Element.isSome_setter?, h]
        rfl
      rw [hsetter, if_neg Bool.false_ne_true]
      dsimp only
      rw [rejoin, ih]
      rfl

/-- Each setter stands for the elements that are like it. -/
theorem count_accepted (namePrefix : String) (es : List Element) (s : Setter) :
    (sift namePrefix es).accepted.count s =
      es.countP fun e => e.isSetter namePrefix &&
        decide ({ e with location := none } = s.element none) := by
  rw [sift_accepted, List.count_filterMap]
  refine List.countP_congr fun e _ => ?_
  rw [beq_iff_eq, Element.setter?_eq_some_iff, Bool.and_eq_true, decide_eq_true_iff]

/-- Each rejection stands for the elements it is about. -/
theorem count_rejected (namePrefix : String) (es : List Element) (e : Element) :
    (sift namePrefix es).rejected.count e.reject =
      if e.isSetter namePrefix = true then 0 else es.count e := by
  have hinjective : Function.Injective Element.reject := fun _ _ h => congrArg Rejection.element h
  rw [sift_rejected, List.count_map_of_injective _ _ hinjective]
  split
  · next hsetter =>
    rw [List.count_eq_zero, List.mem_filter]
    simp [hsetter]
  · next hsetter => exact List.count_filter (by simpa using hsetter)

theorem length_sift (namePrefix : String) (es : List Element) :
    (sift namePrefix es).accepted.length + (sift namePrefix es).rejected.length = es.length := by
  induction es with
  | nil => rfl
  | cons e es ih =>
    rw [sift, List.length_cons]
    cases e.setter? namePrefix with
    | some s =>
      dsimp only
      rw [List.length_cons]
      omega
    | none =>
      dsimp only
      rw [List.length_cons]
      omega

/-- **Setters stay setters**: all of them are kept when the elements they come from are sifted
again. -/
theorem sift_elements {namePrefix : String} {setters : List Setter}
    (locate : Setter → Option String)
    (h : ∀ s ∈ setters, (s.element none).isSetter namePrefix = true) :
    sift namePrefix (setters.map fun s => s.element (locate s)) = ⟨setters, []⟩ := by
  induction setters with
  | nil => rfl
  | cons s setters ih =>
    have hs : (s.element (locate s)).setter? namePrefix = some s :=
      Element.setter?_eq_some_iff.mpr ⟨h s List.mem_cons_self, rfl⟩
    rw [List.map_cons, sift, hs, ih fun s hs => h s (List.mem_cons_of_mem _ hs)]

theorem isSetter_of_mem_accepted {namePrefix : String} {es : List Element} {s : Setter}
    (h : s ∈ (sift namePrefix es).accepted) : (s.element none).isSetter namePrefix = true := by
  rw [sift_accepted] at h
  obtain ⟨e, -, he⟩ := List.mem_filterMap.mp h
  obtain ⟨hsetter, hs⟩ := Element.setter?_eq_some_iff.mp he
  rw [← hs]
  exact hsetter

/-- **Sifting parts the elements and loses none.**  Along the answers to whether an element is
a setter, both lists are used up in order, each setter with the owner, the name and the only
parameter of its element, and each rejection with the element as it was.  So each list has as
many of a kind as there are elements of that kind.  The elements that setters come from are
the same setters again, wherever they are located. -/
theorem sift_lossless (namePrefix : String) (es : List Element) :
    let sifted := sift namePrefix es
    rejoin (es.map fun e => e.isSetter namePrefix) sifted.accepted sifted.rejected =
      some (es.map fun e =>
        if e.isSetter namePrefix = true then { e with location := none } else e) ∧
    sifted.accepted.length + sifted.rejected.length = es.length ∧
    (∀ s : Setter, sifted.accepted.count s = es.countP fun e => e.isSetter namePrefix &&
      decide ({ e with location := none } = s.element none)) ∧
    (∀ e : Element, sifted.rejected.count e.reject =
      if e.isSetter namePrefix = true then 0 else es.count e) ∧
    ∀ locate : Setter → Option String,
      sift namePrefix (sifted.accepted.map fun s => s.element (locate s)) =
        ⟨sifted.accepted, []⟩ := by
  intro sifted
  exact ⟨rejoin_sift namePrefix es, length_sift namePrefix es, count_accepted namePrefix es,
    count_rejected namePrefix es,
    fun locate => sift_elements locate fun _ hs => isSetter_of_mem_accepted hs⟩

end FluentBuilders
