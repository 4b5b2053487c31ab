import FluentBuilders.Text.ByteOrder

/-! # Members of a builder

The methods of a builder with their parameter types: at most one type for each
name, listed in the order of the bytes of the names.  The order is part of the
type, so the list is determined by what the names are mapped to
(`Members.ext_get`).
-/
namespace FluentBuilders
open Text

/-- Names with their types, in strictly ascending order of the names. -/
structure Members where
  entries : List (String × String)
  sorted : entries.Pairwise fun a b => ByteLt a.1 b.1
deriving DecidableEq

namespace Members

/-- Puts a name with its type in its place; a name that is there already gets
the new type. -/
def insertEntry (name type : String) : List (String × String) → List (String × String)
  | [] => [(name, type)]
  | e :: rest =>
    if ByteLt name e.1 then (name, type) :: e :: rest
    else if name = e.1 then (name, type) :: rest
    else e :: insertEntry name type rest

theorem mem_insertEntry {name type : String} {a : String × String}
    {l : List (String × String)} (h : a ∈ insertEntry name type l) :
    a = (name, type) ∨ a ∈ l := by
  induction l with
  | nil => exact Or.inl (List.mem_singleton.mp h)
  | cons e rest ih =>
    rw [insertEntry] at h
    split at h
    · rcases List.mem_cons.mp h with h | h
      · exact Or.inl h
      · exact Or.inr h
    · split at h
      · rcases List.mem_cons.mp h with h | h
        · exact Or.inl h
        · exact Or.inr (List.mem_cons_of_mem _ h)
      · rcases List.mem_cons.mp h with h | h
        · exact Or.inr (h ▸ List.mem_cons_self)
        · exact (ih h).imp_right (List.mem_cons_of_mem _)

theorem sorted_insertEntry {name type : String} {l : List (String × String)}
    (h : l.Pairwise fun a b => ByteLt a.1 b.1) :
    (insertEntry name type l).Pairwise fun a b => ByteLt a.1 b.1 := by
  induction l with
  | nil => exact List.pairwise_singleton _ _
  | cons e rest ih =>
    obtain ⟨hhead, htail⟩ := List.pairwise_cons.mp h
    rw [insertEntry]
    split
    · next hlt =>
      refine List.pairwise_cons.mpr ⟨fun a ha => ?_, h⟩
      rcases List.mem_cons.mp ha with rfl | ha
      · exact hlt
      · exact byteLt_trans hlt (hhead a ha)
    · next hnlt =>
      split
      · next heq => exact List.pairwise_cons.mpr ⟨fun a ha => heq ▸ hhead a ha, htail⟩
      · next hne =>
        refine List.pairwise_cons.mpr ⟨fun a ha => ?_, ih htail⟩
        rcases mem_insertEntry ha with rfl | ha
        · rcases byteLt_or_eq_or_byteLt e.1 name with hlt | heq | hlt
          · exact hlt
          · exact absurd heq.symm hne
          · exact absurd hlt hnlt
        · exact hhead a ha

/-- No members. -/
def empty : Members := ⟨[], List.Pairwise.nil⟩

/-- Members with one more; a later type for the same name replaces the earlier
one. -/
def insert (m : Members) (name type : String) : Members :=
  ⟨insertEntry name type m.entries, sorted_insertEntry m.sorted⟩

/-- The type of a name. -/
def get? (m : Members) (name : String) : Option String :=
  m.entries.lookup name

/-- The number of names. -/
def size (m : Members) : Nat :=
  m.entries.length

/-- The members that a list of names and types leaves, the last type of a name
winning. -/
def ofList (l : List (String × String)) : Members :=
  l.foldl (fun m e => m.insert e.1 e.2) empty

@[simp] theorem get?_empty (name : String) : empty.get? name = none := rfl

/-- **Look-up after an insertion.** -/
theorem get?_insert (m : Members) (name type other : String) :
    (m.insert name type).get? other = if other = name then some type else m.get? other := by
  obtain ⟨l, hl⟩ := m
  unfold get? insert
  dsimp only
  clear hl
  induction l with
  | nil =>
    by_cases h : other = name
    · simp [insertEntry, h]
    · simp [insertEntry, List.lookup_cons, h, beq_false_of_ne h]
  | cons e rest ih =>
    obtain ⟨k, t⟩ := e
    rw [insertEntry]
    split
    · by_cases h : other = name
      · simp [h]
      · simp [List.lookup_cons, h, beq_false_of_ne h]
    · split
      · next heq =>
        by_cases h : other = name
        · simp [h]
        · have hk : ¬ other = k := fun hk => h (hk.trans heq.symm)
          simp [List.lookup_cons, h, beq_false_of_ne h, beq_false_of_ne hk]
      · next hne =>
        by_cases h : other = k
        · have hn : ¬ other = name := fun hn => hne (hn.symm.trans h)
          rw [if_neg hn, h]
          simp
        · rw [List.lookup_cons, beq_false_of_ne h]
          simpa [List.lookup_cons, beq_false_of_ne h] using ih

theorem lookup_eq_none_of_byteLt {name : String} {l : List (String × String)}
    (h : ∀ a ∈ l, ByteLt name a.1) : l.lookup name = none := by
  induction l with
  | nil => rfl
  | cons e rest ih =>
    have hne : ¬ name = e.1 := fun heq =>
      byteLt_irrefl e.1 (heq ▸ h e List.mem_cons_self)
    rw [List.lookup_cons, beq_false_of_ne hne]
    exact ih fun a ha => h a (List.mem_cons_of_mem e ha)

theorem lookup_of_mem {name type : String} {l : List (String × String)}
    (hl : l.Pairwise fun a b => ByteLt a.1 b.1) (h : (name, type) ∈ l) :
    l.lookup name = some type := by
  induction l with
  | nil => simp at h
  | cons e rest ih =>
    obtain ⟨hhead, htail⟩ := List.pairwise_cons.mp hl
    rcases List.mem_cons.mp h with rfl | hrest
    · exact List.lookup_cons_self
    · have hne : ¬ name = e.1 := fun heq => byteLt_irrefl e.1 (heq ▸ hhead _ hrest)
      rw [List.lookup_cons, beq_false_of_ne hne]
      exact ih htail hrest

theorem mem_of_lookup {name type : String} {l : List (String × String)}
    (h : l.lookup name = some type) : (name, type) ∈ l := by
  obtain ⟨front, back, rfl, _⟩ := List.lookup_eq_some_iff.mp h
  exact List.mem_append_right _ List.mem_cons_self

/-- The entries are the names with what they are mapped to. -/
theorem mem_entries_iff {m : Members} {name type : String} :
    (name, type) ∈ m.entries ↔ m.get? name = some type :=
  ⟨lookup_of_mem m.sorted, mem_of_lookup⟩

theorem entries_eq_of_lookup {l₁ l₂ : List (String × String)}
    (h₁ : l₁.Pairwise fun a b => ByteLt a.1 b.1) (h₂ : l₂.Pairwise fun a b => ByteLt a.1 b.1)
    (h : ∀ name, l₁.lookup name = l₂.lookup name) : l₁ = l₂ := by
  induction l₁ generalizing l₂ with
  | nil =>
    cases l₂ with
    | nil => rfl
    | cons f r₂ =>
      obtain ⟨k, t⟩ := f
      have hfirst := h k
      rw [List.lookup_cons_self] at hfirst
      simp at hfirst
  | cons e r₁ ih =>
    cases l₂ with
    | nil =>
      obtain ⟨k, t⟩ := e
      have hfirst := h k
      rw [List.lookup_cons_self] at hfirst
      simp at hfirst
    | cons f r₂ =>
      obtain ⟨k₁, t₁⟩ := e
      obtain ⟨k₂, t₂⟩ := f
      obtain ⟨hh₁, ht₁⟩ := List.pairwise_cons.mp h₁
      obtain ⟨hh₂, ht₂⟩ := List.pairwise_cons.mp h₂
      -- a smaller first name would be missing on the other side
      have hk : k₁ = k₂ := by
        rcases byteLt_or_eq_or_byteLt k₁ k₂ with hlt | heq | hlt
        · have hnone : ((k₂, t₂) :: r₂).lookup k₁ = none :=
            lookup_eq_none_of_byteLt fun a ha => by
              rcases List.mem_cons.mp ha with rfl | ha
              · exact hlt
              · exact byteLt_trans hlt (hh₂ a ha)
          have := h k₁
          rw [hnone] at this
          simp at this
        · exact heq
        · have hnone : ((k₁, t₁) :: r₁).lookup k₂ = none :=
            lookup_eq_none_of_byteLt fun a ha => by
              rcases List.mem_cons.mp ha with rfl | ha
              · exact hlt
              · exact byteLt_trans hlt (hh₁ a ha)
          have := h k₂
          rw [hnone] at this
          simp at this
      subst hk
      have ht : t₁ = t₂ := by simpa using h k₁
      subst ht
      refine congrArg (_ :: ·) (ih ht₁ ht₂ fun name => ?_)
      by_cases hn : name = k₁
      · subst hn
        rw [lookup_eq_none_of_byteLt hh₁, lookup_eq_none_of_byteLt hh₂]
      · simpa [List.lookup_cons, beq_false_of_ne hn] using h name

/-- **Members are determined by what their names are mapped to.** -/
theorem ext_get {m₁ m₂ : Members} (h : ∀ name, m₁.get? name = m₂.get? name) : m₁ = m₂ := by
  have he : m₁.entries = m₂.entries := entries_eq_of_lookup m₁.sorted m₂.sorted h
  cases m₁
  cases m₂
  simpa using he

end Members
end FluentBuilders
