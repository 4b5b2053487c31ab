/-! # Texts as bytes

The UTF-8 bytes of a text, the number of bytes a list of characters takes, and
the order in which texts are listed: lexicographic on their bytes.  The order is
strict and total (`byteLt_irrefl`, `byteLt_trans`, `byteLt_or_eq_or_byteLt`).
-/
namespace FluentBuilders
namespace Text

/-- The UTF-8 bytes of a text. -/
def bytes (s : String) : List UInt8 :=
  s.toByteArray.data.toList

/-- A text is determined by its bytes. -/
theorem bytes_inj {s t : String} : bytes s = bytes t ↔ s = t := by
  refine ⟨fun h => ?_, fun h => h ▸ rfl⟩
  apply String.toByteArray_inj.mp
  have h' : s.toByteArray.data = t.toByteArray.data := Array.toList_inj.mp h
  cases hs : s.toByteArray
  cases ht : t.toByteArray
  rw [hs, ht] at h'
  simpa using h'

/-- The number of bytes that characters take in UTF-8. -/
def byteCount : List Char → Nat
  | [] => 0
  | c :: s => c.utf8Size + byteCount s

@[simp] theorem byteCount_nil : byteCount [] = 0 := rfl

@[simp] theorem byteCount_append (s t : List Char) :
    byteCount (s ++ t) = byteCount s + byteCount t := by
  induction s with
  | nil => simp
  | cons c s ih => simp only [List.cons_append, byteCount, ih]; omega

/-- One text comes before another when its bytes do, lexicographically. -/
def ByteLt (s t : String) : Prop :=
  bytes s < bytes t

instance (s t : String) : Decidable (ByteLt s t) :=
  inferInstanceAs (Decidable (bytes s < bytes t))

theorem byteLt_irrefl (s : String) : ¬ ByteLt s s :=
  List.lt_irrefl (bytes s)

theorem byteLt_trans {s t u : String} (h : ByteLt s t) (k : ByteLt t u) : ByteLt s u :=
  List.lt_trans h k

/-- Two texts neither of which comes first are the same. -/
theorem byteLt_or_eq_or_byteLt (s t : String) : ByteLt s t ∨ s = t ∨ ByteLt t s := by
  by_cases h : ByteLt s t
  · exact Or.inl h
  · by_cases k : ByteLt t s
    · exact Or.inr (Or.inr k)
    · exact Or.inr (Or.inl (bytes_inj.mp (List.le_antisymm (List.not_lt.mp k) (List.not_lt.mp h))))

end Text
end FluentBuilders
