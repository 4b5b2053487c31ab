/-! # Ranges of code points

A class of characters is a table of closed ranges in ascending order; looking
one up stops at the first range that starts too late.
-/
namespace FluentBuilders
namespace Text

/-- Whether a code point lies in one of some ascending ranges. -/
def inRanges (n : Nat) : List (Nat × Nat) → Bool
  | [] => false
  | range :: rest => range.1 ≤ n && (n ≤ range.2 || inRanges n rest)

end Text
end FluentBuilders
