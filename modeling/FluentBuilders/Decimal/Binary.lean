/-! # Binary fractions

A finite double as an exact number: a whole significand times a power of two,
together with the numbers that round to it.  Everything after the decoding is
arithmetic on whole numbers.
-/
namespace FluentBuilders
namespace Decimal

/-- The number `significand * 2 ^ exponent`. -/
structure Binary where
  significand : Nat
  exponent : Int
  /-- The next smaller double is half as far away as the next larger one. -/
  closerBelow : Bool
deriving DecidableEq, Repr

/-- The magnitude of a finite double. -/
def Binary.ofFloat (f : Float) : Binary :=
  let bits : Nat := f.toBits.toNat
  let stored : Nat := bits % Nat.pow 2 52
  let biased : Nat := bits / Nat.pow 2 52 % Nat.pow 2 11
  if biased = 0 then ⟨stored, -1074, false⟩
  else ⟨stored + Nat.pow 2 52, (biased : Int) - 1075, decide (stored = 0 ∧ 1 < biased)⟩

/-- Four times the significand of the largest number that does not round below
this one; the midpoint to the next smaller double. -/
def Binary.low (b : Binary) : Nat :=
  4 * b.significand - (if b.closerBelow then 1 else 2)

/-- Four times the significand of the midpoint to the next larger double. -/
def Binary.high (b : Binary) : Nat :=
  4 * b.significand + 2

/-- The midpoints themselves round to a double with an even significand. -/
def Binary.takesMidpoints (b : Binary) : Bool :=
  b.significand % 2 = 0

end Decimal
end FluentBuilders
