import FluentBuilders.Decimal.Binary

/-! # The fewest digits that read back

A double is written with the fewest significant digits that still round to it;
among numbers with so few digits the nearest is taken, and of two equally near
ones the even one.  For each digit count only two candidates can be in question:
the neighbours of the value on the grid of that many digits.
-/
namespace FluentBuilders
namespace Decimal

/-- The number `coefficient * 10 ^ exponent`. -/
structure Scaled where
  coefficient : Nat
  exponent : Int
deriving DecidableEq, Repr

/-- A quarter of `quarters * 2 ^ exponent` measured on the grid of the multiples
of `10 ^ grid`, as a fraction: numerator and denominator. -/
def onGrid (quarters : Nat) (exponent grid : Int) : Nat × Nat :=
  (quarters * Nat.pow 2 (exponent - 2).toNat * Nat.pow 10 (-grid).toNat,
    Nat.pow 2 (2 - exponent).toNat * Nat.pow 10 grid.toNat)

/-- The place of the decimal point: the least `p` with the fraction
`num / den` below `10 ^ p`, for a positive fraction above `10 ^ (-400)`. -/
def pointPlace (num den : Nat) : Int :=
  if den ≤ num then ((Nat.toDigits 10 (num / den)).length : Int)
  else
    let zeros : Nat := ((List.range 400).find? fun j => den ≤ num * Nat.pow 10 (j + 1)).getD 400
    Int.negOfNat zeros

/-- Whether a multiple of `10 ^ grid` rounds to the double. -/
def readsBack (b : Binary) (grid : Int) (n : Nat) : Bool :=
  let low := onGrid b.low b.exponent grid
  let high := onGrid b.high b.exponent grid
  if b.takesMidpoints then low.1 ≤ n * low.2 && n * high.2 ≤ high.1
  else low.1 < n * low.2 && n * high.2 < high.1

/-- The better one of the two neighbours of the double on a grid, when one of
them reads back. -/
def neighbour? (b : Binary) (grid : Int) : Option Nat :=
  let value := onGrid (4 * b.significand) b.exponent grid
  let below := value.1 / value.2
  let above := below + 1
  let fromBelow := value.1 - below * value.2
  let toAbove := above * value.2 - value.1
  match readsBack b grid below, readsBack b grid above with
  | true, true =>
    if fromBelow < toAbove then some below
    else if toAbove < fromBelow then some above
    else if below % 2 = 0 then some below else some above
  | true, false => some below
  | false, true => some above
  | false, false => none

/-- A coefficient without the zeros at its end. -/
def Scaled.stripped : Nat → Scaled → Scaled
  | 0, d => d
  | fuel + 1, d =>
    if d.coefficient % 10 = 0 then stripped fuel ⟨d.coefficient / 10, d.exponent + 1⟩ else d

/-- The shortest decimal that reads back as a positive binary fraction.  No
double needs more than seventeen digits. -/
def shortest (b : Binary) : Scaled :=
  let value := onGrid (4 * b.significand) b.exponent 0
  let point := pointPlace value.1 value.2
  let found := (List.range 17).findSome? fun digits =>
    let grid := point - (digits + 1 : Nat)
    (neighbour? b grid).map fun n => Scaled.mk n grid
  Scaled.stripped 20 (found.getD ⟨0, 0⟩)

end Decimal
end FluentBuilders
