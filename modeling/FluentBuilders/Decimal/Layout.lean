import FluentBuilders.Decimal.Shortest

/-! # How a decimal is laid out

The digits of a number say nothing about where positional writing ends and
writing with an exponent begins.  Those decisions are one record, so that the
layout of a report is stated in one place.
-/
namespace FluentBuilders
namespace Decimal

/-- A signed decimal; the sign is kept for zero as well. -/
structure Signed where
  negative : Bool
  magnitude : Scaled
deriving DecidableEq, Repr

/-- A finite double as the shortest signed decimal; the sign is given apart, as
the number that is reported is read without it. -/
def Signed.ofFloat (negative : Bool) (f : Float) : Signed :=
  let b := Binary.ofFloat f
  ⟨negative, if b.significand = 0 then ⟨0, 0⟩ else shortest b⟩

/-- When a number is written positionally. -/
structure Layout where
  /-- The least exponent of a leading digit that is written positionally. -/
  least : Int
  /-- The greatest exponent of a leading digit that is written positionally. -/
  most : Int
deriving DecidableEq, Repr

/-- The digits of a coefficient. -/
def Scaled.digits (d : Scaled) : List Char :=
  Nat.toDigits 10 d.coefficient

/-- The exponent of the leading digit. -/
def Scaled.leading (d : Scaled) : Int :=
  d.exponent + d.digits.length - 1

/-- The digits around a point; a whole number keeps one zero after the point. -/
def positional (digits : List Char) (leading : Int) : List Char :=
  if leading < 0 then
    ['0', '.'] ++ List.replicate (-leading - 1).toNat '0' ++ digits
  else
    let width := leading.toNat + 1
    let whole := digits.take width ++ List.replicate (width - digits.length) '0'
    let fraction := digits.drop width
    whole ++ '.' :: (if fraction.isEmpty then ['0'] else fraction)

/-- One digit before the point and an exponent that always has its sign. -/
def withExponent (digits : List Char) (leading : Int) : List Char :=
  let mantissa := match digits with
    | [] => ['0']
    | [d] => [d]
    | d :: rest => d :: '.' :: rest
  let sign := if leading < 0 then '-' else '+'
  mantissa ++ 'e' :: sign :: Nat.toDigits 10 leading.natAbs

/-- The text of a signed decimal in a layout. -/
def Layout.text (layout : Layout) (d : Signed) : List Char :=
  let digits := d.magnitude.digits
  let leading := d.magnitude.leading
  let body :=
    if layout.least ≤ leading ∧ leading ≤ layout.most then positional digits leading
    else withExponent digits leading
  if d.negative then '-' :: body else body

end Decimal
end FluentBuilders
