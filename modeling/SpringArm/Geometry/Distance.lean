import SpringArm.Binary64

/-!
# Distance

The length of a planar difference, correctly rounded: the exact sum of the two squares is formed
in natural numbers and its root is rounded once, to nearest with ties to the even neighbour. No
intermediate value overflows or underflows. Other ways to compute the length are not always rounded
correctly and may differ from it in the last bit.
-/

namespace SpringArm.Geometry

/-- Refines a root bit by bit, from the bit of weight `2 ^ bits` down. -/
def refineRoot (number : Nat) : Nat → Nat → Nat
  | 0, root => root
  | bits + 1, root =>
    let larger := root + (1 <<< bits)
    refineRoot number bits (if larger * larger ≤ number then larger else root)

/-- The largest natural number whose square is at most `number`. -/
def floorRoot (number : Nat) : Nat :=
  refineRoot number (number.log2 / 2 + 1) 0

/-- The quotient's root rounded to the nearest natural number, ties to even. -/
def roundRoot (numerator denominator : Nat) : Nat :=
  let root := floorRoot (numerator / denominator)
  let midpoint := (2 * root + 1) * (2 * root + 1) * denominator
  match compare (4 * numerator) midpoint with
  | .lt => root
  | .gt => root + 1
  | .eq => root + root % 2

/-- The double nearest to the root of `square * 4 ^ exponent`. -/
def nearestRoot (square : Nat) (exponent : Int) : Float :=
  if square = 0 then
    0.0
  else
    let grid := Binary64.spacing ((square.log2 / 2 : Nat) + exponent)
    let up := (exponent - grid).toNat
    let down := (grid - exponent).toNat
    Binary64.ofGrid (roundRoot (square <<< (2 * up)) (1 <<< (2 * down))) grid

/-- The length of the vector `(dx, dy)`, rounded correctly, where other implementations may be off
by the last bit. It is infinite as soon as one part is infinite, even beside an undefined part. -/
def hypotenuse (dx dy : Float) : Float :=
  if dx.isInf || dy.isInf then
    1.0 / 0.0
  else if dx.isNaN || dy.isNaN then
    0.0 / 0.0
  else
    let first := Binary64.magnitude dx
    let second := Binary64.magnitude dy
    let exponent := min first.exponent second.exponent
    let firstPart := first.significand <<< (first.exponent - exponent).toNat
    let secondPart := second.significand <<< (second.exponent - exponent).toNat
    nearestRoot (firstPart * firstPart + secondPart * secondPart) exponent

end SpringArm.Geometry
