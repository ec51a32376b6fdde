import SpringArm.Binary64

/-!
# Shortest

The shortest decimal that reads back to a positive double. Around the exact value lie the reals
that round to it; grids of decimals with one, two, … digits are tried in turn, and on the first
grid with a neighbour of the value in that interval the nearer such neighbour is taken, the even
one on a tie. Everything is decided by comparing natural numbers.
-/

namespace SpringArm.Decimal

/-- The decimal `digits * 10 ^ exponent`. -/
structure Number where
  digits : Nat
  exponent : Int
deriving DecidableEq

/-- A magnitude measured on the decimal grid of spacing `10 ^ grid`: the magnitude is
`significand * unit / scale` spacings. -/
structure OnGrid where
  unit : Nat
  scale : Nat

/-- The measure of a magnitude on a decimal grid. -/
def onGrid (value : Binary64.Magnitude) (grid : Int) : OnGrid where
  unit := Nat.pow 10 (-grid).toNat <<< value.exponent.toNat
  scale := Nat.pow 10 grid.toNat <<< (-value.exponent).toNat

/-- A number of grid spacings lies among the reals that round to the value. The interval reaches
half a gap to either side and includes its ends when the significand is even. -/
def readsBack (value : Binary64.Magnitude) (measure : OnGrid) (count : Nat) : Bool :=
  let below := if value.narrowBelow then 1 else 2
  let low := (4 * value.significand - below) * measure.unit
  let high := (4 * value.significand + 2) * measure.unit
  let point := 4 * count * measure.scale
  if value.significand % 2 = 0 then
    decide (low ≤ point) && decide (point ≤ high)
  else
    decide (low < point) && decide (point < high)

/-- The neighbour of the value on a grid that reads back, if one does. Of two the nearer one is
taken, on a tie the even one. -/
def neighbour? (value : Binary64.Magnitude) (grid : Int) : Option Nat :=
  let measure := onGrid value grid
  let floor := value.significand * measure.unit / measure.scale
  match readsBack value measure floor, readsBack value measure (floor + 1) with
  | false, false => none
  | true, false => some floor
  | false, true => some (floor + 1)
  | true, true =>
    match compare (2 * value.significand * measure.unit) ((2 * floor + 1) * measure.scale) with
    | .lt => some floor
    | .gt => some (floor + 1)
    | .eq => some (floor + floor % 2)

/-- The value is below `10 ^ bound`. -/
def isBelowPower (value : Binary64.Magnitude) (bound : Int) : Bool :=
  let measure := onGrid value bound
  decide (value.significand * measure.unit < measure.scale)

/-- The number of decimal places before the point: the least bound with the value below
`10 ^ bound`. The binary length of the value leaves only a few bounds to try. -/
def magnitudeBound (value : Binary64.Magnitude) : Int :=
  let estimate := ((value.significand.log2 : Int) + value.exponent) * 30103 / 100000
  let bounds := [estimate - 1, estimate, estimate + 1]
  (bounds.find? (isBelowPower value)).getD (estimate + 2)

/-- A decimal without trailing zeros, for at most `places` of them. -/
def dropZeros : Nat → Number → Number
  | 0, decimal => decimal
  | places + 1, decimal =>
    if decimal.digits % 10 = 0 then
      dropZeros places ⟨decimal.digits / 10, decimal.exponent + 1⟩
    else
      decimal

/-- The most digits that a double can need to be told apart from its neighbours. -/
def mostDigits : Nat := 17

/-- The shortest decimal that reads back to a positive magnitude, without trailing zeros. -/
def shortest (value : Binary64.Magnitude) : Number :=
  let bound := magnitudeBound value
  let grids := (List.range mostDigits).map fun (places : Nat) => bound - 1 - (places : Int)
  let found := grids.findSome? fun grid => (neighbour? value grid).map (Number.mk · grid)
  dropZeros (mostDigits + 1) (found.getD ⟨value.significand * Nat.pow 10 value.exponent.toNat, 0⟩)

end SpringArm.Decimal
