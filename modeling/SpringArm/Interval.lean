import SpringArm.Extremum

/-!
# Interval

Closed intervals of coordinates and distances. The bounds are not required to be in order: a
reversed interval is a legal value that contains nothing.
-/

namespace SpringArm

/-- A closed interval from `low` to `high`. -/
structure Interval where
  low : Float
  high : Float

namespace Interval

/-- A value lies in an interval when it is at least `low` and at most `high`. -/
def contains (interval : Interval) (value : Float) : Bool :=
  decide (interval.low ≤ value) && decide (value ≤ interval.high)

/-- The signed extent of the interval. -/
def width (interval : Interval) : Float :=
  interval.high - interval.low

/-- The larger of the lower bounds and the smaller of the upper bounds. -/
def tighter (first second : Interval) : Interval :=
  ⟨larger first.low second.low, smaller first.high second.high⟩

/-- Two intervals are equal when their bounds are equal as numbers. -/
def sameBounds (first second : Interval) : Bool :=
  first.low == second.low && first.high == second.high

end Interval

end SpringArm
