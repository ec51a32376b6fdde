/-!
# Extremum

The larger and the smaller of two values of an ordered scalar. The first value is kept unless
the second one lies strictly beyond it, so an unordered second value never replaces the first
and two equal values with different signs of zero give the first.
-/

namespace SpringArm

variable {α : Type} [LT α] [DecidableLT α]

/-- The first value unless the second is strictly above it. -/
def larger (first second : α) : α :=
  if first < second then second else first

/-- The first value unless the second is strictly below it. -/
def smaller (first second : α) : α :=
  if second < first then second else first

end SpringArm
