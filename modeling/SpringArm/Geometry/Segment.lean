import SpringArm.Extremum

/-!
# Segment

Plane segments over any ordered scalar with subtraction and multiplication, so that the same
definitions serve machine numbers and exact rationals. Two segments meet when they have a common
point; they cross when they meet and are not joined at exactly one pair of ends. A segment that
shares both ends with another one still crosses it.

Whether two ends are the same point is a test of its own, which may fail. The test on doubles
squares both differences and fails when a finite difference has no finite square.
-/

namespace SpringArm.Geometry

/-- A point of the plane. -/
structure Point (α : Type) where
  x : α
  y : α

/-- A segment between two points, which may coincide. -/
structure Segment (α : Type) where
  start : Point α
  finish : Point α

/-- The way a path turns at its middle point. -/
inductive Turn where
  | left
  | right
  | straight
deriving DecidableEq

section Ordered

variable {α : Type} [Sub α] [Mul α] [OfNat α 0] [LT α] [DecidableLT α] [LE α] [DecidableLE α]

/-- The way the path from `a` over `b` to `c` turns: the sign of the cross product of `b - a` and
`c - a`. -/
def turn (a b c : Point α) : Turn :=
  let cross := (b.x - a.x) * (c.y - a.y) - (b.y - a.y) * (c.x - a.x)
  if 0 < cross then .left else if cross < 0 then .right else .straight

/-- A point lies in the box that the two ends of a segment span. -/
def Segment.boxContains (segment : Segment α) (point : Point α) : Bool :=
  decide (smaller segment.start.x segment.finish.x ≤ point.x)
    && decide (point.x ≤ larger segment.start.x segment.finish.x)
    && decide (smaller segment.start.y segment.finish.y ≤ point.y)
    && decide (point.y ≤ larger segment.start.y segment.finish.y)

/-- Two closed segments meet. Each one's ends lie on different sides of the other, or one of the
four ends lies on the other segment. -/
def Segment.meets (first second : Segment α) : Bool :=
  let startOfSecond := turn first.start first.finish second.start
  let finishOfSecond := turn first.start first.finish second.finish
  let startOfFirst := turn second.start second.finish first.start
  let finishOfFirst := turn second.start second.finish first.finish
  (startOfSecond != finishOfSecond && startOfFirst != finishOfFirst)
    || (startOfSecond == .straight && first.boxContains second.start)
    || (finishOfSecond == .straight && first.boxContains second.finish)
    || (startOfFirst == .straight && second.boxContains first.start)
    || (finishOfFirst == .straight && second.boxContains first.finish)

variable {m : Type → Type} [Monad m]

/-- Exactly one pair of ends is shared, by a test `near` that says when two points are the same.
All four pairs are tested, first start with second start, first start with second finish, and
then the same for the first finish. -/
def Segment.joinedAtOneEnd (near : Point α → Point α → m Bool) (first second : Segment α) :
    m Bool := do
  let startStart ← near first.start second.start
  let startFinish ← near first.start second.finish
  let finishStart ← near first.finish second.start
  let finishFinish ← near first.finish second.finish
  return (startStart && !finishFinish) || (startFinish && !finishStart)
    || (finishStart && !startFinish) || (finishFinish && !startStart)

/-- Two segments cross: they meet and are not joined at exactly one pair of ends. -/
def Segment.crosses (near : Point α → Point α → m Bool) (first second : Segment α) : m Bool := do
  if first.meets second then
    let joined ← first.joinedAtOneEnd near second
    return !joined
  else
    return false

end Ordered

/-- The square of a finite difference is beyond the finite doubles. -/
inductive ArithmeticFault where
  | overflow
deriving DecidableEq

/-- The text of an arithmetic fault. -/
def ArithmeticFault.message : ArithmeticFault → String
  | .overflow => "(34, 'Numerical result out of range')"

/-- The square of a difference, rounded correctly: the product of the difference with itself, where
a general power may be off by the last bit. Only the square of an infinite difference is
infinite. -/
def squared (difference : Float) : Except ArithmeticFault Float :=
  let square := difference * difference
  if square.isInf && !difference.isInf then .error .overflow else .ok square

/-- Two points are the same when their distance is below the tolerance. The squares, their sum and
the root are each rounded correctly; with powers that are off by the last bit a distance next to the
tolerance may fall on its other side. -/
def samePoint (tolerance : Float) (first second : Point Float) : Except ArithmeticFault Bool := do
  let dx ← squared (first.x - second.x)
  let dy ← squared (first.y - second.y)
  return decide ((dx + dy).sqrt < tolerance)

/-- Ends closer than this are the same point unless a caller says otherwise. -/
def endpointTolerance : Float := 1e-8

end SpringArm.Geometry
