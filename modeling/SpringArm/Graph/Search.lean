import SpringArm.Graph.Basic

/-!
# Search

The questions that growth asks of a graph: whether a new spring would cross one that is there, and
which masses lie within a distance.
-/

namespace SpringArm.Graph

open SpringArm.Geometry (ArithmeticFault)

/-- A spring between two masses would cross a spring of the graph. The springs are tried in order
until one is crossed. -/
def wouldCross (graph : Graph) (tolerance : Float) (source destination : Mass) :
    Except ArithmeticFault Bool :=
  let path : Geometry.Segment Float := ⟨source.place, destination.place⟩
  graph.springs.anyM fun spring => path.crosses (Geometry.samePoint tolerance) spring.line

/-- What a search for reachable masses asks for. -/
structure Reach where
  /-- Distances within these bounds count. -/
  distance : Interval
  /-- Masses behind a spring of the graph do not count. -/
  excludeCrossings : Bool
  /-- Ends closer than this are the same point. -/
  tolerance : Float

/-- A candidate is another mass of the network or an input, its spring would cross none if that is
asked for, and its distance counts. -/
def isReachable (graph : Graph) (reach : Reach) (origin candidate : Mass) :
    Except ArithmeticFault Bool := do
  if candidate.same origin || !candidate.kind.isReachable then
    return false
  else
    let blocked ←
      if reach.excludeCrossings then graph.wouldCross reach.tolerance origin candidate
      else pure false
    return !blocked && reach.distance.contains (origin.distanceTo candidate)

/-- The masses of a list that can be reached from an origin, in order. -/
def reachableAmong (graph : Graph) (reach : Reach) (origin : Mass) :
    List Mass → Except ArithmeticFault (List Mass)
  | [] => .ok []
  | candidate :: rest => do
    let reached ← graph.isReachable reach origin candidate
    let others ← graph.reachableAmong reach origin rest
    return if reached then candidate :: others else others

/-- The masses of the graph that can be reached from an origin, in order. -/
def reachable (graph : Graph) (reach : Reach) (origin : Mass) :
    Except ArithmeticFault (List Mass) :=
  graph.reachableAmong reach origin graph.masses

end SpringArm.Graph
