import SpringArm.Graph.Basic

/-!
# Order

The order in which springs are written: by the higher of the positions of their ends, then by
the lower one. `Graph.sortedSprings` reads all positions off one table made in advance, while
`Spring.sortKey` and `Spring.compareIn` look each mass up in the list of masses.
-/

namespace SpringArm

/-- The positions of the ends of a spring, the higher one first. -/
structure SortKey where
  higher : Nat
  lower : Nat
deriving DecidableEq

namespace SortKey

/-- The key of a spring between two positions. -/
def ofPositions (first second : Nat) : SortKey :=
  ⟨max first second, min first second⟩

/-- A key comes before another one or equals it. -/
def precedes (first second : SortKey) : Bool :=
  first.higher < second.higher
    || (first.higher == second.higher && decide (first.lower ≤ second.lower))

end SortKey

namespace Graph

/-- The keys of the masses with their positions. Of a repeated mass the first position is found. -/
def positions (graph : Graph) : List (Nat × Nat) :=
  graph.masses.zipIdx.map fun (mass, position) => (mass.key, position)

/-- The key of a spring by a table of positions. -/
def tabledKey? (positions : List (Nat × Nat)) (spring : Spring) : Option SortKey := do
  let source ← positions.lookup spring.source.key
  let destination ← positions.lookup spring.destination.key
  return SortKey.ofPositions source destination

/-- The springs with their keys, in the order of the graph. -/
def keyedSprings (graph : Graph) : Except GraphFault (List (SortKey × Spring)) :=
  let positions := graph.positions
  graph.springs.mapM fun spring =>
    match tabledKey? positions spring with
    | some key => .ok (key, spring)
    | none => .error .danglingSpring

/-- The springs with their keys, in the order of the keys. Springs with equal keys keep the order
of the graph. -/
def sortedWithKeys (graph : Graph) : Except GraphFault (List (SortKey × Spring)) := do
  let keyed ← graph.keyedSprings
  return keyed.mergeSort fun first second => first.1.precedes second.1

/-- The springs in the order in which they are written. -/
def sortedSprings (graph : Graph) : Except GraphFault (List Spring) := do
  let sorted ← graph.sortedWithKeys
  return sorted.map (·.2)

end Graph

namespace Spring

/-- The key of a spring in a graph. -/
def sortKey (spring : Spring) (graph : Graph) : Except GraphFault SortKey := do
  let source ← graph.position spring.source
  let destination ← graph.position spring.destination
  return SortKey.ofPositions source destination

/-- The end of a spring at the higher position; the destination if both are at one position. -/
def higherEnd (spring : Spring) (graph : Graph) : Except GraphFault Mass := do
  let source ← graph.position spring.source
  let destination ← graph.position spring.destination
  return if destination < source then spring.source else spring.destination

/-- The end of a spring at the lower position; the destination if both are at one position. -/
def lowerEnd (spring : Spring) (graph : Graph) : Except GraphFault Mass := do
  let source ← graph.position spring.source
  let destination ← graph.position spring.destination
  return if source < destination then spring.source else spring.destination

/-- Compares two springs of a graph: negative, zero or positive as the first one is written
before, together with or after the second one. -/
def compareIn (graph : Graph) (first second : Spring) : Except GraphFault Int := do
  let firstKey ← first.sortKey graph
  let secondKey ← second.sortKey graph
  if firstKey.higher ≠ secondKey.higher then
    return (firstKey.higher : Int) - secondKey.higher
  else
    return (firstKey.lower : Int) - secondKey.lower

end Spring

end SpringArm
