import SpringArm.Graph.Basic
import SpringArm.Stepwise

/-!
# Pruning

Dead ends of the network lose their spring. The network masses are visited once, in order; a mass
that has exactly one spring when it is visited loses it. A neighbour that was visited before may be
left with a single spring, which stays.
-/

namespace SpringArm.Growth

/-- Takes the only spring of a mass out of a graph. A mass with none or with more keeps them. -/
def pruneMass (graph : Graph) (mass : Mass) : Except GraphFault Graph :=
  match graph.springsOf mass with
  | [spring] => graph.removeSpring spring
  | _ => .ok graph

/-- Visits all network masses of a graph, up to the first fault. -/
def prune (graph : Graph) : Graph × Option GraphFault :=
  stepwise pruneMass graph graph.networkMasses

/-- Visits a mass and counts the spring that it loses. -/
def pruneMassCounting (state : Graph × Nat) (mass : Mass) : Except GraphFault (Graph × Nat) := do
  let (graph, removed) := state
  let pruned ← pruneMass graph mass
  return (pruned, if graph.degree mass = 1 then removed + 1 else removed)

/-- Visits all network masses of a graph, up to the first fault, and counts the springs that are
lost. -/
def pruneCounting (graph : Graph) : (Graph × Nat) × Option GraphFault :=
  stepwise pruneMassCounting (graph, 0) graph.networkMasses

end SpringArm.Growth
