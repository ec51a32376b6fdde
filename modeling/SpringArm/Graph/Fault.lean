import SpringArm.Graph.Mass

/-!
# Fault

What can be wrong with a request to a graph.
-/

namespace SpringArm

/-- The ways in which a request to a graph can be refused. -/
inductive GraphFault where
  /-- No connection leads from a source of this kind. -/
  | noConnection (source destination : Option MassKind)
  /-- The mass is not one of the graph's. -/
  | foreignMass
  /-- The spring is not one of the graph's. -/
  | foreignSpring
  /-- A spring of the graph ends at a mass that is not one of the graph's. -/
  | danglingSpring
deriving DecidableEq

/-- A kind as it stands in a message. -/
def kindInMessage : Option MassKind → String
  | some kind => "MassType." ++ kind.name
  | none => "None"

/-- The text of a graph fault. -/
def GraphFault.message : GraphFault → String
  | .noConnection source destination =>
    "The given masses of the type " ++ kindInMessage source ++ " (source) respectively "
      ++ kindInMessage destination ++ " (destination) cannot be connected via springs."
  | .foreignMass => "This mass is not in the given NetworkGraph."
  | .foreignSpring => "This spring is not in the given NetworkGraph."
  | .danglingSpring => "A spring references a mass that is not in this NetworkGraph."

end SpringArm
