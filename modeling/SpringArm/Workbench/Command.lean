import SpringArm.Exchange.Import
import SpringArm.Growth.Basic
import SpringArm.Workbench.Basic

/-!
# Command

What can be asked of a workbench, what it answers, and why it refuses. A reference may be absent;
most commands need theirs.
-/

namespace SpringArm.Workbench

/-- A setting of the blueprint on a workbench. -/
inductive Setting where
  | switches (switches : List Switch)
  | window (window : Interval)
  | shoulder (mass : Option MassReference)
  | elbow (mass : Option MassReference)
  | hand (mass : Option MassReference)
  | inputs (masses : List (Option MassReference))
  | template (product : Product) (letter : Char) (distance : Interval)
  | random (product : Product) (count : Int)

/-- What can be asked of a workbench. -/
inductive Command where
  | makeMass (x y : Float) (kind : Option MassKind)
  | moveMass (mass : Option MassReference) (x y : Float)
  | changeKind (mass : Option MassReference) (kind : Option MassKind)
  | distance (first second : Option MassReference)
  | addMasses (masses : List (Option MassReference))
  | containsMass (mass : Option MassReference)
  | positionOf (mass : Option MassReference)
  | massesOfKind (kind : Option MassKind)
  | namedMasses
  | summary
  | addSpring (source destination : Option MassReference)
  | makeSpring (source destination : Option MassReference)
  | keepSpring (spring : Option SpringReference)
  | appendSpring (spring : Option SpringReference)
  | removeSpring (spring : Option SpringReference)
  | springsOf (mass : Option MassReference)
  | hasSpringBetween (first second : Option MassReference)
  | sortedSprings
  | wouldCross (source destination : Option MassReference) (tolerance : Option Float)
  | reachable (mass : Option MassReference) (distance : Interval) (excludeCrossings : Bool)
      (tolerance : Option Float)
  | removeUnconnected
  | removeNetwork
  | reset
  | springLength (spring : Option SpringReference)
  | springLine (spring : Option SpringReference)
  | touches (spring : Option SpringReference) (mass : Option MassReference)
  | springsCross (first second : Option SpringReference) (tolerance : Option Float)
  | springEnds (spring : Option SpringReference)
  | sortKey (spring : Option SpringReference)
  | compareSprings (first second : Option SpringReference)
  | exportTables
  | exportNothing
  | priorConnections (mass : Option MassReference)
  | reimport
  | showBlueprint
  | lookUp (letter : List Char)
  | set (setting : Setting)
  | connectSegments
  | drawNumbers (window : Interval) (count : Nat)
  | drawPlace (cursor : Option MassReference) (distanceX distanceY : Interval)
  | createMass (cursor : Option MassReference) (distance : Interval)
  | createSpring (cursor : Option MassReference) (distance : Interval)
  | addRandomMasses (cursor : Option MassReference)
  | addRandomSprings
  | prune
  | develop (construction : Option (List Char))
  | developWith (construction : Option (List Char)) (choice : DrawStream.Choice)

/-- What a letter stands for. -/
structure LetterMeaning where
  rule : Option Rule
  mass : Option Interval
  spring : Option Interval

/-- What a workbench answers. -/
inductive Reply where
  | done
  | truth (value : Bool)
  | number (value : Int)
  | numbers (values : List Nat)
  | real (value : Float)
  | reals (values : List Float)
  | text (value : List Char)
  | texts (values : List (List Char))
  | spring (value : Spring)
  | springs (values : List Spring)
  | mass (value : Mass)
  | masses (values : List Mass)
  | place (point : Geometry.Point Float)
  | line (segment : Geometry.Segment Float)
  | ends (higher lower : Mass)
  | key (key : SortKey)
  /-- The network masses, the inputs, and the first shoulder, elbow and hand of a graph. -/
  | named (graph : Graph)
  | blueprint (blueprint : Blueprint)
  | meaning (meaning : LetterMeaning)
  | problems (problems : List Problem)
  /-- Both tables are refused, with the same text. -/
  | refusedTables (message : String)

/-- Why a workbench refuses a command. -/
inductive CommandFault where
  /-- Masses are to be added and none is named. -/
  | noMass
  /-- One of several masses is absent. -/
  | absentMass
  /-- An end of a spring is absent. -/
  | absentEnd
  /-- What is asked about is absent. -/
  | absent
  /-- A mass is to be made without a kind. -/
  | absentKind
  /-- The mass has no row in the masses table. -/
  | noRow
  /-- A reference names nothing. -/
  | unresolved
  | graph (fault : GraphFault)
  | arithmetic (fault : Geometry.ArithmeticFault)
  | seed (fault : SeedFault)
  | growth (fault : Growth.GrowthFault)
  | tables (fault : Exchange.ImportFault)
deriving DecidableEq

/-- The text of a command fault. -/
def CommandFault.message : CommandFault → String
  | .noMass => "At least one mass has to be given."
  | .absentMass => "The argument may not contain None."
  | .absentEnd => "The arguments may not be None."
  | .absent => "The argument may not be None."
  | .absentKind => "The type may not be None."
  | .noRow => ""
  | .unresolved => ""
  | .graph fault => fault.message
  | .arithmetic fault => fault.message
  | .seed fault => fault.message
  | .growth fault => fault.message
  | .tables fault => fault.message

end SpringArm.Workbench
