import SpringArm.Graph.Fault

/-!
# Spring

Springs join two masses. What a spring stands for physically is its connection, which follows
from the kinds of its two ends, in their order, when the spring is made, and never changes
afterwards.
-/

namespace SpringArm

/-- The constraints that a spring can stand for. -/
inductive Connection where
  | spring
  | pointToPoint
  | slider
  | coneTwist
  | fixed
  | robotArmBase
  | robotArmJoint
deriving DecidableEq

namespace Connection

/-- All connections in the order of their codes. -/
def all : List Connection :=
  [spring, pointToPoint, slider, coneTwist, fixed, robotArmBase, robotArmJoint]

/-- The number of a connection in a connection table. -/
def code : Connection → Nat
  | spring => 1
  | pointToPoint => 2
  | slider => 3
  | coneTwist => 4
  | fixed => 5
  | robotArmBase => 6
  | robotArmJoint => 7

/-- The name of a connection. -/
def name : Connection → String
  | spring => "SPRING"
  | pointToPoint => "POINT_TO_POINT"
  | slider => "SLIDER"
  | coneTwist => "CONE_TWIST"
  | fixed => "FIXED"
  | robotArmBase => "ROBOT_ARM_BASE"
  | robotArmJoint => "ROBOT_ARM_JOINT"

/-- The connection with a code. -/
def ofCode? (code : Int) : Option Connection :=
  all.find? fun connection => (connection.code : Int) = code

/-- The connection from a source of a known kind. A destination of no known kind counts as none of
the special ones. -/
def fromKind (source : MassKind) (destination : Option MassKind) : Connection :=
  match source with
  | .shoulder => if destination = some .armSegment then robotArmBase else fixed
  | .armSegment =>
    if destination = some .armSegment then robotArmJoint
    else if destination = some .shoulder then robotArmBase
    else fixed
  | .input => if destination = some .network then spring else fixed
  | .elbow => fixed
  | .hand => fixed
  | .network => spring

/-- The connection from a mass of one kind to a mass of another. -/
def between (source destination : MassKind) : Connection :=
  fromKind source (some destination)

/-- The connection between ends whose kinds may be unknown. Nothing leads from an unknown source. -/
def lookup (source destination : Option MassKind) : Except GraphFault Connection :=
  match source with
  | some kind => .ok (fromKind kind destination)
  | none => .error (.noConnection source destination)

end Connection

/-- A spring with its identity, its two ends and its connection. -/
structure Spring where
  key : Nat
  source : Mass
  destination : Mass
  connection : Connection

namespace Spring

/-- The spring between two masses, with the connection that their kinds ask for. -/
def joining (key : Nat) (source destination : Mass) : Spring :=
  ⟨key, source, destination, Connection.between source.kind destination.kind⟩

/-- Two springs are the same one. -/
def same (first second : Spring) : Bool :=
  first.key == second.key

/-- The segment between the ends of a spring. -/
def line (spring : Spring) : Geometry.Segment Float :=
  ⟨spring.source.place, spring.destination.place⟩

/-- The distance between the ends of a spring. -/
def length (spring : Spring) : Float :=
  spring.source.distanceTo spring.destination

/-- A mass is one of the two ends of a spring. -/
def touches (spring : Spring) (mass : Mass) : Bool :=
  spring.source.same mass || spring.destination.same mass

/-- The end of a spring opposite to a mass at one of its ends. -/
def opposite (spring : Spring) (mass : Mass) : Mass :=
  if spring.source.same mass then spring.destination else spring.source

/-- A spring has an end in the network. -/
def touchesNetwork (spring : Spring) : Bool :=
  spring.source.kind == .network || spring.destination.kind == .network

/-- Two springs cross, for ends that are the same point below a tolerance. -/
def crosses (tolerance : Float) (first second : Spring) :
    Except Geometry.ArithmeticFault Bool :=
  first.line.crosses (Geometry.samePoint tolerance) second.line

end Spring

end SpringArm
