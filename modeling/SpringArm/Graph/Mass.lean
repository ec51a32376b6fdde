import SpringArm.Geometry.Distance
import SpringArm.Geometry.Segment

/-!
# Mass

Masses are the points that springs attach to. Two masses at the same place are still two masses:
each one has a key of its own, and every question whether two masses are the same one compares
keys only.
-/

namespace SpringArm

/-- The parts of an arm and its network. -/
inductive MassKind where
  | shoulder
  | elbow
  | hand
  | armSegment
  | input
  | network
deriving DecidableEq

namespace MassKind

/-- All kinds, in the order in which they are listed and drawn. -/
def all : List MassKind :=
  [shoulder, elbow, hand, armSegment, input, network]

/-- The name of a kind. -/
def name : MassKind → String
  | shoulder => "SHOULDER"
  | elbow => "ELBOW"
  | hand => "HAND"
  | armSegment => "ARM_SEGMENT"
  | input => "INPUT"
  | network => "NETWORK"

/-- The letter of a kind in a masses table. Elbows and inputs share one. -/
def code : MassKind → Char
  | shoulder => 'f'
  | elbow => 'i'
  | hand => 'e'
  | armSegment => 'r'
  | input => 'i'
  | network => 't'

/-- The word for the colour of a kind. -/
def colour : MassKind → String
  | shoulder => "red"
  | elbow => "gray"
  | hand => "blue"
  | armSegment => "lightgray"
  | input => "green"
  | network => "white"

/-- Everything but the network belongs to the arm. -/
def isSkeleton (kind : MassKind) : Bool :=
  kind != network

/-- The kind that a code in a masses table stands for. The code shared by elbows and inputs
stands for an input. -/
def ofCode? (code : List Char) : Option MassKind :=
  if code = [input.code] then some input else all.find? fun kind => [kind.code] = code

/-- Masses of these kinds can be the end of a grown spring. -/
def isReachable (kind : MassKind) : Bool :=
  kind == network || kind == input

end MassKind

/-- A mass with its identity, its place and its kind. -/
structure Mass where
  key : Nat
  x : Float
  y : Float
  kind : MassKind

namespace Mass

/-- Two masses are the same one. -/
def same (first second : Mass) : Bool :=
  first.key == second.key

/-- The place of a mass. -/
def place (mass : Mass) : Geometry.Point Float :=
  ⟨mass.x, mass.y⟩

/-- The distance between two masses. -/
def distanceTo (first second : Mass) : Float :=
  Geometry.hypotenuse (first.x - second.x) (first.y - second.y)

end Mass

end SpringArm
