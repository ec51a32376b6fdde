import SpringArm.Graph.Spring
import SpringArm.Interval

/-!
# Graph

A graph is a list of masses and a list of springs, each in the order of insertion, with a supply
of keys for new ones. The position of a mass in its list is its only number. Taking a mass out
moves the later ones up; nothing else reorders the lists.
-/

namespace SpringArm

/-- Masses and springs in the order of insertion. Every new mass or spring takes `nextKey`. -/
structure Graph where
  masses : List Mass
  springs : List Spring
  nextKey : Nat

namespace Graph

/-- The graph without masses and springs. Its keys start at a given number. -/
def empty (nextKey : Nat) : Graph :=
  ⟨[], [], nextKey⟩

/-- A new mass, which is not put into the graph. -/
def newMass (graph : Graph) (x y : Float) (kind : MassKind) : Mass × Graph :=
  (⟨graph.nextKey, x, y, kind⟩, { graph with nextKey := graph.nextKey + 1 })

/-- Puts masses behind the ones of the graph. -/
def append (graph : Graph) (masses : List Mass) : Graph :=
  { graph with masses := graph.masses ++ masses }

/-- A new mass behind the ones of the graph. -/
def addMass (graph : Graph) (x y : Float) (kind : MassKind) : Mass × Graph :=
  let (mass, supplied) := graph.newMass x y kind
  (mass, supplied.append [mass])

/-- A new spring, which is not put into the graph. -/
def newSpring (graph : Graph) (source destination : Mass) : Spring × Graph :=
  (Spring.joining graph.nextKey source destination, { graph with nextKey := graph.nextKey + 1 })

/-- Puts a spring behind the ones of the graph. -/
def appendSpring (graph : Graph) (spring : Spring) : Graph :=
  { graph with springs := graph.springs ++ [spring] }

/-- A new spring behind the ones of the graph. -/
def addSpring (graph : Graph) (source destination : Mass) : Spring × Graph :=
  let (spring, supplied) := graph.newSpring source destination
  (spring, supplied.appendSpring spring)

/-- A mass is one of the graph's. -/
def contains (graph : Graph) (mass : Mass) : Bool :=
  graph.masses.any (·.same mass)

/-- The position of a mass: that of its first occurrence. -/
def position? (graph : Graph) (mass : Mass) : Option Nat :=
  graph.masses.findIdx? (·.same mass)

/-- The position of a mass of the graph. -/
def position (graph : Graph) (mass : Mass) : Except GraphFault Nat :=
  match graph.position? mass with
  | some position => .ok position
  | none => .error .foreignMass

/-- The masses of a kind, in order. -/
def massesOfKind (graph : Graph) (kind : MassKind) : List Mass :=
  graph.masses.filter (·.kind == kind)

/-- The network masses, in order. -/
def networkMasses (graph : Graph) : List Mass :=
  graph.massesOfKind .network

/-- The inputs, in order. -/
def inputs (graph : Graph) : List Mass :=
  graph.massesOfKind .input

/-- The first mass of a kind. -/
def firstOfKind? (graph : Graph) (kind : MassKind) : Option Mass :=
  graph.masses.find? (·.kind == kind)

/-- The springs that end at a mass, in order. -/
def springsOf (graph : Graph) (mass : Mass) : List Spring :=
  graph.springs.filter (·.touches mass)

/-- How many springs end at a mass. -/
def degree (graph : Graph) (mass : Mass) : Nat :=
  (graph.springsOf mass).length

/-- Some spring joins two masses, in either direction. -/
def hasSpringBetween (graph : Graph) (first second : Mass) : Bool :=
  (graph.springsOf first).any (·.touches second)

/-- Takes a spring of the graph out of it. -/
def removeSpring (graph : Graph) (spring : Spring) : Except GraphFault Graph :=
  if graph.springs.any (·.same spring) then
    .ok { graph with springs := graph.springs.eraseP (·.same spring) }
  else
    .error .foreignSpring

/-- A mass of the network at which no spring ends. -/
def isUnconnected (graph : Graph) (mass : Mass) : Bool :=
  mass.kind == .network && (graph.springsOf mass).isEmpty

/-- Drops the network masses without springs, and counts them. -/
def removeUnconnected (graph : Graph) : Nat × Graph :=
  let kept := graph.masses.filter fun mass => !graph.isUnconnected mass
  (graph.masses.length - kept.length, { graph with masses := kept })

/-- Drops all network masses and all springs that end at one. -/
def removeNetwork (graph : Graph) : Graph :=
  { graph with
    masses := graph.masses.filter (·.kind != .network)
    springs := graph.springs.filter (!·.touchesNetwork) }

/-- Drops everything. -/
def reset (graph : Graph) : Graph :=
  empty graph.nextKey

/-- The counts of masses and springs, as a graph is named in a message. -/
def summary (graph : Graph) : String :=
  "NetworkGraph(masses=" ++ toString graph.masses.length ++ ", springs="
    ++ toString graph.springs.length ++ ")"

end Graph

end SpringArm
