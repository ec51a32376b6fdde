import SpringArm.Blueprint.Reading
import SpringArm.Draws.Stream
import SpringArm.Limits

/-!
# Workbench

A workbench holds one blueprint with a source of draws, and remembers masses and springs that were
made or kept outside the graph. Masses and springs are named by references; a mass that is moved or
changes its kind does so wherever the workbench knows it.
-/

namespace SpringArm

/-- The name of a mass on a workbench. -/
inductive MassReference where
  /-- The mass of a number among those that were made. -/
  | made (number : Nat)
  /-- The mass at a position of the graph. -/
  | inGraph (position : Nat)
deriving DecidableEq

/-- The name of a spring on a workbench. -/
inductive SpringReference where
  /-- The spring of a number among those that were kept. -/
  | kept (number : Nat)
  /-- The spring at a position of the graph. -/
  | inGraph (position : Nat)
deriving DecidableEq

/-- A blueprint that is worked on, with its draws and its handles. -/
structure Workbench where
  blueprint : Blueprint
  draws : DrawStream
  limits : Limits
  made : List Mass := []
  kept : List Spring := []

namespace Workbench

/-- The graph on the workbench. -/
def graph (bench : Workbench) : Graph :=
  bench.blueprint.graph

/-- Puts a graph on the workbench. The other parts of the blueprint stay. -/
def withGraph (bench : Workbench) (graph : Graph) : Workbench :=
  { bench with blueprint := { bench.blueprint with graph } }

/-- The mass with a name. -/
def mass? (bench : Workbench) : MassReference → Option Mass
  | .made number => bench.made[number]?
  | .inGraph position => bench.graph.masses[position]?

/-- The spring with a name. -/
def spring? (bench : Workbench) : SpringReference → Option Spring
  | .kept number => bench.kept[number]?
  | .inGraph position => bench.graph.springs[position]?

/-- Remembers a mass and gives its number. -/
def keepMass (bench : Workbench) (mass : Mass) : Nat × Workbench :=
  (bench.made.length, { bench with made := bench.made ++ [mass] })

/-- Remembers a spring and gives its number. -/
def keepSpring (bench : Workbench) (spring : Spring) : Nat × Workbench :=
  (bench.kept.length, { bench with kept := bench.kept ++ [spring] })

/-- The changed mass in the place of the mass with its key, and any other mass as it is. -/
def exchange (changed mass : Mass) : Mass :=
  if mass.same changed then changed else mass

/-- A spring whose ends are exchanged. Its connection stays. -/
def exchangeEnds (changed : Mass) (spring : Spring) : Spring :=
  { spring with
    source := exchange changed spring.source
    destination := exchange changed spring.destination }

/-- A graph in which a mass is exchanged. -/
def exchangeInGraph (changed : Mass) (graph : Graph) : Graph :=
  { graph with
    masses := graph.masses.map (exchange changed)
    springs := graph.springs.map (exchangeEnds changed) }

/-- A blueprint in which a mass is exchanged. -/
def exchangeInBlueprint (changed : Mass) (blueprint : Blueprint) : Blueprint :=
  { blueprint with
    shoulder := blueprint.shoulder.map (exchange changed)
    elbow := blueprint.elbow.map (exchange changed)
    hand := blueprint.hand.map (exchange changed)
    inputs := blueprint.inputs.map (exchange changed)
    graph := exchangeInGraph changed blueprint.graph
    upperSegment := blueprint.upperSegment.map (exchange changed)
    lowerSegment := blueprint.lowerSegment.map (exchange changed) }

/-- Changes a mass wherever the workbench knows it. -/
def exchangeMass (bench : Workbench) (changed : Mass) : Workbench :=
  { bench with
    blueprint := exchangeInBlueprint changed bench.blueprint
    made := bench.made.map (exchange changed)
    kept := bench.kept.map (exchangeEnds changed) }

/-- Why a workbench cannot be set up. -/
inductive SetupFault where
  | description (fault : Decimal.IntegerFault)
  | seed (fault : SeedFault)
deriving DecidableEq

/-- The text of a setup fault. -/
def SetupFault.message : SetupFault → String
  | .description fault => fault.message
  | .seed fault => fault.message

/-- The workbench of a description, or an empty one, with the draws that are asked for. -/
def setUp (limits : Limits) (description : Option (List Char)) (choice : DrawStream.Choice) :
    Except SetupFault Workbench := do
  let (blueprint, _) ← (Blueprint.read description).value.mapError .description
  let draws ← (DrawStream.ofChoice limits.defaultSeed choice).mapError .seed
  return { blueprint, draws, limits }

end Workbench

end SpringArm
