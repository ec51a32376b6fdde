import SpringArm.Growth.Pruning
import SpringArm.Growth.Random
import SpringArm.Growth.Trail

/-!
# Growth

A network grown around the arm of a blueprint. The network of an earlier growth is dropped; the
construction text is read with the first input as the cursor; random masses and springs are added;
dead ends are pruned; and network masses without springs are dropped unless they are to be shown.
Everything that was done before a fault stays done.
-/

namespace SpringArm.Growth

open SpringArm.Geometry (ArithmeticFault)

variable {γ : Type} [Draws γ]

/-- Why a growth stops. -/
inductive GrowthFault where
  /-- The ends of two springs are too far apart to be compared. -/
  | arithmetic (fault : ArithmeticFault)
  /-- A request to the graph was refused. -/
  | graph (fault : GraphFault)
deriving DecidableEq

/-- The text of a growth fault. -/
def GrowthFault.message : GrowthFault → String
  | .arithmetic fault => fault.message
  | .graph fault => fault.message

/-- What a growth leaves behind. -/
structure Grown (γ : Type) where
  blueprint : Blueprint
  draws : γ
  notices : List Notice
  /-- The problems of the construction text, or why the growth has stopped. -/
  outcome : Except GrowthFault (List Problem)

/-- The inputs to grow from: those of the blueprint, or else those of its graph. -/
def startInputs (blueprint : Blueprint) : List Mass :=
  if blueprint.inputs.isEmpty then blueprint.graph.inputs else blueprint.inputs

/-- Drops the network masses without springs, unless they are to be shown. -/
def dropUnconnected (blueprint : Blueprint) : Logged Blueprint :=
  if blueprint.switches.showNotConnectedMasses then
    ⟨blueprint, []⟩
  else
    let (count, graph) := blueprint.graph.removeUnconnected
    ⟨{ blueprint with graph }, [.unconnectedRemoved count]⟩

/-- All that follows the reading of a construction text. -/
def finish (limits : Limits) (trail : Trail γ) : Grown γ :=
  let masses := addRandomMasses trail.blueprint trail.cursor trail.draws
  let (_, withMasses, draws) := masses.value
  let springs := addRandomSprings withMasses limits draws
  let (_, withSprings, draws) := springs.value
  let notices := masses.notices ++ springs.notices
  match prune withSprings.graph with
  | (graph, some fault) =>
    ⟨{ withSprings with graph }, draws, notices, .error (.graph fault)⟩
  | (graph, none) =>
    let kept := dropUnconnected { withSprings with graph }
    let counts := Notice.networkDeveloped kept.value.graph.masses.length
      kept.value.graph.springs.length trail.problems.length
    ⟨kept.value, draws, notices ++ kept.notices ++ [counts], .ok trail.problems⟩

/-- Grows the network of a blueprint from a construction text. Without an input nothing changes. -/
def develop (limits : Limits) (blueprint : Blueprint) (construction : Option (List Char))
    (draws : γ) : Grown γ :=
  match startInputs blueprint with
  | [] => ⟨blueprint, draws, [.nothingToDevelop], .ok []⟩
  | first :: _ =>
    let cleared := { blueprint with graph := blueprint.graph.removeNetwork }
    match readConstruction limits cleared first (construction.getD []) draws with
    | (trail, some fault) => ⟨trail.blueprint, trail.draws, [], .error (.arithmetic fault)⟩
    | (trail, none) => finish limits trail

end SpringArm.Growth
