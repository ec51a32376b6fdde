import SpringArm.Blueprint.Basic
import SpringArm.Draws.Basic

/-!
# Placement

Where a new mass goes. On either axis the distance from the cursor is drawn to one side or the
other; the horizontal window is narrowed to the window of the blueprint, and heights are turned
upwards unless negative ones are allowed.
-/

namespace SpringArm.Growth

variable {γ : Type} [Draws γ]

/-- A number drawn from a window. -/
def numberIn (window : Interval) (draws : γ) : Float × γ :=
  let (unit, rest) := Draws.unit draws
  (unit * (window.high - window.low) + window.low, rest)

/-- The window at a distance from a centre, on the side that is drawn. -/
def windowAround (center : Float) (distance : Interval) (draws : γ) : Interval × γ :=
  let (side, rest) := Draws.unit draws
  if side < 0.5 then
    (⟨center + distance.low, center + distance.high⟩, rest)
  else
    (⟨center - distance.high, center - distance.low⟩, rest)

/-- A place around a cursor. The sides are drawn first, then the two numbers. -/
def place (blueprint : Blueprint) (cursor : Mass) (distanceX distanceY : Interval) (draws : γ) :
    Geometry.Point Float × γ :=
  let (sideX, draws) := windowAround cursor.x distanceX draws
  let (windowY, draws) := windowAround cursor.y distanceY draws
  let (x, draws) := numberIn (sideX.tighter blueprint.window) draws
  let (y, draws) := numberIn windowY draws
  (⟨x, if blueprint.switches.allowNegativeYValues then y else y.abs⟩, draws)

/-- Adds a network mass to the graph of a blueprint. -/
def addNetworkMass (blueprint : Blueprint) (point : Geometry.Point Float) : Mass × Blueprint :=
  let (mass, graph) := blueprint.graph.addMass point.x point.y .network
  (mass, { blueprint with graph })

/-- Adds a network mass at a distance from the cursor. -/
def createMass (blueprint : Blueprint) (cursor : Mass) (distance : Interval) (draws : γ) :
    Mass × Blueprint × γ :=
  let (point, rest) := place blueprint cursor distance distance draws
  let (mass, grown) := addNetworkMass blueprint point
  (mass, grown, rest)

end SpringArm.Growth
