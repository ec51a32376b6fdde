import SpringArm.Growth.Placement
import SpringArm.Limits
import SpringArm.Notice

/-!
# Random

The masses and springs that are added at random once a construction text has been read. Random
masses lie around the cursor as far as the window and the height of the arm reach, and are lowered
to the hand. Random springs join two masses drawn from the network and the inputs, at least one of
them in the network, that are not joined yet; a bounded number of pairs is drawn for them.
-/

namespace SpringArm.Growth

variable {γ : Type} [Draws γ]

/-- Adds a random mass between the heights of a shoulder and a hand. -/
def addRandomMass (cursor shoulder hand : Mass) (blueprint : Blueprint) (draws : γ) :
    Blueprint × γ :=
  let heights : Interval := ⟨shoulder.y, hand.y⟩
  let (point, rest) := place blueprint cursor blueprint.window heights draws
  let lowered := if hand.y < point.y then hand.y else point.y
  ((addNetworkMass blueprint ⟨point.x, lowered⟩).2, rest)

/-- Adds so many random masses. -/
def repeatRandomMass (cursor shoulder hand : Mass) : Nat → Blueprint → γ → Blueprint × γ
  | 0, blueprint, draws => (blueprint, draws)
  | count + 1, blueprint, draws =>
    let (grown, rest) := addRandomMass cursor shoulder hand blueprint draws
    repeatRandomMass cursor shoulder hand count grown rest

/-- Adds the random masses of a blueprint, and counts them. There are none without a shoulder and a
hand. -/
def addRandomMasses (blueprint : Blueprint) (cursor : Mass) (draws : γ) :
    Logged (Int × Blueprint × γ) :=
  if blueprint.randomMasses ≤ 0 then
    ⟨(0, blueprint, draws), []⟩
  else
    match blueprint.shoulder, blueprint.hand with
    | some shoulder, some hand =>
      let (grown, rest) :=
        repeatRandomMass cursor shoulder hand blueprint.randomMasses.toNat blueprint draws
      ⟨(blueprint.randomMasses, grown, rest), [.randomMassesAdded blueprint.randomMasses]⟩
    | _, _ => ⟨(0, blueprint, draws), [.randomMassesSkipped blueprint.randomMasses]⟩

/-- Draws the two ends of a random spring from a pool. If the source is a network mass and the
destination is no input, the destination is exchanged for an input with a given chance. -/
def drawEnds (inputs pool : List Mass) (nonempty : 0 < pool.length) (inputChance : Float)
    (draws : γ) : (Mass × Mass) × γ :=
  let (source, draws) := Draws.choose pool nonempty draws
  let (destination, draws) := Draws.choose pool nonempty draws
  if someInput : 0 < inputs.length then
    if source.kind == .network && destination.kind != .input then
      let (chance, draws) := Draws.unit draws
      if chance < inputChance then
        let (input, draws) := Draws.choose inputs someInput draws
        ((source, input), draws)
      else
        ((source, destination), draws)
    else
      ((source, destination), draws)
  else
    ((source, destination), draws)

/-- Two masses can be the ends of a random spring: they differ, they are not both inputs, and no
spring joins them. -/
def acceptsEnds (graph : Graph) (source destination : Mass) : Bool :=
  !source.same destination
    && !(source.kind == .input && destination.kind == .input)
    && !graph.hasSpringBetween source destination

/-- Draws pairs of ends until enough springs are added or the attempts are used up. The result
starts with the number of springs added. -/
def attemptSprings (inputs pool : List Mass) (nonempty : 0 < pool.length) (inputChance : Float) :
    Nat → Nat → Graph → γ → Nat × Graph × γ
  | 0, _, graph, draws => (0, graph, draws)
  | _, 0, graph, draws => (0, graph, draws)
  | attempts + 1, wanted + 1, graph, draws =>
    let ((source, destination), rest) := drawEnds inputs pool nonempty inputChance draws
    if acceptsEnds graph source destination then
      let (_, grown) := graph.addSpring source destination
      let (added, final) :=
        attemptSprings inputs pool nonempty inputChance attempts wanted grown rest
      (added + 1, final)
    else
      attemptSprings inputs pool nonempty inputChance attempts (wanted + 1) graph rest

/-- The masses that random springs are drawn from: the network, then the inputs. -/
def springPool (graph : Graph) : List Mass :=
  graph.networkMasses ++ graph.inputs

/-- A graph with a network has masses to draw random springs from. -/
theorem springPool_nonempty {graph : Graph} (network : graph.networkMasses.isEmpty = false) :
    0 < (springPool graph).length := by
  simp only [springPool, List.length_append]
  have positive := List.length_pos_iff.mpr (List.isEmpty_eq_false_iff.mp network)
  omega

/-- Adds the random springs of a blueprint, and counts them. There are none without a network. -/
def addRandomSprings (blueprint : Blueprint) (limits : Limits) (draws : γ) :
    Logged (Nat × Blueprint × γ) :=
  if blueprint.randomSprings ≤ 0 then
    ⟨(0, blueprint, draws), []⟩
  else if network : blueprint.graph.networkMasses.isEmpty = false then
    let (added, graph, rest) :=
      attemptSprings blueprint.graph.inputs (springPool blueprint.graph)
        (springPool_nonempty network) limits.inputChance limits.springAttempts.toNat
        blueprint.randomSprings.toNat blueprint.graph draws
    let notices :=
      if (added : Int) < blueprint.randomSprings then
        [.randomSpringsMissing added blueprint.randomSprings limits.springAttempts.toNat]
      else
        []
    ⟨(added, { blueprint with graph }, rest), notices⟩
  else
    ⟨(0, blueprint, draws), []⟩

end SpringArm.Growth
