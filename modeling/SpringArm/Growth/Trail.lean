import SpringArm.Graph.Search
import SpringArm.Growth.Placement
import SpringArm.Limits
import SpringArm.Problem
import SpringArm.Stepwise

/-!
# Trail

A construction text read letter by letter. A letter with a mass template adds a mass near the
cursor; a letter with a spring template joins the cursor to a mass in reach and moves the cursor
there; any other character is a problem. Where nothing is in reach the cursor stays.
-/

namespace SpringArm.Growth

open SpringArm.Geometry (ArithmeticFault)

variable {γ : Type} [Draws γ]

/-- The masses that a spring from the cursor can lead to: the ones in reach to which no spring leads
yet. -/
def springCandidates (blueprint : Blueprint) (limits : Limits) (cursor : Mass)
    (distance : Interval) : Except ArithmeticFault (List Mass) := do
  let reach : Graph.Reach :=
    ⟨distance, blueprint.switches.excludeSpringCrossings, limits.endpointTolerance⟩
  let reachable ← blueprint.graph.reachable reach cursor
  return reachable.filter fun mass => !blueprint.graph.hasSpringBetween cursor mass

/-- Joins the cursor to a candidate that is drawn. The result starts with the mass that was reached,
or with the cursor if there is no candidate. -/
def createSpring (blueprint : Blueprint) (limits : Limits) (cursor : Mass) (distance : Interval)
    (draws : γ) : Except ArithmeticFault (Mass × Blueprint × γ) := do
  let candidates ← springCandidates blueprint limits cursor distance
  if nonempty : 0 < candidates.length then
    let (target, rest) := Draws.choose candidates nonempty draws
    let (_, graph) := blueprint.graph.addSpring cursor target
    return (target, { blueprint with graph }, rest)
  else
    return (cursor, blueprint, draws)

/-- How far a construction text has been read. -/
structure Trail (γ : Type) where
  blueprint : Blueprint
  cursor : Mass
  draws : γ
  problems : List Problem

/-- Reads one character of a construction text, given with its position. -/
def readLetter (limits : Limits) (trail : Trail γ) (letter : Char × Nat) :
    Except ArithmeticFault (Trail γ) :=
  let (character, position) := letter
  match trail.blueprint.massTemplates.find? character with
  | some distance =>
    let (_, blueprint, draws) := createMass trail.blueprint trail.cursor distance trail.draws
    .ok { trail with blueprint, draws }
  | none =>
    match trail.blueprint.springTemplates.find? character with
    | some distance => do
      let (cursor, blueprint, draws) ←
        createSpring trail.blueprint limits trail.cursor distance trail.draws
      return { trail with cursor, blueprint, draws }
    | none =>
      let problem : Problem := ⟨position, .unknownConstruction character⟩
      .ok { trail with problems := trail.problems ++ [problem] }

/-- Reads a construction text from a cursor, up to the first fault. -/
def readConstruction (limits : Limits) (blueprint : Blueprint) (cursor : Mass)
    (construction : List Char) (draws : γ) : Trail γ × Option ArithmeticFault :=
  stepwise (readLetter limits) ⟨blueprint, cursor, draws, []⟩ construction.zipIdx

end SpringArm.Growth
