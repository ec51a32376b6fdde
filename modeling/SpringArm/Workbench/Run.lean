import SpringArm.Workbench.Command

/-!
# Run

A workbench carries out commands one by one. A command that only looks leaves the workbench as it
is; a command that fails leaves it as far as the command had come.
-/

namespace SpringArm.Workbench

/-- The outcome of a command with the workbench after it. -/
abbrev Outcome := Except CommandFault Reply × Workbench

/-- Asks a question that changes nothing. -/
def ask (bench : Workbench) (answer : Except CommandFault Reply) : Outcome :=
  (answer, bench)

/-- The mass that a reference needs to name. -/
def needMass (bench : Workbench) (reference : Option MassReference) : Except CommandFault Mass :=
  match reference.bind bench.mass? with
  | some mass => .ok mass
  | none => .error .unresolved

/-- The spring that a reference needs to name. -/
def needSpring (bench : Workbench) (reference : Option SpringReference) :
    Except CommandFault Spring :=
  match reference.bind bench.spring? with
  | some spring => .ok spring
  | none => .error .unresolved

/-- The two ends that a new spring needs. -/
def needEnds (bench : Workbench) (source destination : Option MassReference) :
    Except CommandFault (Mass × Mass) := do
  if source.isNone || destination.isNone then
    .error .absentEnd
  else
    return (← bench.needMass source, ← bench.needMass destination)

/-- Goes on with a value or leaves the workbench as it is. -/
def continueWith {α : Type} (bench : Workbench) (value : Except CommandFault α)
    (next : α → Outcome) : Outcome :=
  match value with
  | .ok value => next value
  | .error fault => (.error fault, bench)

/-- The masses of several references, none of which may be absent. -/
def needMasses (bench : Workbench) (references : List (Option MassReference)) :
    Except CommandFault (List Mass) :=
  if references.isEmpty then .error .noMass
  else if references.any Option.isNone then .error .absentMass
  else references.mapM bench.needMass

/-- Carries out a setting. -/
def applySetting (bench : Workbench) (setting : Setting) : Except CommandFault Blueprint :=
  let blueprint := bench.blueprint
  let optional (reference : Option MassReference) : Except CommandFault (Option Mass) :=
    match reference with
    | none => .ok none
    | some _ => (bench.needMass reference).map some
  match setting with
  | .switches switches =>
    .ok { blueprint with switches := Switches.insertAll {} switches }
  | .window window => .ok { blueprint with window }
  | .shoulder reference => do return { blueprint with shoulder := ← optional reference }
  | .elbow reference => do return { blueprint with elbow := ← optional reference }
  | .hand reference => do return { blueprint with hand := ← optional reference }
  | .inputs references => do return { blueprint with inputs := ← references.mapM bench.needMass }
  | .template product letter distance => .ok (blueprint.addTemplate product letter distance)
  | .random product count => .ok (blueprint.setRandom product count)

/-- What a letter stands for on the workbench. -/
def meaningOf (bench : Workbench) (letter : List Char) : LetterMeaning :=
  let distance (templates : Templates) : Option Interval :=
    match letter with
    | [character] => templates.find? character
    | _ => none
  { rule := bench.blueprint.rule? letter
    mass := distance bench.blueprint.massTemplates
    spring := distance bench.blueprint.springTemplates }

/-- Draws so many numbers from a window. -/
def drawNumbers (window : Interval) : Nat → DrawStream → List Float × DrawStream
  | 0, draws => ([], draws)
  | count + 1, draws =>
    let (number, rest) := Growth.numberIn window draws
    let (numbers, final) := drawNumbers window count rest
    (number :: numbers, final)

/-- Grows the network on the workbench. Without draws of its own the growth uses those of the
workbench up. -/
def runDevelop (bench : Workbench) (construction : Option (List Char))
    (draws : Option DrawStream) : Outcome :=
  let grown :=
    Growth.develop bench.limits bench.blueprint construction (draws.getD bench.draws)
  let after := { bench with
    blueprint := grown.blueprint
    draws := if draws.isSome then bench.draws else grown.draws }
  ((grown.outcome.mapError .growth).map .problems, after)

/-- Both tables of the graph. -/
def tables (bench : Workbench) : Except CommandFault (List Char × List Char) := do
  let connections ← (Exchange.connectionsTable bench.graph).mapError .graph
  return (Exchange.massesTable bench.graph, connections)

/-- The graph that is read back from its own tables. -/
def reimported (bench : Workbench) : Except CommandFault Graph := do
  let (masses, connections) ← bench.tables
  (Exchange.importTables bench.graph.nextKey (some masses) (some connections)).mapError .tables

/-- Carries out a command about masses. -/
def runOnMasses (bench : Workbench) : Command → Option Outcome
  | .makeMass x y kind =>
    some <| match kind with
      | none => (.error .absentKind, bench)
      | some kind =>
        let (mass, graph) := bench.graph.newMass x y kind
        let (number, after) := (bench.withGraph graph).keepMass mass
        (.ok (.number number), after)
  | .moveMass reference x y =>
    some <| bench.continueWith (bench.needMass reference) fun mass =>
      (.ok .done, bench.exchangeMass { mass with x, y })
  | .changeKind reference kind =>
    some <| bench.continueWith (bench.needMass reference) fun mass =>
      match kind with
      | none => (.error .absentKind, bench)
      | some kind => (.ok .done, bench.exchangeMass { mass with kind })
  | .distance first second =>
    some <| bench.ask do
      let first ← bench.needMass first
      let second ← bench.needMass second
      return .real (first.distanceTo second)
  | .addMasses references =>
    some <| bench.continueWith (bench.needMasses references) fun masses =>
      (.ok .done, bench.withGraph (bench.graph.append masses))
  | .containsMass reference =>
    some <| bench.ask (.ok (.truth ((reference.bind bench.mass?).any bench.graph.contains)))
  | .positionOf reference =>
    some <| bench.ask <|
      match reference.bind bench.mass? with
      | none => .error (.graph .foreignMass)
      | some mass => ((bench.graph.position mass).mapError .graph).map (.number ∘ Int.ofNat)
  | .massesOfKind kind =>
    some <| bench.ask (.ok (.masses ((kind.map bench.graph.massesOfKind).getD [])))
  | .namedMasses => some <| bench.ask (.ok (.named bench.graph))
  | .summary => some <| bench.ask (.ok (.text bench.graph.summary.toList))
  | .removeUnconnected =>
    let (count, graph) := bench.graph.removeUnconnected
    some (.ok (.number count), bench.withGraph graph)
  | .removeNetwork => some (.ok .done, bench.withGraph bench.graph.removeNetwork)
  | .reset => some (.ok .done, bench.withGraph bench.graph.reset)
  | _ => none

/-- Carries out a command about springs. -/
def runOnSprings (bench : Workbench) : Command → Option Outcome
  | .addSpring source destination =>
    some <| bench.continueWith (bench.needEnds source destination) fun (source, destination) =>
      let (spring, graph) := bench.graph.addSpring source destination
      (.ok (.spring spring), bench.withGraph graph)
  | .makeSpring source destination =>
    some <| bench.continueWith (bench.needEnds source destination) fun (source, destination) =>
      let (spring, graph) := bench.graph.newSpring source destination
      let (number, after) := (bench.withGraph graph).keepSpring spring
      (.ok (.number number), after)
  | .keepSpring reference =>
    some <| bench.continueWith (bench.needSpring reference) fun spring =>
      let (number, after) := Workbench.keepSpring bench spring
      (.ok (.number number), after)
  | .appendSpring reference =>
    some <| bench.continueWith (bench.needSpring reference) fun spring =>
      (.ok .done, bench.withGraph (bench.graph.appendSpring spring))
  | .removeSpring reference =>
    let removed : Except CommandFault Graph :=
      match reference.bind bench.spring? with
      | none => .error (.graph .foreignSpring)
      | some spring => (bench.graph.removeSpring spring).mapError .graph
    some <| bench.continueWith removed fun graph => (.ok .done, bench.withGraph graph)
  | .springsOf reference =>
    some <| bench.ask <|
      .ok (.springs (((reference.bind bench.mass?).map bench.graph.springsOf).getD []))
  | .hasSpringBetween first second =>
    some <| bench.ask <|
      match first.bind bench.mass?, second.bind bench.mass? with
      | some first, some second => .ok (.truth (bench.graph.hasSpringBetween first second))
      | _, _ => .ok (.truth false)
  | .sortedSprings =>
    some <| bench.ask ((bench.graph.sortedSprings.mapError .graph).map .springs)
  | .springLength reference =>
    some <| bench.ask ((bench.needSpring reference).map fun spring => .real spring.length)
  | .springLine reference =>
    some <| bench.ask ((bench.needSpring reference).map fun spring => .line spring.line)
  | .touches reference mass =>
    some <| bench.ask do
      let spring ← bench.needSpring reference
      return .truth ((mass.bind bench.mass?).any spring.touches)
  | .springsCross first second tolerance =>
    some <| bench.ask do
      let first ← bench.needSpring first
      let second ← bench.needSpring second
      let tolerance := tolerance.getD Geometry.endpointTolerance
      return .truth (← (first.crosses tolerance second).mapError .arithmetic)
  | .springEnds reference =>
    some <| bench.ask do
      let spring ← bench.needSpring reference
      let higher ← (spring.higherEnd bench.graph).mapError .graph
      let lower ← (spring.lowerEnd bench.graph).mapError .graph
      return .ends higher lower
  | .sortKey reference =>
    some <| bench.ask do
      let spring ← bench.needSpring reference
      return .key (← (spring.sortKey bench.graph).mapError .graph)
  | .compareSprings first second =>
    some <| bench.ask do
      let first ← bench.needSpring first
      if second.isNone then
        .error .absent
      else
        let second ← bench.needSpring second
        return .number (← (first.compareIn bench.graph second).mapError .graph)
  | _ => none

/-- Carries out a command that searches the graph or writes its tables. -/
def runOnGraph (bench : Workbench) : Command → Option Outcome
  | .wouldCross source destination tolerance =>
    some <| bench.ask do
      let source ← bench.needMass source
      let destination ← bench.needMass destination
      let tolerance := tolerance.getD Geometry.endpointTolerance
      return .truth
        (← (bench.graph.wouldCross tolerance source destination).mapError .arithmetic)
  | .reachable reference distance excludeCrossings tolerance =>
    some <| bench.ask do
      let mass ← bench.needMass reference
      let reach : Graph.Reach :=
        ⟨distance, excludeCrossings, tolerance.getD Geometry.endpointTolerance⟩
      return .masses (← (bench.graph.reachable reach mass).mapError .arithmetic)
  | .exportTables =>
    some <| bench.ask (bench.tables.map fun (masses, connections) => .texts [masses, connections])
  | .exportNothing => some <| bench.ask (.ok (.refusedTables CommandFault.absent.message))
  | .priorConnections reference =>
    some <| bench.ask <|
      match (reference.bind bench.mass?).bind (Exchange.priorConnections? bench.graph) with
      | some positions => .ok (.numbers positions)
      | none => .error .noRow
  | .reimport =>
    some <| bench.continueWith bench.reimported fun graph => (.ok .done, bench.withGraph graph)
  | _ => none

/-- Carries out a command about the blueprint or its growth. -/
def runOnBlueprint (bench : Workbench) : Command → Option Outcome
  | .showBlueprint => some <| bench.ask (.ok (.blueprint bench.blueprint))
  | .lookUp letter => some <| bench.ask (.ok (.meaning (bench.meaningOf letter)))
  | .set setting =>
    some <| bench.continueWith (bench.applySetting setting) fun blueprint =>
      (.ok .done, { bench with blueprint })
  | .connectSegments =>
    some (.ok .done, { bench with blueprint := bench.blueprint.connectSegments.value })
  | .drawNumbers window count =>
    let (numbers, draws) := Workbench.drawNumbers window count bench.draws
    some (.ok (.reals numbers), { bench with draws })
  | .drawPlace reference distanceX distanceY =>
    some <| bench.continueWith (bench.needMass reference) fun cursor =>
      let (point, draws) :=
        Growth.place bench.blueprint cursor distanceX distanceY bench.draws
      (.ok (.place point), { bench with draws })
  | .createMass reference distance =>
    some <| bench.continueWith (bench.needMass reference) fun cursor =>
      let (mass, blueprint, draws) :=
        Growth.createMass bench.blueprint cursor distance bench.draws
      (.ok (.mass mass), { bench with blueprint, draws })
  | .createSpring reference distance =>
    some <| bench.continueWith (bench.needMass reference) fun cursor =>
      let created :=
        Growth.createSpring bench.blueprint bench.limits cursor distance bench.draws
      bench.continueWith (created.mapError .arithmetic) fun (mass, blueprint, draws) =>
        (.ok (.mass mass), { bench with blueprint, draws })
  | .addRandomMasses reference =>
    some <| bench.continueWith (bench.needMass reference) fun cursor =>
      let (count, blueprint, draws) :=
        (Growth.addRandomMasses bench.blueprint cursor bench.draws).value
      (.ok (.number count), { bench with blueprint, draws })
  | .addRandomSprings =>
    let (count, blueprint, draws) :=
      (Growth.addRandomSprings bench.blueprint bench.limits bench.draws).value
    some (.ok (.number count), { bench with blueprint, draws })
  | .prune =>
    let ((graph, count), fault) := Growth.pruneCounting bench.graph
    let answer : Except CommandFault Reply :=
      match fault with
      | none => .ok (.number count)
      | some fault => .error (.graph fault)
    some (answer, bench.withGraph graph)
  | .develop construction => some (bench.runDevelop construction none)
  | .developWith construction choice =>
    let draws := (DrawStream.ofChoice bench.limits.defaultSeed choice).mapError .seed
    some <| bench.continueWith draws fun draws => bench.runDevelop construction (some draws)
  | _ => none

/-- Carries out a command. -/
def run (bench : Workbench) (command : Command) : Outcome :=
  (bench.runOnMasses command <|> bench.runOnSprings command <|> bench.runOnGraph command
    <|> bench.runOnBlueprint command).getD (.error .unresolved, bench)

/-- Carries out commands one after the other, and gives each answer with the workbench after it. -/
def runAll (bench : Workbench) : List Command → List Outcome
  | [] => []
  | command :: rest =>
    let outcome := bench.run command
    outcome :: runAll outcome.2 rest

end SpringArm.Workbench
