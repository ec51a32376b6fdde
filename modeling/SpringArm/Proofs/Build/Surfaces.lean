import SpringArm.CommandLine.Run
import SpringArm.Proofs.Build.Stages
import SpringArm.Proofs.Exchange.Export
import SpringArm.Service

/-!
# Surfaces

The service describes a network, writes its tables and expands its seed, each on a request of its
own, and the command line writes the tables to files. All of them tell of the same network, wherever
the draws of a seed come from and however a request was checked. The answers are compared as values:
writing them out is left to the caller, and fails where a number is not finite.
-/

namespace SpringArm

open Exchange

namespace Service

/-- The row that stands for a spring of an answer in a connection table. -/
def SpringEntry.row (entry : SpringEntry) : Row :=
  [entry.key.higher, entry.key.lower, entry.connection.code].map Decimal.natDigits

/-- The cells with which the row of a mass starts in a masses table: its code and its place. -/
def massCells (mass : Mass) : Row :=
  [[mass.kind.code], Decimal.floatText mass.x, Decimal.floatText mass.y]

section Requests

variable {γ : Type} [Draws γ] {β : Type}

/-- What the service answers to a body that asks for a growth and one that asks for an expansion,
with the draws of every seed and a check of the bodies. -/
structure Answers (seeded : Nat → γ) (checkGrowth : β → Except Invalid GrowthRequest)
    (checkExpansion : β → Except Invalid ExpansionRequest) (growth expansion : β)
    (answer : GrowthAnswer) (masses connections : List Char) (expanded : Expansion.Expanded) :
    Prop where
  develop : respond checkGrowth (Service.develop seeded) growth = .ok answer
  exportMasses :
    respond checkGrowth (Service.exportMasses seeded) growth = .ok ⟨tableType, masses⟩
  exportConnections :
    respond checkGrowth (Service.exportConnections seeded) growth = .ok ⟨tableType, connections⟩
  expand : respond checkExpansion Service.expand expansion = .ok expanded

end Requests

/-- The answers tell of the same network: the springs in order are the rows of the connection table,
the masses in order are what the rows of the masses table start with, and the construction with its
problems is the expanded seed. -/
structure Agree (answer : GrowthAnswer) (masses connections : List Char)
    (expanded : Expansion.Expanded) : Prop where
  springs : dataRows connections = answer.springs.map SpringEntry.row
  masses : (dataRows masses).map (·.take 3) = answer.masses.map massCells
  construction : answer.construction = expanded.text
  seedProblems : answer.seedProblems = expanded.problems.map Problem.report

/-- The answer that describes a build whose springs can be sorted. -/
def answerOf (build : Build) : GrowthAnswer where
  construction := build.construction
  masses := build.blueprint.graph.masses
  springs := build.blueprint.graph.canonical.map fun keyed => ⟨keyed.1, keyed.2.connection⟩
  descriptionProblems := build.descriptionProblems.map Problem.report
  seedProblems := build.seedProblems.map Problem.report
  constructionProblems := build.constructionProblems.map Problem.report

theorem describe_eq {build : Build} (closed : build.blueprint.graph.Closed) :
    describe build = .ok (answerOf build) := by
  rw [describe, closed.sortedWithKeys_eq]
  rfl

/-- The text of the connection table of a build whose springs can be sorted. -/
def connectionsOf (build : Build) : List Char :=
  tableText connectionsComment (build.blueprint.graph.canonical.map connectionRow)

/-- A request that passes its check is answered. -/
theorem respond_eq {β ρ α : Type} {check : β → Except Invalid ρ} {body : β} {request : ρ}
    (asks : check body = .ok request) (endpoint : ρ → Except ServiceFault α) :
    respond check endpoint body = endpoint request := by
  simp only [respond, asks, Except.mapError, bind, Except.bind]

/-- What the service answers, from the stages of the build that was asked for. -/
theorem answers_of_stages {γ : Type} [Draws γ] {seeded : Nat → γ} {β : Type}
    {checkGrowth : β → Except Invalid GrowthRequest}
    {checkExpansion : β → Except Invalid ExpansionRequest} {growth expansion : β}
    {description initialisation : List Char} {seed : Nat}
    (asksGrowth : checkGrowth growth = .ok ⟨description, initialisation, seed⟩)
    (asksExpansion : checkExpansion expansion = .ok ⟨description, initialisation⟩)
    {build : Build} {blueprint : Blueprint} {expanded : Expansion.Expanded}
    (stages : Build.Stages {} (some description) (some initialisation) (seeded seed) build blueprint
      expanded) :
    Answers seeded checkGrowth checkExpansion growth expansion (answerOf build)
      (massesTable build.blueprint.graph) (connectionsOf build) expanded := by
  have closed := stages.sound.toClosed
  have built : buildFor seeded ⟨description, initialisation, seed⟩ = .ok build := by
    rw [buildFor, buildNetwork_eq_ok_iff.mpr ⟨blueprint, expanded, stages⟩]
    rfl
  constructor
  · rw [respond_eq asksGrowth]
    simp only [develop, bind, Except.bind, built]
    exact describe_eq closed
  · rw [respond_eq asksGrowth]
    simp only [exportMasses, bind, Except.bind, built]
    rfl
  · rw [respond_eq asksGrowth]
    simp only [exportConnections, bind, Except.bind, built, closed.connectionsTable_eq]
    rfl
  · rw [respond_eq asksExpansion]
    simp only [expand, Except.mapError, bind, Except.bind, stages.read, stages.expand]

theorem agree_of_stages {γ : Type} [Draws γ] {limits : Limits}
    {description initialisation : Option (List Char)} {draws : γ} {build : Build}
    {blueprint : Blueprint} {expanded : Expansion.Expanded}
    (stages : Build.Stages limits description initialisation draws build blueprint expanded) :
    Agree (answerOf build) (massesTable build.blueprint.graph) (connectionsOf build) expanded where
  springs := by
    rw [connectionsOf, dataRows_connections, answerOf, List.map_map]
    rfl
  masses := by
    rw [dataRows_massesTable, massRows, List.map_map]
    rfl
  construction := stages.construction_eq
  seedProblems := congrArg (List.map Problem.report) stages.seedProblems_eq

/-- The answer has problems exactly if the build has. -/
theorem hasProblems_eq_false_iff (build : Build) :
    build.hasProblems = false ↔ (answerOf build).descriptionProblems = [] ∧
      (answerOf build).seedProblems = [] ∧ (answerOf build).constructionProblems = [] := by
  simp [Build.hasProblems, answerOf, and_assoc]

end Service

namespace CommandLine

/-- An argument that does not start with a dash is positional. -/
theorem shapeOf_positional {text : List Char} (noDash : text.head? ≠ some '-') :
    shapeOf text = .ok (.positional text) := by
  unfold shapeOf
  split <;> simp at noDash ⊢

/-- A file, a seed text and a number as the seed of the draws make a request. -/
theorem Request.ofArguments_plain {path initialisation : List Char} {seed : Nat}
    (plainPath : path.head? ≠ some '-') (plainInitialisation : initialisation.head? ≠ some '-')
    (short : (Decimal.natDigits seed).length ≤ Decimal.integerDigitLimit) :
    Request.ofArguments [path, initialisation, "--seed".toList, Decimal.natDigits seed] =
      .ok (.build path initialisation
        { positionals := [path, initialisation], seed := seed }) := by
  have option : shapeOf "--seed".toList = .ok (.option .seed none) := rfl
  have noDash : (Decimal.natDigits seed).head? ≠ some '-' := by
    intro dash
    have digit := Decimal.natDigits_plain seed '-' (List.mem_of_head? dash)
    exact absurd digit (by decide)
  have shapes : shapesOf [path, initialisation, "--seed".toList, Decimal.natDigits seed] =
      .ok [.positional path, .positional initialisation, .option .seed none,
        .positional (Decimal.natDigits seed)] := by
    simp only [shapesOf, shapeOf_positional plainPath, shapeOf_positional plainInitialisation,
      shapeOf_positional noDash, option, bind, Except.bind, reduceCtorEq, if_false]
    rfl
  simp only [Request.ofArguments, shapes, bind, Except.bind, interpret, Flag.takesValue, if_true,
    Collected.take, Decimal.readInteger?_natDigits short]
  rfl

/-- A file whose text is known can be read. -/
theorem Files.read_of_text? {files : Files} {path text : List Char}
    (holds : files.text? path = some text) : files.read path = .ok text := by
  unfold Files.text? at holds
  cases read : files.read path with
  | error fault =>
    rw [read] at holds
    cases holds
  | ok found =>
    rw [read] at holds
    cases holds
    rfl

/-- A run for a build whose springs can be sorted writes the two tables, and tells by its exit code
whether there were problems. -/
theorem run_of_build {γ : Type} [Draws γ] {seeded : Nat → γ} {files : Files}
    {arguments : List (List Char)}
    {path description initialisation : List Char} {seed : Nat} {collected : Collected}
    (asks : Request.ofArguments arguments = .ok (.build path initialisation collected))
    (sameSeed : collected.seed = seed) (noReturn : '\r' ∉ description)
    (holds : files.text? path = some description) (literal : files.text? initialisation = none)
    (out : collected.out ≠ []) (free : files.obstructs collected.out = false) {build : Build}
    (built : (buildNetwork {} (some description) (some initialisation)
      (seeded seed)).value = .ok build) (closed : build.blueprint.graph.Closed) :
    (run seeded files arguments).exit = .ok (if build.hasProblems then 1 else 0) ∧
      ∃ pictures, (collected.plot = false → pictures = []) ∧
        (run seeded files arguments).written =
          (pathIn collected.out "masses.csv", .text (massesTable build.blueprint.graph)) ::
            (pathIn collected.out "connection_map.csv", .text (Service.connectionsOf build)) ::
              pictures := by
  have draws : drawsOfSeed? seeded collected.seed = .ok (seeded seed) := by
    simp [drawsOfSeed?, sameSeed]
  simp only [run, asks, runBuild, Files.read_of_text? holds, draws,
    Text.unifyLineEnds_eq_self noReturn, seedText, literal, built, writeOutput, out, free,
    closed.connectionsTable_eq, if_false, Bool.false_eq_true]
  split
  next plot => exact ⟨rfl, _, fun noPlot => absurd plot (by simp [noPlot]), rfl⟩
  next noPlot => exact ⟨rfl, [], fun _ => rfl, rfl⟩

end CommandLine

/-- Whenever a network is built from a description, a seed text and the draws of a seed, the service
answers every request for it, and its answers tell of the same network. So does a run of the command
line on a file that holds the description, with the seed text given as it is: it writes the two
tables of the service, and its exit code is 1 exactly if the answer of the service has problems. A
plain list of arguments asks for such a run. This is so for every source of the draws, and for every
check that lets the requests pass as they are. The answers are the values that the service returns,
before they are written out. -/
theorem surfaces_agree {γ : Type} [Draws γ] {seeded : Nat → γ} {β : Type}
    {checkGrowth : β → Except Service.Invalid Service.GrowthRequest}
    {checkExpansion : β → Except Service.Invalid Service.ExpansionRequest} {growth expansion : β}
    {description initialisation : List Char} {seed : Nat}
    (asksGrowth : checkGrowth growth = .ok ⟨description, initialisation, seed⟩)
    (asksExpansion : checkExpansion expansion = .ok ⟨description, initialisation⟩)
    {build : Build} (built : (buildNetwork {} (some description) (some initialisation)
      (seeded seed)).value = .ok build) :
    ∃ answer masses connections expanded,
      Service.Answers seeded checkGrowth checkExpansion growth expansion answer masses connections
        expanded ∧
      Service.Agree answer masses connections expanded ∧
      (∀ (files : CommandLine.Files) arguments path collected, '\r' ∉ description →
        CommandLine.Request.ofArguments arguments = .ok (.build path initialisation collected) →
        collected.seed = seed → files.text? path = some description →
        files.text? initialisation = none → collected.out ≠ [] →
        files.obstructs collected.out = false →
        (CommandLine.run seeded files arguments).exit = .ok
          (if answer.descriptionProblems = [] ∧ answer.seedProblems = [] ∧
            answer.constructionProblems = [] then 0 else 1) ∧
        ∃ pictures, (collected.plot = false → pictures = []) ∧
          (CommandLine.run seeded files arguments).written =
            (CommandLine.pathIn collected.out "masses.csv", .text masses) ::
              (CommandLine.pathIn collected.out "connection_map.csv", .text connections) ::
                pictures) ∧
      ∀ path : List Char, path.head? ≠ some '-' → initialisation.head? ≠ some '-' →
        (Decimal.natDigits seed).length ≤ Decimal.integerDigitLimit →
        ∃ collected, CommandLine.Request.ofArguments
            [path, initialisation, "--seed".toList, Decimal.natDigits seed] =
              .ok (.build path initialisation collected) ∧
          collected.seed = seed ∧ collected.out = "artifacts".toList ∧ collected.plot = false := by
  obtain ⟨blueprint, expanded, stages⟩ := buildNetwork_eq_ok_iff.mp built
  refine ⟨Service.answerOf build, massesTable build.blueprint.graph, Service.connectionsOf build,
    expanded, Service.answers_of_stages asksGrowth asksExpansion stages,
    Service.agree_of_stages stages, ?_, ?_⟩
  · intro files arguments path collected noReturn asks sameSeed holds literal out free
    obtain ⟨exit, written⟩ := CommandLine.run_of_build asks sameSeed noReturn holds literal out free
      built stages.sound.toClosed
    refine ⟨exit.trans ?_, written⟩
    simp only [← Service.hasProblems_eq_false_iff]
    cases build.hasProblems <;> rfl
  · intro path plainPath plainInitialisation short
    exact ⟨_, CommandLine.Request.ofArguments_plain plainPath plainInitialisation short, rfl, rfl,
      rfl⟩

/-- The fields of requests for the network of the sample. -/
def sampleFields : Service.Fields :=
  ⟨some (.text sampleDescription), some (.text sampleSeed), some (.integer 5)⟩

/-- A directory with the description of the sample. -/
def sampleFiles : CommandLine.Files :=
  [("arm.txt".toList, sampleDescription)]

/-- The arguments that ask for the network of the sample. -/
def sampleArguments : List (List Char) :=
  ["arm.txt".toList, sampleSeed, "--seed".toList, Decimal.natDigits 5]

set_option maxRecDepth 4000 in
/-- The springs in the answer on the sample are the rows of the table that is exported, and that is
written to a file as well. -/
theorem surfaces_agree_sample :
    ∃ answer masses connections,
      Service.respond Service.growthRequest (Service.develop SeededDraws.ofSeed)
        (some sampleFields) = .ok answer ∧
      Service.respond Service.growthRequest (Service.exportMasses SeededDraws.ofSeed)
        (some sampleFields) = .ok ⟨"text/csv", masses⟩ ∧
      Service.respond Service.growthRequest (Service.exportConnections SeededDraws.ofSeed)
        (some sampleFields) = .ok ⟨"text/csv", connections⟩ ∧
      dataRows connections = answer.springs.map Service.SpringEntry.row ∧
      (dataRows masses).map (·.take 3) = answer.masses.map Service.massCells ∧
      (CommandLine.run SeededDraws.ofSeed sampleFiles sampleArguments).written =
        [("artifacts/masses.csv".toList, .text masses),
          ("artifacts/connection_map.csv".toList, .text connections)] := by
  obtain ⟨build, built, -⟩ := sample_built (fun _ => true) (by decide +kernel)
  have asksGrowth : Service.growthRequest (some sampleFields) =
      .ok ⟨sampleDescription, sampleSeed, 5⟩ := rfl
  have asksExpansion : Service.expansionRequest (some sampleFields) =
      .ok ⟨sampleDescription, sampleSeed⟩ := rfl
  obtain ⟨answer, masses, connections, expanded, answers, agree, runs, plain⟩ :=
    surfaces_agree asksGrowth asksExpansion built
  obtain ⟨collected, asks, sameSeed, out, noPlot⟩ :=
    plain "arm.txt".toList (by decide) (by decide) (by decide)
  obtain ⟨-, pictures, none, written⟩ := runs sampleFiles sampleArguments _ collected (by decide)
    asks sameSeed (by decide) (by decide) (by rw [out]; decide) (by rw [out]; decide)
  rw [none noPlot, out] at written
  exact ⟨answer, masses, connections, answers.develop, answers.exportMasses,
    answers.exportConnections, agree.springs, agree.masses, written⟩

end SpringArm
