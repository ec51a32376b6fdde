import SpringArm.Build
import SpringArm.CommandLine.Arguments
import SpringArm.CommandLine.Files
import SpringArm.Draws.Stream
import SpringArm.Exchange.Export
import SpringArm.Figure
import SpringArm.Log
import SpringArm.Text.Quoted

/-!
# Run

The command line as a function: from the files of a directory and the arguments to the exit code,
the text on the console and the files that are written. It builds one network, tells about it and
about all problems, and writes its tables and, if asked, a drawing. The console shows the log in
place. Where the draws of a seed come from is left to the caller.
-/

namespace SpringArm.CommandLine

/-- What is written to a file. -/
inductive Content where
  | text (text : List Char)
  | picture (drawing : Figure.Drawing)

/-- The text that stands for a content in a file. A picture is listed item by item. -/
def Content.fileText : Content → String
  | .text characters => String.ofList characters
  | .picture drawing => drawing.listing

/-- Why a run stops. -/
inductive RunFault where
  | unreadable (fault : PathFault) (path : List Char)
  | pathTaken (path : List Char)
  | seed (fault : SeedFault)
  | build (fault : BuildFault)
  | graph (fault : GraphFault)
deriving DecidableEq

/-- The text of a run fault. -/
def RunFault.message : RunFault → String
  | .unreadable fault path => fault.message ++ ": " ++ String.ofList (Text.quoted path)
  | .pathTaken path => "[Errno 17] File exists: " ++ String.ofList (Text.quoted path)
  | .seed fault => fault.message
  | .build fault => fault.message
  | .graph fault => fault.message

/-- How a run ends. -/
structure Finished where
  /-- The exit code, or why the run has stopped. -/
  exit : Except RunFault Nat
  console : String
  /-- The files that were written, with their paths. -/
  written : List (List Char × Content)

/-- The exit code for arguments that make no sense. -/
def usageExit : Nat := 2

/-- A line of the console. -/
def consoleLine (text : String) : String := text ++ "\n"

/-- The heading of a run. -/
def heading : String :=
  let rule := String.ofList (List.replicate 70 '=')
  consoleLine rule ++ consoleLine "ARM NETWORK GROWTH" ++ consoleLine rule

/-- The lines about the problems of a stage. -/
def problemLines (stage : String) (problems : List Problem) : String :=
  String.join <| problems.map fun problem =>
    consoleLine ("  [" ++ stage ++ "] " ++ toString problem.position ++ ": "
      ++ problem.cause.message)

/-- The lines about a build. -/
def buildLines (build : Build) : String :=
  let graph := build.blueprint.graph
  let found :=
    if build.hasProblems then
      consoleLine "Errors:" ++ problemLines "grammar" build.descriptionProblems
        ++ problemLines "seed" build.seedProblems
        ++ problemLines "construction" build.constructionProblems
    else
      ""
  consoleLine ("Construction string: " ++ String.ofList build.construction)
    ++ consoleLine ("Masses: " ++ toString graph.masses.length ++ "  Springs: "
      ++ toString graph.springs.length)
    ++ found

/-- The lines of notices that a log setup lets through. -/
def noticeLines (setup : Log.Setup) (notices : List Notice) : String :=
  String.join <|
    ((notices.map Log.Entry.ofNotice).filter setup.accepts).map Log.Entry.line

/-- The seed that an argument gives: the trimmed text of a file of this name, or else itself. -/
def seedText (files : Files) (argument : List Char) : List Char :=
  match files.text? argument with
  | some text => Text.trim (Text.unifyLineEnds text)
  | none => argument

/-- Writes the tables, and the drawing if it was asked for, and ends the run. -/
def writeOutput (files : Files) (collected : Collected) (build : Build) (console : String) :
    Finished :=
  let graph := build.blueprint.graph
  if collected.out = [] then
    ⟨.error (.unreadable .missing []), console, []⟩
  else if files.obstructs collected.out then
    ⟨.error (.pathTaken collected.out), console, []⟩
  else
    let massesPath := pathIn collected.out "masses.csv"
    let connectionsPath := pathIn collected.out "connection_map.csv"
    let massesFile := (massesPath, Content.text (Exchange.massesTable graph))
    match Exchange.connectionsTable graph with
    | .error fault => ⟨.error (.graph fault), console, [massesFile]⟩
    | .ok connections =>
      let tables := [massesFile, (connectionsPath, Content.text connections)]
      let told := console
        ++ consoleLine ("Masses saved to: " ++ String.ofList massesPath)
        ++ consoleLine ("Connection map saved to: " ++ String.ofList connectionsPath)
      let exit := if build.hasProblems then 1 else 0
      if collected.plot then
        let plotPath := pathIn collected.out "network.png"
        let drawing := Figure.draw graph (some build.blueprint.window) none false
        ⟨.ok exit, told ++ consoleLine ("Plot saved to: " ++ String.ofList plotPath),
          tables ++ [(plotPath, Content.picture drawing)]⟩
      else
        ⟨.ok exit, told, tables⟩

section Runs

variable {γ : Type} [Draws γ] (seeded : Nat → γ)

/-- Builds the network that was asked for. -/
def runBuild (files : Files) (description seed : List Char) (collected : Collected) : Finished :=
  let setup : Log.Setup := ⟨if collected.verbose then .debug else .info, false⟩
  let opened := noticeLines setup [.logReady]
  match files.read description with
  | .error fault => ⟨.error (.unreadable fault description), opened, []⟩
  | .ok text =>
    let titled := opened ++ heading
    match drawsOfSeed? seeded collected.seed with
    | .error fault => ⟨.error (.seed fault), titled, []⟩
    | .ok draws =>
      let built := buildNetwork {} (some (Text.unifyLineEnds text))
        (some (seedText files seed)) draws
      let console := titled ++ noticeLines setup built.notices
      match built.value with
      | .error fault => ⟨.error (.build fault), console, []⟩
      | .ok build => writeOutput files collected build (console ++ buildLines build)

/-- How the program is called. -/
def usage : String :=
  "usage: [-h] [--seed SEED] [--out OUT] [--plot] [--verbose] grammar initialisation"

/-- Runs the command line, with the draws of every seed. -/
def run (files : Files) (arguments : List (List Char)) : Finished :=
  match Request.ofArguments arguments with
  | .error _ => ⟨.ok usageExit, "", []⟩
  | .ok .help => ⟨.ok 0, consoleLine usage, []⟩
  | .ok (.build description seed collected) => runBuild seeded files description seed collected

end Runs

/-- The files that a run with these arguments looks at. -/
def filesInSight (arguments : List (List Char)) : List (List Char) :=
  match Request.ofArguments arguments with
  | .ok (.build description seed collected) => [description, seed, collected.out]
  | _ => []

/-- The exit code of a run that has ended. A run that was stopped fails. -/
def Finished.exitCode (finished : Finished) : Nat :=
  match finished.exit with
  | .ok code => code
  | .error _ => 1

/-- What is said besides the console about a run that was stopped or never started. -/
def Finished.complaint? (finished : Finished) : Option String :=
  match finished.exit with
  | .ok code => if code = usageExit then some usage else none
  | .error fault => some fault.message

end SpringArm.CommandLine
