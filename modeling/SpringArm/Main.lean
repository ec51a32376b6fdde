import SpringArm.CommandLine.Run

/-!
# Main

The program itself. It reads the files that its arguments name, runs the command line on them,
prints what the run prints, writes what the run writes, and leaves with the exit code of the
run. -/

namespace SpringArm.CommandLine

/-- A file with its text, if there is one that can be read. -/
def readFile? (path : List Char) : IO (Option (List Char × List Char)) := do
  try
    let text ← IO.FS.readFile (String.ofList path)
    return some (path, text.toList)
  catch _ =>
    return none

/-- Writes a file of a run. Its directory is made first. -/
def writeFile (path : List Char) (content : Content) : IO Unit := do
  IO.FS.createDirAll (String.ofList (directoryOf path))
  IO.FS.writeFile (String.ofList path) content.fileText

end SpringArm.CommandLine

open SpringArm.CommandLine in
/-- Runs the command line. -/
def main (arguments : List String) : IO UInt32 := do
  let arguments := arguments.map String.toList
  let files ← (filesInSight arguments).filterMapM readFile?
  let finished := run SpringArm.SeededDraws.ofSeed files arguments
  IO.print finished.console
  for (path, content) in finished.written do
    writeFile path content
  for complaint in finished.complaint? do
    IO.eprintln complaint
  return finished.exitCode.toUInt32
