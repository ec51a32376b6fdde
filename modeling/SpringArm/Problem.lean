/-!
# Problem

What readers collect instead of stopping: a place in a text and a cause. Places count lines of a
description and characters of a seed or construction text.
-/

namespace SpringArm

/-- Why a part of a text has no meaning. -/
inductive ProblemCause where
  /-- A line of a description has none of the known forms. -/
  | unknownLine
  /-- A character of a seed is neither a letter nor part of a loop. -/
  | unknownSymbol (symbol : Char)
  /-- A loop is closed that was not opened. -/
  | unexpectedLoopEnd
  /-- A loop is opened and not closed. -/
  | unclosedLoop
  /-- A character of a construction text makes neither a mass nor a spring. -/
  | unknownConstruction (symbol : Char)
deriving DecidableEq

/-- The wording of a cause. -/
def ProblemCause.message : ProblemCause → String
  | .unknownLine => "Cannot understand this line."
  | .unknownSymbol symbol => "Could not understand the symbol: " ++ String.singleton symbol
  | .unexpectedLoopEnd => "Unexpected end of loop: \x7d"
  | .unclosedLoop => "Loop is not closed with \x7d"
  | .unknownConstruction symbol =>
    "Unknown construction symbol: " ++ String.singleton symbol

/-- A place in a text with the cause of a problem there. -/
structure Problem where
  position : Nat
  cause : ProblemCause
deriving DecidableEq

/-- A problem as it is told: its place and its wording. -/
structure ProblemReport where
  position : Nat
  message : String
deriving DecidableEq

/-- The report of a problem. -/
def Problem.report (problem : Problem) : ProblemReport :=
  ⟨problem.position, problem.cause.message⟩

/-- A report was asked for without a place, with a negative place or without a wording. -/
inductive ReportFault where
  | incomplete
deriving DecidableEq

/-- The text of a report fault. -/
def ReportFault.message : ReportFault → String
  | .incomplete => "The line index has to be at least 0, the message may not be None."

/-- The report of a place and a wording, both of which may be absent. -/
def ProblemReport.make (position : Option Int) (message : Option String) :
    Except ReportFault ProblemReport :=
  match position, message with
  | some position, some message =>
    if position < 0 then .error .incomplete else .ok ⟨position.toNat, message⟩
  | _, _ => .error .incomplete

end SpringArm
