import SpringArm.Blueprint.Arm
import SpringArm.Blueprint.Statement
import SpringArm.Problem
import SpringArm.Stepwise
import SpringArm.Text.Search

/-!
# Reading

A description read into a blueprint. Blank lines and comments are skipped, a line without meaning is
a problem at its number, and every other line is carried out. The arm segments are added at the
end. The only fault is a count with too many digits.
-/

namespace SpringArm

/-- How far a description has been read. -/
structure Reading where
  blueprint : Blueprint := {}
  problems : List Problem := []
  notices : List Notice := []

/-- The switches among the words of an options line, with a notice for every other word. -/
def switchesOf (words : List (List Char)) : Logged (List Switch) where
  value := words.filterMap Switch.ofSpelling?
  notices := (words.filter fun word => (Switch.ofSpelling? word).isNone).map .unknownSwitch

namespace Blueprint

/-- Puts a part of the arm at a place. A second shoulder, elbow or hand takes over from the first,
which stays in the graph. -/
def addPart (blueprint : Blueprint) (part : Part) (place : Coordinates) : Blueprint :=
  let (mass, graph) := blueprint.graph.addMass place.x.value place.y.value part.kind
  match part with
  | .shoulder => { blueprint with shoulder := some mass, graph }
  | .elbow => { blueprint with elbow := some mass, graph }
  | .hand => { blueprint with hand := some mass, graph }
  | .input => { blueprint with inputs := blueprint.inputs ++ [mass], graph }

/-- Gives a letter the distance at which it makes something. -/
def addTemplate (blueprint : Blueprint) (product : Product) (letter : Char)
    (distance : Interval) : Blueprint :=
  match product with
  | .mass => { blueprint with massTemplates := blueprint.massTemplates.put letter distance }
  | .spring => { blueprint with springTemplates := blueprint.springTemplates.put letter distance }

/-- Sets how many masses or springs are added at random. -/
def setRandom (blueprint : Blueprint) (product : Product) (count : Int) : Blueprint :=
  match product with
  | .mass => { blueprint with randomMasses := count }
  | .spring => { blueprint with randomSprings := count }

/-- Carries out a statement. -/
def apply (blueprint : Blueprint) : Statement →
    Except Decimal.IntegerFault (Logged Blueprint)
  | .place part first _ => .ok ⟨blueprint.addPart part first, []⟩
  | .window bounds => .ok ⟨{ blueprint with window := bounds.interval }, []⟩
  | .create product letter bounds =>
    .ok ⟨blueprint.addTemplate product letter bounds.interval, []⟩
  | .options words =>
    .ok ((switchesOf words).map fun switches =>
      { blueprint with switches := blueprint.switches.insertAll switches })
  | .rules rules => .ok ⟨{ blueprint with rules := blueprint.rules ++ rules }, []⟩
  | .random product count => do
    let number ← count.value
    return ⟨blueprint.setRandom product number, []⟩

end Blueprint

namespace Reading

/-- Reads one numbered line. -/
def readLine (reading : Reading) (line : List Char × Nat) :
    Except Decimal.IntegerFault Reading :=
  let (text, number) := line
  if Text.carriesData text then
    match Statement.read text with
    | none =>
      .ok { reading with problems := reading.problems ++ [⟨number, .unknownLine⟩] }
    | some statement => do
      let applied ← reading.blueprint.apply statement
      return { reading with
        blueprint := applied.value
        notices := reading.notices ++ applied.notices }
  else
    .ok reading

/-- The numbered lines of a description. Line feeds separate them, and carriage returns at the end
of a line do not belong to it. -/
def numberedLines (text : List Char) : List (List Char × Nat) :=
  ((Text.splitLineFeeds text).map (Text.dropEndWhile (· == '\r'))).zipIdx

/-- Reads all lines of a description. -/
def ofText (text : List Char) : Reading × Option Decimal.IntegerFault :=
  stepwise readLine {} (numberedLines text)

/-- Adds the arm segments and leaves a notice with the counts. -/
def finish (reading : Reading) : Reading :=
  let connected := reading.blueprint.connectSegments
  let blueprint := connected.value
  let counts := Notice.descriptionRead blueprint.graph.masses.length
    blueprint.graph.springs.length blueprint.rules.length reading.problems.length
  { reading with blueprint, notices := reading.notices ++ connected.notices ++ [counts] }

end Reading

namespace Blueprint

/-- The blueprint of a description, with the problems of its lines. Without a description it is the
empty one. -/
def read (text : Option (List Char)) :
    Logged (Except Decimal.IntegerFault (Blueprint × List Problem)) :=
  match text with
  | none => ⟨.ok ({}, []), []⟩
  | some characters =>
    match Reading.ofText characters with
    | (reading, some fault) => ⟨.error fault, reading.notices⟩
    | (reading, none) =>
      let finished := reading.finish
      ⟨.ok (finished.blueprint, finished.problems), finished.notices⟩

end Blueprint

/-- Why a line does not yield what is asked of it. -/
inductive LineFault where
  /-- The line is none of the wanted kind. -/
  | wrongKind (wanted : String) (line : List Char)
  /-- The count on the line is out of reach. -/
  | integer (fault : Decimal.IntegerFault)
deriving DecidableEq

/-- The text of a line fault. -/
def LineFault.message : LineFault → String
  | .wrongKind wanted line =>
    "Not " ++ wanted ++ " line: " ++ String.ofList (Text.quoted line)
  | .integer fault => fault.message

/-! What single lines say, for callers that ask for one item of a line. Once the line is recognised,
lists of items are searched for in the text behind its keyword. -/

namespace Statement

/-- The text of a line behind its keyword. -/
def behindKeyword (line : List Char) : List Char :=
  (skipGaps line).dropWhile (!isGap ·)

/-- The places of numbers two by two. A last number without a partner gives none. -/
def placesOf : List Numeral → List Coordinates
  | x :: y :: rest => ⟨x, y⟩ :: placesOf rest
  | _ => []

/-- The masses of a line: their kind with all its places. Other lines have none. -/
def massesOf (line : List Char) : List (MassKind × Float × Float) :=
  match read line with
  | some (.place part ..) =>
    (placesOf (Text.findAll readNumeral (behindKeyword line))).map fun place =>
      (part.kind, place.x.value, place.y.value)
  | _ => []

/-- The count of a line for random masses or springs. -/
def integerOf (line : List Char) : Except LineFault Int :=
  match read line with
  | some (.random _ count) => count.value.mapError .integer
  | _ => .error (.wrongKind "an integer" line)

/-- The rules of a line. -/
def rulesOf (line : List Char) : Except LineFault (List Rule) :=
  match read line with
  | some (.rules _) => .ok (Text.findAll readRule (behindKeyword line))
  | _ => .error (.wrongKind "a productionRules" line)

/-- The letter of a line that makes one productive. -/
def letterOf (line : List Char) : Except LineFault Char :=
  match read line with
  | some (.create _ letter _) => .ok letter
  | _ => .error (.wrongKind "a creation" line)

/-- The distance of a line that makes a letter productive. -/
def distanceOf (line : List Char) : Except LineFault Interval :=
  match read line with
  | some (.create _ _ bounds) => .ok bounds.interval
  | _ => .error (.wrongKind "a creation" line)

/-- The window of a line. -/
def windowOf (line : List Char) : Except LineFault Interval :=
  match read line with
  | some (.window bounds) => .ok bounds.interval
  | _ => .error (.wrongKind "an expansionRangeX" line)

/-- The known switches of a line, in order and with repeats. -/
def switchesOnLine (line : List Char) : Except LineFault (List Switch) :=
  match read line with
  | some (.options _) => .ok (switchesOf (Text.pieces (behindKeyword line))).value
  | _ => .error (.wrongKind "an options" line)

end Statement

end SpringArm
