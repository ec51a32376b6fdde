import SpringArm.Graph.Basic

/-!
# Blueprint

All that a description defines: the skeleton of an arm with its graph, the letters that make masses
and springs, the rewriting rules and the settings of growth. The skeleton masses of a blueprint are
masses of its graph, so growth can start from them.
-/

namespace SpringArm

/-- A rewriting rule: a letter equal to `search` is replaced by `replacement`. -/
structure Rule where
  search : List Char
  replacement : List Char
deriving DecidableEq

/-- The switches of an options line. -/
inductive Switch where
  | showNotConnectedMasses
  | excludeSpringCrossings
  | allowNegativeYValues
deriving DecidableEq

namespace Switch

/-- All switches, in the order of their spellings. -/
def all : List Switch :=
  [allowNegativeYValues, excludeSpringCrossings, showNotConnectedMasses]

/-- The spelling of a switch. -/
def spelling : Switch → String
  | showNotConnectedMasses => "showNotConnectedMasses"
  | excludeSpringCrossings => "excludeSpringCrossings"
  | allowNegativeYValues => "allowNegativeYValues"

/-- The switch with a spelling. -/
def ofSpelling? (word : List Char) : Option Switch :=
  all.find? fun switch => switch.spelling.toList = word

end Switch

/-- A set of switches. -/
structure Switches where
  showNotConnectedMasses : Bool := false
  excludeSpringCrossings : Bool := false
  allowNegativeYValues : Bool := false
deriving DecidableEq

namespace Switches

/-- A switch is set. -/
def has (switches : Switches) : Switch → Bool
  | .showNotConnectedMasses => switches.showNotConnectedMasses
  | .excludeSpringCrossings => switches.excludeSpringCrossings
  | .allowNegativeYValues => switches.allowNegativeYValues

/-- Sets a switch. -/
def insert (switches : Switches) : Switch → Switches
  | .showNotConnectedMasses => { switches with showNotConnectedMasses := true }
  | .excludeSpringCrossings => { switches with excludeSpringCrossings := true }
  | .allowNegativeYValues => { switches with allowNegativeYValues := true }

/-- The switches that are set, in the order of their spellings. -/
def toList (switches : Switches) : List Switch :=
  Switch.all.filter switches.has

/-- Sets all switches of a list. -/
def insertAll (switches : Switches) (added : List Switch) : Switches :=
  added.foldl insert switches

end Switches

/-- The distances at which letters make something, in the order in which the letters first came. -/
abbrev Templates := List (Char × Interval)

namespace Templates

/-- The distance of a letter. -/
def find? (templates : Templates) (letter : Char) : Option Interval :=
  templates.lookup letter

/-- Gives a letter its distance. A letter that has one already keeps its place. -/
def put (templates : Templates) (letter : Char) (distance : Interval) : Templates :=
  match templates with
  | [] => [(letter, distance)]
  | (known, old) :: rest =>
    if known = letter then (letter, distance) :: rest
    else (known, old) :: put rest letter distance

end Templates

/-- The window of a description that gives none. -/
def defaultWindow : Interval := ⟨-1000.0, 1000.0⟩

/-- All that a description defines. -/
structure Blueprint where
  shoulder : Option Mass := none
  elbow : Option Mass := none
  hand : Option Mass := none
  /-- The inputs in the order of the description. -/
  inputs : List Mass := []
  rules : List Rule := []
  /-- The letters that make a mass. -/
  massTemplates : Templates := []
  /-- The letters that make a spring. -/
  springTemplates : Templates := []
  randomMasses : Int := 0
  randomSprings : Int := 0
  switches : Switches := {}
  /-- The horizontal window of new masses. -/
  window : Interval := defaultWindow
  graph : Graph := Graph.empty 0
  upperSegment : Option Mass := none
  lowerSegment : Option Mass := none

namespace Blueprint

/-- The first rule for a text. -/
def rule? (blueprint : Blueprint) (search : List Char) : Option Rule :=
  blueprint.rules.find? fun rule => rule.search = search

end Blueprint

end SpringArm
