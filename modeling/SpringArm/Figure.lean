import SpringArm.Decimal.Layout
import SpringArm.Graph.Basic

/-!
# Figure

What a drawing of a graph consists of: a line for every spring, the markers of the masses kind by
kind, the bounds of the window as dashed lines, a legend, and the settings of the axis. Rigid
connections are thicker than springs of the network and lie above them; markers lie above both.
-/

namespace SpringArm.Figure

/-- How a line is drawn. -/
inductive Stroke where
  | solid
  | dashed
deriving DecidableEq

/-- The sign for a stroke. -/
def Stroke.sign : Stroke → String
  | .solid => "-"
  | .dashed => "--"

/-- A line between two points. -/
structure Line where
  segment : Geometry.Segment Float
  colour : String
  width : Float
  stroke : Stroke
  layer : Nat

/-- Markers of one colour. -/
structure Markers where
  label : String
  colour : String
  layer : Nat
  size : Float
  points : List (Geometry.Point Float)

/-- A drawing. -/
structure Drawing where
  lines : List Line
  markers : List Markers
  /-- The entries of the legend, if there is one. -/
  legend : Option (List String)
  title : String
  labels : String × String
  titleSize : Float
  labelSize : Float
  /-- The scale of the vertical axis relative to the horizontal one, and what gives way to it. -/
  aspect : Float
  adjustable : String
  /-- The size of the paper. A drawing on an axis that was there before has none. -/
  paper : Option (Float × Float)
  background : String

/-- The colour of the springs of the network. -/
def springColour : String := "#3498DB"

/-- The colour of rigid connections. -/
def skeletonColour : String := "#2C3E50"

/-- The colour of the bounds of a window. -/
def windowColour : String := "#E67E22"

/-- The colour behind a drawing. -/
def backgroundColour : String := "#fafafa"

/-- The entry of a legend for the bounds of a window. -/
def windowLabel : String := "expansion range"

/-- The title of a drawing that is given none. -/
def defaultTitle : String := "Robot Arm Mass-Spring Network"

/-- The colour of a kind by its parts of red, green and blue. -/
def colourCode : MassKind → String
  | .shoulder => "#ff0000"
  | .elbow => "#808080"
  | .hand => "#0000ff"
  | .armSegment => "#d3d3d3"
  | .input => "#008000"
  | .network => "#ffffff"

/-- The entry of a legend for a kind. -/
def kindLabel (kind : MassKind) : String :=
  String.ofList (kind.name.toList.map Char.toLower)

/-- The line of a spring. -/
def springLine (spring : Spring) : Line :=
  if spring.connection = .spring then
    ⟨spring.line, springColour, 1.0, .solid, 1⟩
  else
    ⟨spring.line, skeletonColour, 3.0, .solid, 2⟩

/-- The line of a bound, over the whole height of the axis. -/
def boundLine (bound : Float) : Line :=
  ⟨⟨⟨bound, 0.0⟩, ⟨bound, 1.0⟩⟩, windowColour, 1.0, .dashed, 0⟩

/-- The markers of the masses of a kind, if there are any. -/
def kindMarkers? (graph : Graph) (kind : MassKind) : Option Markers :=
  match graph.massesOfKind kind with
  | [] => none
  | masses => some ⟨kindLabel kind, colourCode kind, 3, 60.0, masses.map Mass.place⟩

/-- The drawing of a graph with the bounds of a window, under a title. It needs paper of its own
unless it is put on an axis of the caller. -/
def draw (graph : Graph) (window : Option Interval) (title : Option String) (ownAxis : Bool) :
    Drawing :=
  let markers := MassKind.all.filterMap (kindMarkers? graph)
  let bounds := window.toList.flatMap fun range => [boundLine range.low, boundLine range.high]
  let entries := markers.map (·.label) ++ window.toList.map fun _ => windowLabel
  { lines := graph.springs.map springLine ++ bounds
    markers
    legend := if entries.isEmpty then none else some entries
    title := title.getD defaultTitle
    labels := ("x", "y")
    titleSize := 14.0
    labelSize := 11.0
    aspect := 1.0
    adjustable := "datalim"
    paper := if ownAxis then none else some (8.0, 10.0)
    background := backgroundColour }

/-- Numbers with blanks between them. -/
def spaced (values : List Float) : String :=
  " ".intercalate (values.map fun value => String.ofList (Decimal.floatText value))

/-- A line as text: its ends, its colour, its width and its stroke. -/
def Line.listing (line : Line) : String :=
  let start := line.segment.start
  let finish := line.segment.finish
  "line " ++ spaced [start.x, start.y, finish.x, finish.y] ++ " " ++ line.colour ++ " "
    ++ spaced [line.width] ++ " " ++ line.stroke.sign ++ "\n"

/-- Markers as text: the place of each one with the colour and the size. -/
def Markers.listing (markers : Markers) : String :=
  String.join <| markers.points.map fun point =>
    "marker " ++ spaced [point.x, point.y] ++ " " ++ markers.colour ++ " "
      ++ spaced [markers.size] ++ " " ++ markers.label ++ "\n"

/-- A drawing as text for a renderer: the title, and then an item on every line, the lowest one
first. -/
def Drawing.listing (drawing : Drawing) : String :=
  let lines := drawing.lines.mergeSort fun first second => first.layer ≤ second.layer
  "title " ++ drawing.title ++ "\n" ++ String.join (lines.map Line.listing)
    ++ String.join (drawing.markers.map Markers.listing)

end SpringArm.Figure
