import SpringArm.Decimal.Reading
import SpringArm.Exchange.Cells
import SpringArm.Exchange.Export
import SpringArm.Text.Quoted

/-!
# Import

A graph read back from its two tables. Every mass row gives a mass and every connection row a spring
from its first position to its second, in the order of the rows; what connection a spring has
follows from its ends, the code in the row only has to exist. The first row that cannot be read
stops the import.
-/

namespace SpringArm.Exchange

/-- Why two tables are refused. -/
inductive ImportFault where
  /-- A table is missing. -/
  | missingTable
  /-- A mass row has fewer than three cells. -/
  | shortMassRow (number : Nat) (row : Row)
  /-- A place of a mass row is no number. -/
  | badCoordinates (number : Nat) (row : Row)
  /-- No kind of mass has this code. -/
  | unknownMassCode (code : List Char)
  /-- A connection row has not exactly three cells. -/
  | connectionRowSize (number : Nat) (row : Row)
  /-- A cell of a connection row is no integer. -/
  | notNumeric (number : Nat) (row : Row)
  /-- No connection has this code. -/
  | unknownConnectionCode (code : Int)
  /-- A connection row names a position without a mass. -/
  | missingMass (number : Nat) (row : Row)
deriving DecidableEq

/-- A row in a message, with its number. -/
private def numberedRow (before : String) (number : Nat) (between : String) (row : Row) : String :=
  before ++ String.ofList (Decimal.natDigits number) ++ between
    ++ String.ofList (Text.quotedList row)

/-- The text of an import fault. -/
def ImportFault.message : ImportFault → String
  | .missingTable => "The arguments may not be None."
  | .shortMassRow number row => numberedRow "Mass row " number " needs at least code,x,y: " row
  | .badCoordinates number row =>
    numberedRow "Mass row " number " has invalid coordinates: " row
  | .unknownMassCode code =>
    "The value '" ++ String.ofList code ++ "' is not a valid mass type code."
  | .connectionRowSize number row =>
    numberedRow "Connection row " number " needs higher,lower,code: " row
  | .notNumeric number row => numberedRow "Connection row " number " is not numeric: " row
  | .unknownConnectionCode code =>
    String.ofList (Decimal.intText code) ++ " is not a valid ConnectionType"
  | .missingMass number row =>
    numberedRow "Connection row " number " references a missing mass: " row

/-- Adds the mass of a numbered row. -/
def importMass (graph : Graph) (numbered : Row × Nat) : Except ImportFault Graph :=
  let (row, number) := numbered
  match row with
  | code :: x :: y :: _ =>
    match Decimal.readFloat? x, Decimal.readFloat? y with
    | some x, some y =>
      match MassKind.ofCode? code with
      | some kind => .ok (graph.addMass x y kind).2
      | none => .error (.unknownMassCode code)
    | _, _ => .error (.badCoordinates number row)
  | _ => .error (.shortMassRow number row)

/-- The mass at a position that a cell gives. -/
def massAt? (graph : Graph) (position : Int) : Option Mass :=
  if position < 0 then none else graph.masses[position.toNat]?

/-- Adds the spring of a numbered row. -/
def importSpring (graph : Graph) (numbered : Row × Nat) : Except ImportFault Graph :=
  let (row, number) := numbered
  match row with
  | [higher, lower, code] =>
    match Decimal.readInteger? higher, Decimal.readInteger? lower, Decimal.readInteger? code with
    | some higher, some lower, some code =>
      match Connection.ofCode? code with
      | none => .error (.unknownConnectionCode code)
      | some _ =>
        match massAt? graph higher, massAt? graph lower with
        | some source, some destination => .ok (graph.addSpring source destination).2
        | _, _ => .error (.missingMass number row)
    | _, _, _ => .error (.notNumeric number row)
  | _ => .error (.connectionRowSize number row)

/-- The graph of the rows of two tables. Its keys start at a given number. -/
def importRows (nextKey : Nat) (massRows connectionRows : List Row) :
    Except ImportFault Graph := do
  let withMasses ← massRows.zipIdx.foldlM importMass (Graph.empty nextKey)
  connectionRows.zipIdx.foldlM importSpring withMasses

/-- The graph of two tables. Its keys start at a given number. -/
def importTables (nextKey : Nat) (masses connections : Option (List Char)) :
    Except ImportFault Graph :=
  match masses, connections with
  | some masses, some connections =>
    importRows nextKey (dataRows masses) (dataRows connections)
  | _, _ => .error .missingTable

end SpringArm.Exchange
