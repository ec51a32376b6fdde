import SpringArm.Decimal.Layout
import SpringArm.Graph.Order

/-!
# Export

A graph written as two tables of comma separated values. The masses table has a row for every mass,
in the order of the graph: code, place, a zero, and the lower positions that springs join it to, in
ascending order. The connection table has a row for every spring, in the order of springs: the
higher position, the lower one, and the code of the connection. Each table starts with a
comment. -/

namespace SpringArm.Exchange

/-- A row of a table. -/
abbrev Row := List (List Char)

/-- A row as a line of text, with its line feed. -/
def rowText (row : Row) : List Char :=
  [','].intercalate row ++ ['\n']

/-- A comment line and rows as the text of a table. -/
def tableText (comment : String) (rows : List Row) : List Char :=
  comment.toList ++ '\n' :: rows.flatMap rowText

/-- The comment of a masses table. -/
def massesComment : String := "# type,x,y,z[,connected lower-index masses]"

/-- The comment of a connection table. -/
def connectionsComment : String := "# higher index,lower index,connection type"

/-- The positions of the masses at the other ends of the springs of a mass. Ends outside the graph
have none. -/
def neighbourPositions (graph : Graph) (mass : Mass) : List Nat :=
  let positions := graph.positions
  (graph.springsOf mass).filterMap fun spring => positions.lookup (spring.opposite mass).key

/-- The positions below a bound that springs join a mass to, ascending. -/
def positionsBelow (graph : Graph) (mass : Mass) (bound : Nat) : List Nat :=
  let neighbours := neighbourPositions graph mass
  (List.range bound).filter neighbours.contains

/-- The lower positions that springs join a mass of the graph to, ascending. -/
def priorConnections? (graph : Graph) (mass : Mass) : Option (List Nat) :=
  (graph.positions.lookup mass.key).map (positionsBelow graph mass)

/-- The row of a mass. -/
def massRow (graph : Graph) (mass : Mass) : Row :=
  [[mass.kind.code], Decimal.floatText mass.x, Decimal.floatText mass.y, ['0']]
    ++ ((priorConnections? graph mass).getD []).map Decimal.natDigits

/-- The row of a spring with its key. -/
def connectionRow (keyed : SortKey × Spring) : Row :=
  [keyed.1.higher, keyed.1.lower, keyed.2.connection.code].map Decimal.natDigits

/-- The rows of a masses table. -/
def massRows (graph : Graph) : List Row :=
  graph.masses.map (massRow graph)

/-- The rows of a connection table. -/
def connectionRows (graph : Graph) : Except GraphFault (List Row) := do
  let sorted ← graph.sortedWithKeys
  return sorted.map connectionRow

/-- The masses table of a graph. -/
def massesTable (graph : Graph) : List Char :=
  tableText massesComment (massRows graph)

/-- The connection table of a graph. It exists if every spring joins masses of the graph. -/
def connectionsTable (graph : Graph) : Except GraphFault (List Char) := do
  let rows ← connectionRows graph
  return tableText connectionsComment rows

end SpringArm.Exchange
