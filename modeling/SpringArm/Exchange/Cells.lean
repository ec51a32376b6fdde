import SpringArm.Text.Blank

/-!
# Cells

Lines of comma separated values cut into cells. A cell that starts with a double quote reaches to
the next single one; a doubled quote inside stands for one quote, and characters behind the closing
quote belong to the cell as they are. A cell that is not closed goes on with the next line, with
nothing in between, and ends with the last line.
-/

namespace SpringArm.Exchange

/-- Where in a cell the reader is. -/
inductive CellState where
  /-- At the start of a cell. -/
  | start
  /-- In a cell without quotes, or behind the closing quote. -/
  | plain
  /-- Between quotes. -/
  | quoted
  /-- Behind a quote that ends the quoted part or is the first of two. -/
  | afterQuote
deriving DecidableEq

/-- A row that is being read: the cells before, latest first, and the present cell, latest character
first. -/
structure OpenRow where
  state : CellState
  cells : List (List Char)
  cell : List Char
deriving DecidableEq

namespace OpenRow

/-- The row before anything is read. -/
def empty : OpenRow := ⟨.start, [], []⟩

/-- Ends the present cell. -/
def endCell (row : OpenRow) : OpenRow :=
  ⟨.start, row.cell.reverse :: row.cells, []⟩

/-- Puts a character into the present cell. -/
def put (row : OpenRow) (state : CellState) (character : Char) : OpenRow :=
  { row with state, cell := character :: row.cell }

/-- Reads one character of a line. -/
def read (row : OpenRow) (character : Char) : OpenRow :=
  match row.state with
  | .start =>
    if character = '"' then { row with state := .quoted }
    else if character = ',' then row.endCell
    else row.put .plain character
  | .plain => if character = ',' then row.endCell else row.put .plain character
  | .quoted =>
    if character = '"' then { row with state := .afterQuote } else row.put .quoted character
  | .afterQuote =>
    if character = '"' then row.put .quoted character
    else if character = ',' then row.endCell
    else row.put .plain character

/-- The cells of a row that ends here. -/
def close (row : OpenRow) : List (List Char) :=
  row.endCell.cells.reverse

end OpenRow

/-- The rows of lines, the first of which goes on with an open row. -/
def rowsFrom : OpenRow → List (List Char) → List (List (List Char))
  | row, [] => if row.state = .quoted then [row.close] else []
  | row, line :: rest =>
    let read := line.foldl OpenRow.read row
    if read.state = .quoted then rowsFrom read rest
    else read.close :: rowsFrom OpenRow.empty rest

/-- The rows of a table: blank lines and comments are dropped, and cells lose the blanks around
them. -/
def dataRows (text : List Char) : List (List (List Char)) :=
  let lines := (Text.tableLines text).filter Text.carriesData
  (rowsFrom OpenRow.empty lines).map (·.map Text.trim)

end SpringArm.Exchange
