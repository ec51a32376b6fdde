import SpringArm.Exchange.Cells
import SpringArm.Exchange.Export
import SpringArm.Proofs.Text.Lines

/-!
# Tables are read back

A table whose cells hold no blanks, commas, quotes or comment signs is read back row by row: its
comment is dropped, no row looks like a comment, and the commas cut a line into its cells.
-/

namespace SpringArm.Exchange

open Text (isBlank)

/-- A cell that needs no quotes and has nothing to be trimmed. -/
def PlainCell (cell : List Char) : Prop :=
  ∀ character ∈ cell, isBlank character = false ∧ character ∉ [',', '"', '#']

instance : DecidablePred PlainCell := fun cell =>
  List.decidableBAll (fun character => isBlank character = false ∧ character ∉ [',', '"', '#']) cell

/-- Plain cells, the first of which is not empty. -/
structure PlainRow (row : Row) : Prop where
  cells : ∀ cell ∈ row, PlainCell cell
  start : ∃ character rest others, row = (character :: rest) :: others

/-- The line of a row. -/
def rowLine (row : Row) : List Char :=
  [','].intercalate row

theorem rowLine_cons_cons (cell next : List Char) (others : Row) :
    rowLine (cell :: next :: others) = cell ++ ',' :: rowLine (next :: others) := by
  rw [rowLine, List.intercalate_cons_cons]
  simp [rowLine]

/-- The characters of a line of plain cells: no blanks, quotes or comment signs. -/
theorem PlainRow.line {row : Row} (plain : PlainRow row) :
    ∀ character ∈ rowLine row, isBlank character = false ∧ character ∉ ['"', '#'] := by
  obtain ⟨cells, -⟩ := plain
  induction row with
  | nil => simp [rowLine]
  | cons cell others inductionHypothesis =>
    obtain ⟨first, more⟩ := List.forall_mem_cons.mp cells
    have fromCell : ∀ character ∈ cell, isBlank character = false ∧ character ∉ ['"', '#'] :=
      fun character member => ⟨(first character member).1,
        fun special => (first character member).2 (List.mem_cons_of_mem _ special)⟩
    cases others with
    | nil => simpa [rowLine] using fromCell
    | cons next rest =>
      rw [rowLine_cons_cons]
      refine List.forall_mem_append.mpr ⟨fromCell, List.forall_mem_cons.mpr ⟨by decide, ?_⟩⟩
      exact inductionHypothesis more

/-- The line of a plain row is neither blank nor a comment. -/
theorem PlainRow.carriesData {row : Row} (plain : PlainRow row) :
    Text.carriesData (rowLine row) = true := by
  obtain ⟨character, rest, others, rfl⟩ := plain.start
  obtain ⟨solid, unquoted⟩ := plain.cells _ List.mem_cons_self character List.mem_cons_self
  have noSign : character ≠ '#' := fun same => unquoted (by simp [same])
  have line : ∃ more, rowLine ((character :: rest) :: others) = character :: more := by
    cases others with
    | nil => exact ⟨rest, by simp [rowLine]⟩
    | cons next others => exact ⟨_, rowLine_cons_cons ..⟩
  obtain ⟨more, line⟩ := line
  simp [Text.carriesData, Text.isBlankText, Text.isComment, Text.trimStart, line, solid, noSign]

/-- A row that is being read outside of quotes. -/
def OpenRow.Unquoted (row : OpenRow) : Prop :=
  row.state = .start ∨ row.state = .plain

/-- Reading a plain cell puts all of it into the present cell. -/
theorem PlainCell.foldl_read {cell : List Char} (plain : PlainCell cell) (row : OpenRow)
    (unquoted : row.Unquoted) :
    ∃ state, cell.foldl OpenRow.read row = ⟨state, row.cells, cell.reverse ++ row.cell⟩ ∧
      (state = .start ∨ state = .plain) := by
  induction cell generalizing row with
  | nil => exact ⟨row.state, rfl, unquoted⟩
  | cons character rest inductionHypothesis =>
    obtain ⟨first, others⟩ := List.forall_mem_cons.mp plain
    obtain ⟨noComma, noQuote⟩ : character ≠ ',' ∧ character ≠ '"' := by
      constructor <;> rintro rfl <;> simp at first
    have read : row.read character = row.put .plain character := by
      rcases unquoted with state | state <;> simp [OpenRow.read, state, noComma, noQuote]
    obtain ⟨state, result, stillUnquoted⟩ :=
      inductionHypothesis others (row.put .plain character) (.inr rfl)
    refine ⟨state, ?_, stillUnquoted⟩
    rw [List.foldl_cons, read, result]
    simp [OpenRow.put]

/-- Reading a line of plain cells gives these cells. -/
theorem foldl_read_line {row : Row} (plain : ∀ cell ∈ row, PlainCell cell) (nonempty : row ≠ [])
    (cells : Row) :
    ((rowLine row).foldl OpenRow.read ⟨.start, cells, []⟩).Unquoted ∧
      ((rowLine row).foldl OpenRow.read ⟨.start, cells, []⟩).close = cells.reverse ++ row := by
  induction row generalizing cells with
  | nil => exact absurd rfl nonempty
  | cons cell others inductionHypothesis =>
    obtain ⟨first, more⟩ := List.forall_mem_cons.mp plain
    obtain ⟨state, read, unquoted⟩ := first.foldl_read ⟨.start, cells, []⟩ (.inl rfl)
    cases others with
    | nil =>
      simp only [rowLine, List.intercalate_singleton, read]
      exact ⟨unquoted, by simp [OpenRow.close, OpenRow.endCell]⟩
    | cons next rest =>
      have comma : OpenRow.read ⟨state, cells, cell.reverse ++ []⟩ ',' =
          ⟨.start, cell :: cells, []⟩ := by
        rcases unquoted with rfl | rfl <;> simp [OpenRow.read, OpenRow.endCell]
      rw [rowLine_cons_cons, List.foldl_append, read, List.foldl_cons, comma]
      have later := inductionHypothesis more (List.cons_ne_nil _ _) (cell :: cells)
      simpa using later

/-- Lines of plain rows are read as these rows. -/
theorem rowsFrom_lines {rows : List Row} (plain : ∀ row ∈ rows, PlainRow row) :
    rowsFrom OpenRow.empty (rows.map rowLine) = rows := by
  induction rows with
  | nil => rfl
  | cons row rest inductionHypothesis =>
    obtain ⟨first, others⟩ := List.forall_mem_cons.mp plain
    have nonempty : row ≠ [] := by
      obtain ⟨character, cell, more, same⟩ := first.start
      simp [same]
    obtain ⟨unquoted, closed⟩ := foldl_read_line first.cells nonempty []
    have closesHere : ((rowLine row).foldl OpenRow.read OpenRow.empty).state ≠ .quoted := by
      rcases unquoted with state | state <;> simp [OpenRow.empty, state]
    simp only [List.map_cons, rowsFrom, closesHere, if_false, inductionHypothesis others]
    exact congrArg (· :: rest) closed

/-- A table of plain rows is read back. -/
theorem dataRows_tableText {comment : String} {rows : List Row}
    (isComment : Text.isComment comment.toList = true)
    (unbroken : comment.toList.any Text.isLineBreak = false)
    (plain : ∀ row ∈ rows, PlainRow row) : dataRows (tableText comment rows) = rows := by
  have text : tableText comment rows =
      (comment.toList :: rows.map rowLine).flatMap (· ++ ['\n']) := by
    simp only [tableText, List.flatMap_cons, List.flatMap_map, List.append_assoc,
      List.singleton_append]
    rfl
  have lines : Text.tableLines (tableText comment rows) = comment.toList :: rows.map rowLine := by
    rw [text]
    apply Text.tableLines_flatMap
    refine List.forall_mem_cons.mpr ⟨by simpa using unbroken, ?_⟩
    intro line member character inside
    obtain ⟨row, rowMember, rfl⟩ := List.mem_map.mp member
    exact Text.isLineBreak_of_not_blank ((plain row rowMember).line character inside).1
  have kept : (comment.toList :: rows.map rowLine).filter Text.carriesData = rows.map rowLine := by
    rw [List.filter_cons_of_neg (by simp [Text.carriesData, isComment]), List.filter_eq_self]
    intro line member
    obtain ⟨row, rowMember, rfl⟩ := List.mem_map.mp member
    exact (plain row rowMember).carriesData
  have trimmed : ∀ row ∈ rows, row.map Text.trim = row := by
    intro row rowMember
    rw [List.map_congr_left (g := id), List.map_id]
    intro cell member
    exact Text.trim_solid fun character inside =>
      ((plain row rowMember).cells cell member character inside).1
  simp only [dataRows, lines, kept, rowsFrom_lines plain]
  rw [List.map_congr_left (g := id) trimmed, List.map_id]

end SpringArm.Exchange
