import SpringArm.Proofs.Decimal.Texts
import SpringArm.Proofs.Exchange.Cells
import SpringArm.Proofs.Graph.Positions

/-!
# Exported rows

The rows of both tables are plain, so both tables are read back row by row. The positions in the row
of a mass are the lower positions of the keys that have the position of the mass as the higher one:
so the two tables of a closed graph say the same about its springs.
-/

namespace SpringArm

namespace Exchange

theorem plainCell_natDigits (number : Nat) : PlainCell (Decimal.natDigits number) :=
  fun digit member => (Decimal.natDigits_marks number digit member).plain

theorem plainCell_floatText (value : Float) : PlainCell (Decimal.floatText value) :=
  fun character member => (Decimal.floatText_marks value character member).plain

theorem plainRow_massRow (graph : Graph) (mass : Mass) : PlainRow (massRow graph mass) := by
  refine ⟨?_, mass.kind.code, [], _, rfl⟩
  refine List.forall_mem_append.mpr ⟨?_, ?_⟩
  · have code : PlainCell [mass.kind.code] := by
      cases mass.kind <;> decide
    have zero : PlainCell ['0'] := by decide
    exact List.forall_mem_cons.mpr ⟨code, List.forall_mem_cons.mpr ⟨plainCell_floatText _,
      List.forall_mem_cons.mpr ⟨plainCell_floatText _, List.forall_mem_singleton.mpr zero⟩⟩⟩
  · intro cell member
    obtain ⟨position, -, rfl⟩ := List.mem_map.mp member
    exact plainCell_natDigits position

theorem plainRow_connectionRow (keyed : SortKey × Spring) : PlainRow (connectionRow keyed) := by
  refine ⟨?_, ?_⟩
  · intro cell member
    obtain ⟨number, -, rfl⟩ := List.mem_map.mp member
    exact plainCell_natDigits number
  · obtain ⟨digit, digits, spelt⟩ := List.exists_cons_of_ne_nil
      (Nat.toDigits_ne_nil (n := keyed.1.higher) (b := 10))
    exact ⟨digit, digits, _, congrArg (· :: _) spelt⟩

/-- A masses table is read back row by row. -/
theorem dataRows_massesTable (graph : Graph) : dataRows (massesTable graph) = massRows graph := by
  apply dataRows_tableText (by decide) (by decide)
  intro row member
  obtain ⟨mass, -, rfl⟩ := List.mem_map.mp member
  exact plainRow_massRow graph mass

/-- A connection table is read back row by row. -/
theorem dataRows_connections (keyed : List (SortKey × Spring)) :
    dataRows (tableText connectionsComment (keyed.map connectionRow)) =
      keyed.map connectionRow := by
  apply dataRows_tableText (by decide) (by decide)
  intro row member
  obtain ⟨spring, -, rfl⟩ := List.mem_map.mp member
  exact plainRow_connectionRow spring

end Exchange

namespace Graph.Closed

open Exchange

variable {graph : Graph}

/-- The connection table of a closed graph. -/
theorem connectionsTable_eq (closed : graph.Closed) :
    connectionsTable graph =
      .ok (tableText connectionsComment (graph.canonical.map connectionRow)) := by
  simp only [connectionsTable, connectionRows, closed.sortedWithKeys_eq]
  rfl

/-- The positions of the neighbours of a mass by the list of masses. -/
theorem neighbourPositions_eq (closed : graph.Closed) (mass : Mass) :
    neighbourPositions graph mass =
      (graph.springsOf mass).map fun spring => graph.indexOf (spring.opposite mass) := by
  rw [neighbourPositions, ← List.filterMap_eq_map]
  apply List.filterMap_congr
  intro spring member
  obtain ⟨source, destination⟩ := closed.ends_mem spring (mem_springsOf.mp member).1
  have opposite : spring.opposite mass ∈ graph.masses := by
    unfold Spring.opposite
    split
    · exact destination
    · exact source
  rw [lookup_positions, closed.position?_eq opposite]
  rfl

/-- Below its own position a mass has those neighbours that its position stands before in a key. -/
theorem mem_neighbourPositions_iff_key (closed : graph.Closed) {mass : Mass}
    (member : mass ∈ graph.masses) {position : Nat} (below : position < graph.indexOf mass) :
    position ∈ neighbourPositions graph mass ↔
      ⟨graph.indexOf mass, position⟩ ∈ graph.springs.map graph.keyOf := by
  rw [closed.neighbourPositions_eq, List.mem_map, List.mem_map]
  apply exists_congr
  intro spring
  rw [mem_springsOf, ← Spring.touches_iff, and_assoc]
  apply and_congr_right
  intro springMember
  obtain ⟨source, destination⟩ := closed.ends_mem spring springMember
  have atSource := closed.same_iff_indexOf_eq source member
  have atDestination := closed.same_iff_indexOf_eq destination member
  simp only [Spring.touches, Spring.opposite, Bool.or_eq_true, atSource, atDestination, keyOf,
    SortKey.ofPositions, SortKey.mk.injEq]
  split
  · omega
  · omega

/-- The positions in the row of a mass can be read off the keys of the springs. -/
theorem priorConnections?_eq (closed : graph.Closed) {mass : Mass}
    (member : mass ∈ graph.masses) :
    priorConnections? graph mass = some ((List.range (graph.indexOf mass)).filter fun position =>
      (graph.springs.map graph.keyOf).contains ⟨graph.indexOf mass, position⟩) := by
  rw [priorConnections?, lookup_positions, closed.position?_eq member, Option.map_some,
    positionsBelow]
  congr 1
  apply List.filter_congr
  intro position inRange
  rw [Bool.eq_iff_iff, List.contains_iff_mem, List.contains_iff_mem]
  exact closed.mem_neighbourPositions_iff_key member (List.mem_range.mp inRange)

end Graph.Closed

end SpringArm
