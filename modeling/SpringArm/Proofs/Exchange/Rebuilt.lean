import Mathlib.Data.List.Nodup
import SpringArm.Proofs.Exchange.Import
import SpringArm.Proofs.Graph.Edit

/-!
# Exporting a rebuilt graph

A rebuilt graph is closed, its masses stand where the original ones stand, and its springs are
sorted already and have the keys of the original ones. So its masses table is the original one. Its
connection table is the original one as well if the connections can be worked out again from the
kinds of the ends, which is so in typed graphs: what two kinds ask for does not depend on their
order. -/

namespace SpringArm

/-- Between kinds that go together the connection does not depend on the direction, nor on an elbow
being read back as an input. -/
theorem MassKind.Joins.between_readBack {source destination : MassKind}
    (joins : source.Joins destination) :
    Connection.between source.readBack destination.readBack =
        Connection.between source destination ∧
      Connection.between destination.readBack source.readBack =
        Connection.between source destination := by
  cases joins with
  | part part => cases source <;> first | exact ⟨rfl, rfl⟩ | cases part
  | segments => exact ⟨rfl, rfl⟩
  | grown sourceReachable destinationReachable =>
    simp only [isReachable, Bool.or_eq_true, beq_iff_eq] at sourceReachable destinationReachable
    rcases sourceReachable with rfl | rfl <;> rcases destinationReachable with rfl | rfl <;>
      exact ⟨rfl, rfl⟩

namespace Graph

open Exchange

variable {graph : Graph}

private theorem map_zipIdx_congr {α β : Type} {items : List α} {start : Nat}
    {numbered : α × Nat → β}
    {view : α → β} (same : ∀ item ∈ items, ∀ key, numbered (item, key) = view item) :
    (items.zipIdx start).map numbered = items.map view := by
  conv =>
    rhs
    rw [← List.zipIdx_map_fst start items, List.map_map]
  apply List.map_congr_left
  rintro ⟨item, key⟩ member
  exact same item (List.fst_mem_of_mem_zipIdx member) key

theorem rebuilt_masses (nextKey : Nat) :
    (graph.rebuilt nextKey).masses = graph.masses.map (graph.copyOf nextKey) := rfl

theorem rebuilt_springs (nextKey : Nat) : (graph.rebuilt nextKey).springs =
    graph.springCopies nextKey graph.canonical (nextKey + graph.masses.length) := rfl

theorem mem_springCopies {nextKey springKey : Nat} {spring : Spring}
    (member : spring ∈ graph.springCopies nextKey graph.canonical springKey) :
    ∃ row ∈ graph.canonical, ∃ key, spring = Spring.joining key
      (graph.copyOf nextKey (graph.higherEnd row.2))
      (graph.copyOf nextKey (graph.lowerEnd row.2)) := by
  obtain ⟨⟨row, key⟩, numbered, rfl⟩ := List.mem_map.mp member
  exact ⟨row, List.fst_mem_of_mem_zipIdx numbered, key, rfl⟩

namespace Closed

/-- A rebuilt graph is closed. -/
theorem rebuilt (closed : graph.Closed) (nextKey : Nat) : (graph.rebuilt nextKey).Closed where
  masses_nodup := by
    simp only [Graph.rebuilt, List.map_map]
    apply List.Nodup.map_on _ (List.Nodup.of_map _ closed.masses_nodup)
    intro first firstMember second secondMember keys
    simp only [Function.comp, copyOf] at keys
    exact closed.indexOf_inj firstMember secondMember (by omega)
  ends_mem := by
    intro spring member
    obtain ⟨row, rowMember, key, rfl⟩ := mem_springCopies member
    have springMember := (mem_canonical.mp rowMember).1
    exact ⟨List.mem_map_of_mem (closed.indexOf_higherEnd springMember).1,
      List.mem_map_of_mem (closed.indexOf_lowerEnd springMember).1⟩

/-- A copy stands where the original mass stands. -/
theorem indexOf_copyOf (closed : graph.Closed) (nextKey : Nat) {mass : Mass}
    (member : mass ∈ graph.masses) :
    (graph.rebuilt nextKey).indexOf (graph.copyOf nextKey mass) = graph.indexOf mass :=
  (closed.rebuilt nextKey).indexOf_eq (closed.getElem?_copyOf nextKey member)

/-- A copy of a spring has the key of the spring. -/
theorem keyOf_copy (closed : graph.Closed) (nextKey key : Nat) {row : SortKey × Spring}
    (member : row ∈ graph.canonical) :
    (graph.rebuilt nextKey).keyOf (Spring.joining key
      (graph.copyOf nextKey (graph.higherEnd row.2))
      (graph.copyOf nextKey (graph.lowerEnd row.2))) = row.1 := by
  obtain ⟨springMember, isKey⟩ := mem_canonical.mp member
  obtain ⟨higherMember, higher⟩ := closed.indexOf_higherEnd springMember
  obtain ⟨lowerMember, lower⟩ := closed.indexOf_lowerEnd springMember
  simp only [keyOf, Spring.joining, closed.indexOf_copyOf nextKey higherMember,
    closed.indexOf_copyOf nextKey lowerMember, higher, lower, isKey, SortKey.ofPositions,
    SortKey.mk.injEq]
  omega

/-- The springs of a rebuilt graph are sorted already. -/
theorem canonical_rebuilt (closed : graph.Closed) (nextKey : Nat) :
    (graph.rebuilt nextKey).canonical =
      (graph.canonical.zipIdx (nextKey + graph.masses.length)).map fun (row, key) =>
        (row.1, Spring.joining key (graph.copyOf nextKey (graph.higherEnd row.2))
          (graph.copyOf nextKey (graph.lowerEnd row.2))) := by
  have keyed : ((graph.rebuilt nextKey).springs.map fun spring =>
        ((graph.rebuilt nextKey).keyOf spring, spring)) =
      (graph.canonical.zipIdx (nextKey + graph.masses.length)).map fun (row, key) =>
        (row.1, Spring.joining key (graph.copyOf nextKey (graph.higherEnd row.2))
          (graph.copyOf nextKey (graph.lowerEnd row.2))) := by
    rw [rebuilt_springs, springCopies, List.map_map]
    apply List.map_congr_left
    rintro ⟨row, key⟩ numbered
    simp only [Function.comp, closed.keyOf_copy nextKey key (List.fst_mem_of_mem_zipIdx numbered)]
  have sorted := graph.canonical_sorted
  rw [← List.zipIdx_map_fst (nextKey + graph.masses.length) graph.canonical,
    List.pairwise_map] at sorted
  rw [canonical, keyed]
  exact List.mergeSort_of_pairwise (List.pairwise_map.mpr sorted)

/-- A rebuilt graph has springs with the same keys. -/
theorem mem_keys_rebuilt (closed : graph.Closed) (nextKey : Nat) (key : SortKey) :
    key ∈ (graph.rebuilt nextKey).springs.map (graph.rebuilt nextKey).keyOf ↔
      key ∈ graph.springs.map graph.keyOf := by
  have keys : ∀ some : Graph, key ∈ some.springs.map some.keyOf ↔
      key ∈ some.canonical.map (·.1) := by
    intro some
    simp only [List.mem_map, mem_canonical]
    constructor
    · rintro ⟨spring, member, rfl⟩
      exact ⟨(some.keyOf spring, spring), ⟨member, rfl⟩, rfl⟩
    · rintro ⟨row, ⟨member, isKey⟩, rfl⟩
      exact ⟨row.2, member, isKey.symm⟩
  rw [keys, keys, closed.canonical_rebuilt nextKey, List.map_map,
    map_zipIdx_congr fun _ _ _ => rfl]

/-- The row of a copy is the row of the mass. -/
theorem massRow_copyOf (closed : graph.Closed) (nextKey : Nat) {mass : Mass}
    (member : mass ∈ graph.masses) :
    massRow (graph.rebuilt nextKey) (graph.copyOf nextKey mass) = massRow graph mass := by
  have prior : priorConnections? (graph.rebuilt nextKey) (graph.copyOf nextKey mass) =
      priorConnections? graph mass := by
    rw [closed.priorConnections?_eq member,
      (closed.rebuilt nextKey).priorConnections?_eq (List.mem_map_of_mem member),
      closed.indexOf_copyOf nextKey member]
    congr 1
    apply List.filter_congr
    intro position _
    rw [Bool.eq_iff_iff, List.contains_iff_mem, List.contains_iff_mem]
    exact closed.mem_keys_rebuilt nextKey _
  have code : (graph.copyOf nextKey mass).kind.code = mass.kind.code := mass.kind.readBack_code
  rw [massRow, massRow, prior, code]
  rfl

/-- The masses table of a closed graph is the one of its rebuilt graph. -/
theorem massesTable_rebuilt (closed : graph.Closed) (nextKey : Nat) :
    massesTable (graph.rebuilt nextKey) = massesTable graph := by
  have rows : massRows (graph.rebuilt nextKey) = massRows graph := by
    rw [massRows, rebuilt_masses, List.map_map]
    apply List.map_congr_left
    intro mass member
    exact closed.massRow_copyOf nextKey member
  rw [massesTable, massesTable, rows]

/-- In a typed graph the connection of a spring is the one between the copies of its ends. -/
theorem between_copies (closed : graph.Closed) (typed : graph.Typed) (nextKey : Nat)
    {spring : Spring} (member : spring ∈ graph.springs) :
    Connection.between (graph.copyOf nextKey (graph.higherEnd spring)).kind
      (graph.copyOf nextKey (graph.lowerEnd spring)).kind = spring.connection := by
  obtain ⟨joins, connection⟩ := typed spring member
  obtain ⟨forwards, backwards⟩ := joins.between_readBack
  obtain ⟨source, destination⟩ := closed.ends_mem spring member
  rw [connection]
  rcases Nat.lt_trichotomy (graph.indexOf spring.source) (graph.indexOf spring.destination) with
    order | same | order
  · simpa [copyOf, higherEnd, lowerEnd, order, Nat.lt_asymm order] using backwards
  · rw [closed.indexOf_inj source destination same] at forwards ⊢
    simpa [copyOf, higherEnd, lowerEnd, same] using forwards
  · simpa [copyOf, higherEnd, lowerEnd, order, Nat.lt_asymm order] using forwards

/-- The connections of a typed graph are those of its rebuilt graph, in the order of the rows. -/
theorem connections_rebuilt (closed : graph.Closed) (typed : graph.Typed) (nextKey : Nat) :
    (graph.rebuilt nextKey).springs.map Spring.connection =
      graph.canonical.map (·.2.connection) := by
  rw [rebuilt_springs, springCopies, List.map_map]
  apply map_zipIdx_congr
  intro row member key
  exact closed.between_copies typed nextKey (mem_canonical.mp member).1

/-- The connection table of a typed graph is the one of its rebuilt graph. -/
theorem connectionsTable_rebuilt (closed : graph.Closed) (typed : graph.Typed) (nextKey : Nat) :
    connectionsTable (graph.rebuilt nextKey) = connectionsTable graph := by
  have rows : (graph.rebuilt nextKey).canonical.map connectionRow =
      graph.canonical.map connectionRow := by
    rw [closed.canonical_rebuilt nextKey, List.map_map]
    apply map_zipIdx_congr
    intro row member key
    have connection := closed.between_copies typed nextKey (mem_canonical.mp member).1
    simp only [Function.comp, connectionRow, Spring.joining, connection]
  rw [closed.connectionsTable_eq, (closed.rebuilt nextKey).connectionsTable_eq, rows]

end Closed

end Graph

end SpringArm
