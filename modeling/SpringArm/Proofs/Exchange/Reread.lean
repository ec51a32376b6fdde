import SpringArm.Proofs.Exchange.Rebuilt

/-!
# Graphs survive their tables

The tables of any closed graph, however its springs lie, are imported as a graph with the same
places in the same order and one spring for every row. What the tables do not tell is lost: an elbow
comes back as an input, and every spring leads from its higher position to its lower one.
-/

namespace SpringArm

namespace Graph

/-- A spring of one graph is what a spring of another one comes back as: it leads from the higher
position of the original to the lower one. -/
def Redirected (graph copy : Graph) (original spring : Spring) : Prop :=
  ∃ key, original.sortKey graph = .ok key ∧
    copy.position spring.source = .ok key.higher ∧
    copy.position spring.destination = .ok key.lower

/-- A graph is what the tables of another one are read back as. -/
structure Reread (graph copy : Graph) : Prop where
  closed : copy.Closed
  /-- The masses keep their order, their places and, elbows aside, their kinds. -/
  masses : copy.masses.map (fun mass => (mass.x, mass.y, mass.kind)) =
    graph.masses.map fun mass => (mass.x, mass.y, mass.kind.readBack)
  /-- There is one new spring for each of the sorted springs, in their order. -/
  springs : ∃ sorted, graph.sortedSprings = .ok sorted ∧ sorted.Perm graph.springs ∧
    List.Forall₂ (Redirected graph copy) sorted copy.springs
  springs_nodup : (copy.springs.map Spring.key).Nodup

private theorem forall₂_map_zipIdx {α β : Type} {related : α → β → Prop} {items : List α}
    {numbered : α × Nat → β} (each : ∀ item ∈ items, ∀ key, related item (numbered (item, key)))
    (start : Nat) : List.Forall₂ related items ((items.zipIdx start).map numbered) := by
  induction items generalizing start with
  | nil => exact .nil
  | cons item rest inductionHypothesis =>
    obtain ⟨first, others⟩ := List.forall_mem_cons.mp each
    exact .cons (first start) (inductionHypothesis others (start + 1))

namespace Closed

variable {graph : Graph}

/-- The copy of a mass is found at the position of the mass. -/
theorem position_copyOf (closed : graph.Closed) (nextKey : Nat) {mass : Mass}
    (member : mass ∈ graph.masses) :
    (graph.rebuilt nextKey).position (graph.copyOf nextKey mass) = .ok (graph.indexOf mass) := by
  have found := (closed.rebuilt nextKey).position?_eq (List.mem_map_of_mem member)
  rw [position, found, closed.indexOf_copyOf nextKey member]

/-- The copy of a spring leads from its higher position to its lower one. -/
theorem redirected_copy (closed : graph.Closed) (nextKey : Nat) {row : SortKey × Spring}
    (member : row ∈ graph.canonical) (key : Nat) :
    Redirected graph (graph.rebuilt nextKey) row.2 (Spring.joining key
      (graph.copyOf nextKey (graph.higherEnd row.2))
      (graph.copyOf nextKey (graph.lowerEnd row.2))) := by
  obtain ⟨springMember, -⟩ := mem_canonical.mp member
  obtain ⟨higherMember, higher⟩ := closed.indexOf_higherEnd springMember
  obtain ⟨lowerMember, lower⟩ := closed.indexOf_lowerEnd springMember
  refine ⟨graph.keyOf row.2, closed.sortKey_eq springMember, ?_, ?_⟩
  · rw [← higher]
    exact closed.position_copyOf nextKey higherMember
  · rw [← lower]
    exact closed.position_copyOf nextKey lowerMember

/-- A closed graph is reread as its rebuilt graph. -/
theorem reread_rebuilt (closed : graph.Closed) (nextKey : Nat) :
    Reread graph (graph.rebuilt nextKey) where
  closed := closed.rebuilt nextKey
  masses := by
    rw [rebuilt_masses, List.map_map]
    rfl
  springs := by
    refine ⟨graph.canonical.map (·.2), closed.sortedSprings_eq, graph.canonical_perm, ?_⟩
    rw [List.forall₂_map_left_iff, rebuilt_springs, springCopies]
    exact forall₂_map_zipIdx (fun row member key => closed.redirected_copy nextKey member key) _
  springs_nodup := by
    have keys : (graph.rebuilt nextKey).springs.map Spring.key =
        List.range' (nextKey + graph.masses.length) graph.canonical.length := by
      rw [rebuilt_springs, springCopies, List.map_map, ← List.zipIdx_map_snd]
      rfl
    rw [keys]
    exact List.nodup_range'

end Closed

end Graph

namespace Exchange

/-- The two tables of a closed graph exist and are imported, and what comes out is the graph as far
as tables tell it. Places have to be read back from their texts as what they are, and positions must
not have too many digits. -/
theorem importTables_reread {graph : Graph} (closed : graph.Closed)
    (places : graph.PlacesReadBack) (positions : graph.PositionsReadBack) (nextKey : Nat) :
    ∃ connections imported, connectionsTable graph = .ok connections ∧
      importTables nextKey (some (massesTable graph)) (some connections) = .ok imported ∧
      graph.Reread imported :=
  ⟨_, _, closed.connectionsTable_eq,
    importTables_export closed places positions nextKey closed.connectionsTable_eq,
    closed.reread_rebuilt nextKey⟩

/-- An elbow, an input and a mass of the network at places without a value, beyond all numbers and
at a negative zero. Two springs join the same masses, another one leads upwards, and one is a
loop. -/
def tangledGraph : Graph :=
  let elbow : Mass := ⟨0, 0.1, 0.0 / 0.0, .elbow⟩
  let input : Mass := ⟨1, -0.0, 1.0 / 0.0, .input⟩
  let free : Mass := ⟨2, -1e300, 2.5e-7, .network⟩
  { masses := [elbow, input, free]
    springs := [Spring.joining 3 input free, Spring.joining 4 free input,
      Spring.joining 5 free free, Spring.joining 6 elbow input]
    nextKey := 7 }

/-- The tangled graph is reread, with its four springs. -/
theorem importTables_reread_tangled :
    tangledGraph.Closed ∧ tangledGraph.PlacesReadBack ∧
      ∃ connections imported, connectionsTable tangledGraph = .ok connections ∧
        importTables 7 (some (massesTable tangledGraph)) (some connections) = .ok imported ∧
        tangledGraph.Reread imported ∧ imported.springs.length = 4 := by
  have closed : tangledGraph.Closed := by
    refine ⟨by decide, ?_⟩
    simp [tangledGraph, Spring.joining]
  have places : tangledGraph.PlacesReadBack := by decide +kernel
  have few : tangledGraph.masses.length ≤ 10 := by decide
  have positions : tangledGraph.PositionsReadBack :=
    few.trans (Nat.le_self_pow (by decide) 10)
  obtain ⟨connections, imported, exported, reads, reread⟩ :=
    importTables_reread closed places positions 7
  refine ⟨closed, places, connections, imported, exported, reads, reread, ?_⟩
  obtain ⟨sorted, -, perm, matched⟩ := reread.springs
  rw [← matched.length_eq, perm.length_eq]
  rfl

end Exchange

end SpringArm
