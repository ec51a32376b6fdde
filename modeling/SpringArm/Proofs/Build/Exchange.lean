import SpringArm.Proofs.Build.Stages
import SpringArm.Proofs.Exchange.Rebuilt

/-!
# Networks survive their tables

Importing the two tables of a network and exporting what comes out gives the same two tables. The
tables tell neither the directions of the springs nor elbows from inputs, and connections are worked
out again; in a network none of this shows.
-/

namespace SpringArm

open Exchange

variable {γ : Type} [Draws γ]

/-- The tables of a network are imported, the graph that comes out has the same tables, and the
connections that are worked out again on the way are those of the sorted springs. Places have to be
read back from their texts as what they are, and positions must not have too many digits. -/
theorem buildNetwork_reimported {limits : Limits} {description seed : Option (List Char)}
    {draws : γ} {build : Build}
    (built : (buildNetwork limits description seed draws).value = .ok build)
    (places : build.blueprint.graph.PlacesReadBack)
    (positions : build.blueprint.graph.PositionsReadBack) (nextKey : Nat) :
    ∃ connections imported sorted,
      connectionsTable build.blueprint.graph = .ok connections ∧
      importTables nextKey (some (massesTable build.blueprint.graph)) (some connections) =
        .ok imported ∧
      massesTable imported = massesTable build.blueprint.graph ∧
      connectionsTable imported = .ok connections ∧
      build.blueprint.graph.sortedSprings = .ok sorted ∧
      imported.springs.map Spring.connection = sorted.map Spring.connection := by
  obtain ⟨blueprint, expanded, stages⟩ := buildNetwork_eq_ok_iff.mp built
  have closed := stages.sound.toClosed
  have exported := closed.connectionsTable_eq
  have rewritten := closed.connectionsTable_rebuilt stages.typed nextKey
  have connections := closed.connections_rebuilt stages.typed nextKey
  refine ⟨_, build.blueprint.graph.rebuilt nextKey, _, exported,
    importTables_export closed places positions nextKey exported,
    closed.massesTable_rebuilt nextKey, rewritten.trans exported, closed.sortedSprings_eq, ?_⟩
  rw [connections, List.map_map]
  rfl

set_option maxRecDepth 4000 in
/-- The sample with its mass of the network, whose place has been drawn, is read back. -/
theorem buildNetwork_reimported_sample :
    ∃ build connections imported, (buildNetwork {} (some sampleDescription) (some sampleSeed)
        (SeededDraws.ofSeed 5)).value = .ok build ∧
      build.blueprint.graph.networkMasses.length = 1 ∧
      importTables 100 (some (massesTable build.blueprint.graph)) (some connections) =
        .ok imported ∧
      massesTable imported = massesTable build.blueprint.graph ∧
      connectionsTable imported = .ok connections := by
  obtain ⟨build, built, checked⟩ := sample_built
    (fun blueprint => blueprint.graph.networkMasses.length == 1 &&
      decide blueprint.graph.PlacesReadBack && decide (blueprint.graph.masses.length ≤ 10))
    (by decide +kernel)
  simp only [Bool.and_eq_true, beq_iff_eq, decide_eq_true_eq] at checked
  obtain ⟨⟨network, places⟩, few⟩ := checked
  have positions : build.blueprint.graph.PositionsReadBack :=
    few.trans (Nat.le_self_pow (by decide) 10)
  obtain ⟨connections, imported, -, -, reads, sameMasses, sameConnections, -, -⟩ :=
    buildNetwork_reimported built places positions 100
  exact ⟨build, connections, imported, built, network, reads, sameMasses, sameConnections⟩

end SpringArm
