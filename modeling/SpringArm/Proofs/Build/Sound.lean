import SpringArm.Proofs.Build.Stages
import SpringArm.Proofs.Graph.Positions

/-!
# Networks are sound

Whatever is described, expanded and drawn, the graph of a build is sound, so its springs can be
written: they can be sorted, and no two of them have the same row.
-/

namespace SpringArm

variable {γ : Type} [Draws γ]

/-- The masses of a network are different ones, every spring joins two different masses of it, and
no two springs join the same two. So the springs can be sorted; each row has the two positions of
its spring, the higher one first, and the rows go up strictly. -/
theorem buildNetwork_sound {limits : Limits} {description seed : Option (List Char)} {draws : γ}
    {build : Build} (built : (buildNetwork limits description seed draws).value = .ok build) :
    build.blueprint.graph.Sound ∧
      ∃ sorted, build.blueprint.graph.sortedWithKeys = .ok sorted ∧
        build.blueprint.graph.sortedSprings = .ok (sorted.map (·.2)) ∧
        (sorted.map (·.2)).Perm build.blueprint.graph.springs ∧
        (∀ keyed ∈ sorted, keyed.2.sortKey build.blueprint.graph = .ok keyed.1 ∧
          keyed.1.lower < keyed.1.higher) ∧
        sorted.Pairwise fun first second => first.1.Before second.1 := by
  obtain ⟨blueprint, expanded, stages⟩ := buildNetwork_eq_ok_iff.mp built
  have sound := stages.sound
  refine ⟨sound, build.blueprint.graph.canonical, sound.sortedWithKeys_eq, sound.sortedSprings_eq,
    build.blueprint.graph.canonical_perm, ?_, sound.canonical_strict⟩
  intro keyed member
  obtain ⟨springMember, key⟩ := Graph.mem_canonical.mp member
  rw [key]
  exact ⟨sound.sortKey_eq springMember, sound.keyOf_lower_lt springMember⟩

set_option maxRecDepth 4000 in
/-- The sample has a mass of the network and six springs, all of which have a row. -/
theorem buildNetwork_sound_sample :
    ∃ build, (buildNetwork {} (some sampleDescription) (some sampleSeed)
        (SeededDraws.ofSeed 5)).value = .ok build ∧
      build.blueprint.graph.networkMasses.length = 1 ∧ build.blueprint.graph.springs.length = 6 ∧
      ∃ sorted, build.blueprint.graph.sortedWithKeys = .ok sorted ∧ sorted.length = 6 := by
  obtain ⟨build, built, checked⟩ := sample_built
    (fun blueprint => blueprint.graph.networkMasses.length == 1 &&
      blueprint.graph.springs.length == 6) (by decide +kernel)
  rw [Bool.and_eq_true, beq_iff_eq, beq_iff_eq] at checked
  obtain ⟨-, sorted, rows, -, perm, -⟩ := buildNetwork_sound built
  refine ⟨build, built, checked.1, checked.2, sorted, rows, ?_⟩
  rw [← checked.2, ← perm.length_eq, List.length_map]

end SpringArm
