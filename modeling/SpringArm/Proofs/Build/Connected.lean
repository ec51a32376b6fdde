import SpringArm.Proofs.Build.Stages
import SpringArm.Proofs.Graph.Joined

/-!
# Networks are connected

Growth joins every mass to where it started: the cursor never leaves what is joined to the first
input, and pruning only takes leaves. So without random springs every network mass that has a spring
is joined to the first input.
-/

namespace SpringArm

variable {γ : Type}

namespace Growth

/-- All that is joined in a trail is joined to its root, and so is the cursor. -/
structure Trail.Rooted (root : Mass) (trail : Trail γ) : Prop where
  rooted : trail.blueprint.graph.Rooted root
  cursor : trail.blueprint.graph.Joined root trail.cursor

theorem Trail.Rooted.letter {root : Mass} {limits : Limits} {trail next : Trail γ}
    {character : Char} {position : Nat} (before : trail.Rooted root)
    (read : LetterRead limits trail character position next) : next.Rooted root := by
  cases read with
  | mass distance point draws template =>
    exact ⟨before.rooted.congr rfl, before.cursor.mono (List.Subset.refl _)⟩
  | spring distance target draws noMass template candidate =>
    obtain ⟨rooted, reached⟩ := before.rooted.addSpring before.cursor target
    exact ⟨rooted, reached⟩
  | stay distance noMass template => exact before
  | problem noMass noSpring => exact ⟨before.rooted, before.cursor⟩

/-- Pruning a rooted graph. The masses stay the same, so each mass that is visited is still
there. -/
theorem prune_rooted {graph : Graph} {root : Mass} (sound : graph.Sound)
    (rooted : graph.Rooted root) : (prune graph).1.Rooted root := by
  have invariant : (prune graph).1.masses = graph.masses ∧ (prune graph).1.Sound ∧
      (prune graph).1.Rooted root := by
    apply stepwise_invariant
      (fun reached : Graph => reached.masses = graph.masses ∧ reached.Sound ∧
        reached.Rooted root)
      ⟨rfl, sound, rooted⟩
    rintro before mass after visited ⟨masses, beforeSound, beforeRooted⟩ pruned
    obtain ⟨member, network⟩ := Graph.mem_networkMasses.mp visited
    rcases pruneMass_cases pruned with ⟨spring, only, removed⟩ | ⟨-, rfl⟩
    · have sameMasses := congrArg Graph.masses (Graph.removeSpring_eq_ok removed)
      exact ⟨sameMasses.trans masses, beforeSound.edit (beforeSound.removeSpring_edit removed),
        beforeRooted.removeSpring beforeSound (masses ▸ member) network only removed⟩
    · exact ⟨masses, beforeSound, beforeRooted⟩
  exact invariant.2.2

theorem dropUnconnected_rooted {blueprint : Blueprint} {root : Mass}
    (rooted : blueprint.graph.Rooted root) :
    (dropUnconnected blueprint).value.graph.Rooted root := by
  unfold dropUnconnected
  split
  · exact rooted
  · exact rooted.congr rfl

/-- Unless they are shown, network masses without springs are dropped. -/
theorem dropUnconnected_connected {blueprint : Blueprint}
    (hidden : blueprint.switches.showNotConnectedMasses = false) {mass : Mass}
    (member : mass ∈ (dropUnconnected blueprint).value.graph.networkMasses) :
    (dropUnconnected blueprint).value.graph.springsOf mass ≠ [] := by
  obtain ⟨inside, network⟩ := Graph.mem_networkMasses.mp member
  simp only [dropUnconnected, hidden, Bool.false_eq_true, if_false, Graph.removeUnconnected,
    List.mem_filter, Graph.isUnconnected, network, beq_self_eq_true, Bool.true_and,
    Bool.not_eq_true', List.isEmpty_eq_false_iff] at inside ⊢
  exact inside.2

variable [Draws γ]

theorem withRandom_rooted (limits : Limits) {trail : Trail γ} {root : Mass}
    (noRandom : trail.blueprint.randomSprings ≤ 0) (rooted : trail.Rooted root) :
    (withRandom limits trail).graph.Rooted root := by
  have masses := addRandomMasses_invariant trail.blueprint trail.cursor trail.draws
    (fun blueprint => blueprint.graph.Rooted root) rooted.rooted
    fun before point beforeRooted => beforeRooted.congr rfl
  have stillNone : (addRandomMasses trail.blueprint trail.cursor
      trail.draws).value.2.1.randomSprings ≤ 0 := by
    rw [(addRandomMasses_edited ..).randomSprings_eq]
    exact noRandom
  simp only [withRandom, addRandomSprings, stillNone, if_true]
  exact masses

/-- Without random springs a growth leaves a graph that is rooted in the first input. -/
theorem Developed.rooted {limits : Limits} {blueprint final : Blueprint}
    {construction : List Char} {draws : γ} {problems : List Problem} {first : Mass}
    {others : List Mass} (described : blueprint.Described)
    (inputs : startInputs blueprint = first :: others) (noRandom : blueprint.randomSprings ≤ 0)
    (developed : Developed limits blueprint construction draws final problems) :
    final.graph.Rooted first ∧ (final.switches.showNotConnectedMasses = false →
      ∀ mass ∈ final.graph.networkMasses, final.graph.springsOf mass ≠ []) := by
  cases developed with
  | nothing noInputs =>
    rw [inputs] at noInputs
    cases noInputs
  | @grown start rest trail pruned starts read prunes =>
    rw [inputs] at starts
    cases starts
    have placed := described.trail_placed inputs read
    have random := placed.edited.trans (withRandom_edited limits trail)
    have trailRooted : trail.Rooted first := by
      have cleared : blueprint.graph.removeNetwork.Rooted first :=
        .removeNetwork (by rw [(described.cleared_input inputs).2]; decide)
      have kept := readConstruction_invariant limits
        { blueprint with graph := blueprint.graph.removeNetwork } first construction draws
        (Trail.Rooted first) ⟨cleared, .refl⟩ fun _ _ _ _ before letter => before.letter letter
      rw [read] at kept
      exact kept
    have grown := withRandom_rooted limits (placed.edited.randomSprings_eq ▸ noRandom) trailRooted
    have prunedRooted := prune_rooted (described.sound.edits random.edits) grown
    rw [prunes] at prunedRooted
    refine ⟨dropUnconnected_rooted prunedRooted, ?_⟩
    intro hidden mass member
    refine dropUnconnected_connected ?_ member
    have switches :
        (dropUnconnected { withRandom limits trail with graph := pruned }).value.switches =
          (withRandom limits trail).switches := by
      unfold dropUnconnected
      split <;> rfl
    exact switches ▸ hidden

end Growth

variable [Draws γ]

/-- Without random springs every network mass with a spring is joined to the first input by a path
of springs. Unless masses without springs are shown, these are all network masses there are. -/
theorem buildNetwork_joined {limits : Limits} {description seed : Option (List Char)} {draws : γ}
    {build : Build} (built : (buildNetwork limits description seed draws).value = .ok build)
    {first : Mass} {others : List Mass} (inputs : build.blueprint.inputs = first :: others)
    (noRandom : build.blueprint.randomSprings ≤ 0) :
    (∀ mass ∈ build.blueprint.graph.networkMasses, build.blueprint.graph.springsOf mass ≠ [] →
        build.blueprint.graph.Joined first mass) ∧
      (build.blueprint.switches.showNotConnectedMasses = false →
        ∀ mass ∈ build.blueprint.graph.networkMasses,
          build.blueprint.graph.Joined first mass) := by
  obtain ⟨blueprint, expanded, stages⟩ := buildNetwork_eq_ok_iff.mp built
  have described := stages.described
  rw [stages.edited.inputs_eq] at inputs
  rw [stages.edited.randomSprings_eq] at noRandom
  have starts : Growth.startInputs blueprint = first :: others := by
    rw [described.startInputs_eq, ← described.inputs_eq]
    exact inputs
  obtain ⟨rooted, connected⟩ := stages.developed.rooted described starts noRandom
  have joined : ∀ mass ∈ build.blueprint.graph.networkMasses,
      build.blueprint.graph.springsOf mass ≠ [] → build.blueprint.graph.Joined first mass := by
    intro mass member some
    obtain ⟨inside, network⟩ := Graph.mem_networkMasses.mp member
    obtain ⟨other, adjacent⟩ := stages.sound.exists_adjacent inside some
    exact rooted.joined mass other adjacent network
  exact ⟨joined, fun hidden mass member => joined mass member (connected hidden mass member)⟩

set_option maxRecDepth 4000 in
/-- The sample has a mass of the network, which is joined to the first of its inputs. -/
theorem buildNetwork_joined_sample :
    ∃ build first others, (buildNetwork {} (some sampleDescription) (some sampleSeed)
        (SeededDraws.ofSeed 5)).value = .ok build ∧
      build.blueprint.inputs = first :: others ∧ build.blueprint.randomSprings ≤ 0 ∧
      ∃ mass ∈ build.blueprint.graph.networkMasses, build.blueprint.graph.Joined first mass := by
  obtain ⟨build, built, checked⟩ := sample_built
    (fun blueprint => !blueprint.inputs.isEmpty && decide (blueprint.randomSprings ≤ 0) &&
      !blueprint.switches.showNotConnectedMasses && !blueprint.graph.networkMasses.isEmpty)
    (by decide +kernel)
  simp only [Bool.and_eq_true, Bool.not_eq_true', List.isEmpty_eq_false_iff, decide_eq_true_eq,
    and_assoc] at checked
  obtain ⟨someInput, noRandom, hidden, network⟩ := checked
  obtain ⟨first, others, inputs⟩ := List.exists_cons_of_ne_nil someInput
  obtain ⟨mass, member⟩ := List.exists_mem_of_ne_nil _ network
  exact ⟨build, first, others, built, inputs, noRandom, mass, member,
    (buildNetwork_joined built inputs noRandom).2 hidden mass member⟩

end SpringArm
