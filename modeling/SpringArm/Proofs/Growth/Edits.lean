import SpringArm.Proofs.Blueprint.Arm
import SpringArm.Proofs.Growth.Moves

/-!
# Growth as edits

A growth that comes to its end goes through its phases, which `Developed` lists. Each phase edits
the graph of the blueprint and leaves the rest of it alone, so the graph that was grown is as sound
and as typed as the one that was described.
-/

namespace SpringArm

/-- A blueprint whose graph has been edited and that is otherwise the same. -/
structure Blueprint.Edited (before after : Blueprint) : Prop where
  rest : after = { before with graph := after.graph }
  edits : before.graph.Edits after.graph

namespace Blueprint.Edited

variable {first second third : Blueprint}

theorem refl (blueprint : Blueprint) : Edited blueprint blueprint :=
  ⟨rfl, .refl⟩

theorem trans (left : Edited first second) (right : Edited second third) : Edited first third := by
  refine ⟨?_, left.edits.trans right.edits⟩
  rw [right.rest, left.rest]

theorem inputs_eq (edited : Edited first second) : second.inputs = first.inputs := by
  rw [edited.rest]

theorem randomSprings_eq (edited : Edited first second) :
    second.randomSprings = first.randomSprings := by
  rw [edited.rest]

theorem ofEdit {graph : Graph} (edit : first.graph.Edit graph) :
    Edited first { first with graph } :=
  ⟨rfl, .single edit⟩

end Blueprint.Edited

namespace Growth

variable {γ : Type}

theorem addNetworkMass_edit (blueprint : Blueprint) (point : Geometry.Point Float) :
    blueprint.graph.Edit (addNetworkMass blueprint point).2.graph :=
  .addMass point.x point.y .network

/-- The cursor of a trail is a mass of the graph that springs may lead from. -/
structure Trail.Placed (start : Blueprint) (trail : Trail γ) : Prop where
  edited : start.Edited trail.blueprint
  cursor_mem : trail.cursor ∈ trail.blueprint.graph.masses
  cursor_reachable : trail.cursor.kind.isReachable = true

theorem Trail.Placed.letter {start : Blueprint} {limits : Limits} {trail next : Trail γ}
    {character : Char} {position : Nat} (placed : trail.Placed start)
    (read : LetterRead limits trail character position next) : next.Placed start := by
  cases read with
  | mass distance point draws template =>
    exact ⟨placed.edited.trans (.ofEdit (addNetworkMass_edit _ point)),
      List.mem_append_left _ placed.cursor_mem, placed.cursor_reachable⟩
  | spring distance target draws noMass template candidate =>
    refine ⟨placed.edited.trans (.ofEdit ?_), candidate.mem, candidate.reachable⟩
    exact .addSpring placed.cursor_mem candidate.mem candidate.different.symm candidate.free
      (.grown placed.cursor_reachable candidate.reachable)
  | stay distance noMass template => exact placed
  | problem noMass noSpring =>
    exact ⟨placed.edited, placed.cursor_mem, placed.cursor_reachable⟩

variable [Draws γ]

/-- The blueprint of a trail with its random masses and springs. -/
def withRandom (limits : Limits) (trail : Trail γ) : Blueprint :=
  let masses := (addRandomMasses trail.blueprint trail.cursor trail.draws).value
  (addRandomSprings masses.2.1 limits masses.2.2).value.2.1

/-- Behind a construction text random masses and springs are added, dead ends are pruned, and
unconnected masses are dropped unless they are shown. -/
theorem finish_blueprint (limits : Limits) (trail : Trail γ) :
    (finish limits trail).blueprint = (dropUnconnected
      { withRandom limits trail with
        graph := (prune (withRandom limits trail).graph).1 }).value := by
  have prunes := prune_succeeds (withRandom limits trail).graph
  simp only [withRandom] at prunes ⊢
  simp only [finish]
  split
  next graph fault failed =>
    rw [failed] at prunes
    cases prunes
  next graph pruned => rw [pruned]

/-- The ways in which a growth comes to its end. -/
inductive Developed (limits : Limits) (blueprint : Blueprint) (construction : List Char)
    (draws : γ) : Blueprint → List Problem → Prop where
  /-- There is no input to grow from. -/
  | nothing (inputs : startInputs blueprint = []) :
      Developed limits blueprint construction draws blueprint []
  /-- All phases have been gone through. -/
  | grown {first : Mass} {others : List Mass} {trail : Trail γ} {pruned : Graph}
      (inputs : startInputs blueprint = first :: others)
      (read : readConstruction limits { blueprint with graph := blueprint.graph.removeNetwork }
        first construction draws = (trail, none))
      (prunes : prune (withRandom limits trail).graph = (pruned, none)) :
      Developed limits blueprint construction draws
        (dropUnconnected { withRandom limits trail with graph := pruned }).value trail.problems

/-- A growth without a fault has gone through its phases. -/
theorem developed_of_outcome {limits : Limits} {blueprint : Blueprint}
    {construction : Option (List Char)} {draws : γ} {problems : List Problem}
    (outcome : (develop limits blueprint construction draws).outcome = .ok problems) :
    Developed limits blueprint (construction.getD []) draws
      (develop limits blueprint construction draws).blueprint problems := by
  cases inputs : startInputs blueprint with
  | nil =>
    simp only [develop, inputs] at outcome ⊢
    cases outcome
    exact .nothing inputs
  | cons first others =>
    cases read : readConstruction limits { blueprint with graph := blueprint.graph.removeNetwork }
        first (construction.getD []) draws with
    | mk trail fault =>
      cases fault with
      | some fault =>
        simp only [develop, inputs, read] at outcome
        cases outcome
      | none =>
        cases prunes : prune (withRandom limits trail).graph with
        | mk pruned fault =>
          simp only [withRandom] at prunes
          simp only [develop, inputs, read, finish, prunes] at outcome ⊢
          cases fault with
          | some fault => cases outcome
          | none =>
            cases outcome
            exact .grown inputs read prunes

/-- Reading a construction text edits the graph. -/
theorem readConstruction_placed (limits : Limits) (blueprint : Blueprint) {cursor : Mass}
    (construction : List Char) (draws : γ) (member : cursor ∈ blueprint.graph.masses)
    (reachable : cursor.kind.isReachable = true) :
    (readConstruction limits blueprint cursor construction draws).1.Placed blueprint :=
  readConstruction_invariant limits blueprint cursor construction draws (Trail.Placed blueprint)
    ⟨.refl blueprint, member, reachable⟩ fun _ _ _ _ placed read => placed.letter read

theorem addRandomMasses_edited (blueprint : Blueprint) (cursor : Mass) (draws : γ) :
    blueprint.Edited (addRandomMasses blueprint cursor draws).value.2.1 :=
  addRandomMasses_invariant blueprint cursor draws (blueprint.Edited ·) (.refl blueprint)
    fun before point edited => edited.trans (.ofEdit (addNetworkMass_edit before point))

theorem mem_springPool {graph : Graph} {mass : Mass} (member : mass ∈ springPool graph) :
    mass ∈ graph.masses ∧ mass.kind.isReachable = true := by
  rcases List.mem_append.mp member with network | input
  · obtain ⟨inside, kind⟩ := Graph.mem_networkMasses.mp network
    exact ⟨inside, by rw [kind]; rfl⟩
  · obtain ⟨inside, kind⟩ := Graph.mem_inputs.mp input
    exact ⟨inside, by rw [kind]; rfl⟩

/-- What is accepted about the ends of a random spring. -/
theorem acceptsEnds_iff {graph : Graph} {source destination : Mass} :
    acceptsEnds graph source destination = true ↔ source.key ≠ destination.key ∧
      ¬(source.kind = .input ∧ destination.kind = .input) ∧
        graph.hasSpringBetween source destination = false := by
  simp only [acceptsEnds, Mass.same, Bool.and_eq_true, Bool.not_eq_true', beq_eq_false_iff_ne,
    Bool.and_eq_false_imp, beq_iff_eq, not_and, and_assoc, ne_eq]

/-- Random springs join masses that the graph has already. -/
theorem addRandomSprings_edited (blueprint : Blueprint) (limits : Limits) (draws : γ) :
    blueprint.Edited (addRandomSprings blueprint limits draws).value.2.1 := by
  constructor
  · unfold addRandomSprings
    split
    · rfl
    · split <;> rfl
  · have joined := addRandomSprings_invariant blueprint limits draws
      (fun graph => blueprint.graph.Edits graph ∧ graph.masses = blueprint.graph.masses)
      ⟨.refl, rfl⟩
    refine (joined ?_).1
    rintro graph source sourceMember destination destinationMember ⟨edits, masses⟩ accepted
    obtain ⟨sourceInside, sourceReachable⟩ := mem_springPool sourceMember
    obtain ⟨destinationInside, destinationReachable⟩ := mem_springPool destinationMember
    obtain ⟨different, -, free⟩ := acceptsEnds_iff.mp accepted
    exact ⟨edits.tail (.addSpring (masses ▸ sourceInside) (masses ▸ destinationInside) different
      free (.grown sourceReachable destinationReachable)), masses⟩

theorem withRandom_edited (limits : Limits) (trail : Trail γ) :
    trail.blueprint.Edited (withRandom limits trail) :=
  (addRandomMasses_edited ..).trans (addRandomSprings_edited ..)

/-- Pruning takes springs out. -/
theorem prune_edits {graph : Graph} (sound : graph.Sound) : graph.Edits (prune graph).1 := by
  apply stepwise_invariant (graph.Edits ·) .refl
  intro before mass after _ edits pruned
  rcases pruneMass_cases pruned with ⟨spring, -, removed⟩ | ⟨-, rfl⟩
  · exact edits.tail ((sound.edits edits).removeSpring_edit removed)
  · exact edits

theorem dropUnconnected_edited {blueprint : Blueprint} (sound : blueprint.graph.Sound) :
    blueprint.Edited (dropUnconnected blueprint).value := by
  unfold dropUnconnected
  split
  · exact .refl blueprint
  · exact .ofEdit sound.removeUnconnected_edit

end Growth

namespace Blueprint.Described

open Growth

variable {γ : Type} [Draws γ] {blueprint : Blueprint}

/-- The inputs of a described blueprint are where growth starts. -/
theorem startInputs_eq (described : blueprint.Described) :
    startInputs blueprint = blueprint.graph.inputs := by
  unfold startInputs
  rw [described.inputs_eq]
  split <;> rfl

/-- Growth keeps the inputs of the arm. -/
theorem cleared_input (described : blueprint.Described) {first : Mass} {others : List Mass}
    (inputs : startInputs blueprint = first :: others) :
    first ∈ blueprint.graph.removeNetwork.masses ∧ first.kind = .input := by
  have member : first ∈ blueprint.graph.inputs := by
    rw [← described.startInputs_eq, inputs]
    exact List.mem_cons_self
  obtain ⟨inside, kind⟩ := Graph.mem_inputs.mp member
  exact ⟨List.mem_filter.mpr ⟨inside, by rw [kind]; rfl⟩, kind⟩

/-- Reading a construction text from the first input edits the graph. -/
theorem trail_placed (described : blueprint.Described) {limits : Limits}
    {construction : List Char} {draws : γ} {first : Mass} {others : List Mass} {trail : Trail γ}
    {fault : Option Geometry.ArithmeticFault} (inputs : startInputs blueprint = first :: others)
    (read : readConstruction limits { blueprint with graph := blueprint.graph.removeNetwork }
      first construction draws = (trail, fault)) :
    trail.Placed blueprint := by
  obtain ⟨member, kind⟩ := described.cleared_input inputs
  have placed := readConstruction_placed limits
    { blueprint with graph := blueprint.graph.removeNetwork } construction draws member (kind ▸ rfl)
  rw [read] at placed
  have cleared : blueprint.Edited { blueprint with graph := blueprint.graph.removeNetwork } :=
    .ofEdit described.sound.removeNetwork_edit
  exact ⟨cleared.trans placed.edited, placed.cursor_mem, placed.cursor_reachable⟩

/-- Growing a network edits the graph of a described blueprint. -/
theorem developed_edited (described : blueprint.Described) {limits : Limits}
    {construction : List Char} {draws : γ} {final : Blueprint} {problems : List Problem}
    (developed : Developed limits blueprint construction draws final problems) :
    blueprint.Edited final := by
  cases developed with
  | nothing inputs => exact .refl blueprint
  | @grown first others trail pruned inputs read prunes =>
    have random :=
      (described.trail_placed inputs read).edited.trans (withRandom_edited limits trail)
    have sound := described.sound.edits random.edits
    have prunedEdits := prune_edits sound
    rw [prunes] at prunedEdits
    have prunedEdited : (withRandom limits trail).Edited
        { withRandom limits trail with graph := pruned } := ⟨rfl, prunedEdits⟩
    exact (random.trans prunedEdited).trans (dropUnconnected_edited (sound.edits prunedEdits))

end Blueprint.Described

end SpringArm
