import SpringArm.Proofs.Build.Stages

/-!
# What growth leaves alone

Growth adds network masses and springs behind what it keeps, and later takes out only what it has
added itself. `Graph.GrownFrom` says so of a graph on the way; every phase keeps it. That nothing
else can be taken out follows from keys: a spring at a new mass is newer than the kept ones, because
`Graph.Fresh` graphs have given all their keys out before.
-/

namespace SpringArm

namespace Graph

/-- Every key in use was given out before, so the next one is new. A key stands for an identity:
that a mass or a spring is made means that it is none of those that are there. -/
structure Fresh (graph : Graph) : Prop where
  masses_lt : ∀ mass ∈ graph.masses, mass.key < graph.nextKey
  springs_lt : ∀ spring ∈ graph.springs, spring.key < graph.nextKey
  ends_lt : ∀ spring ∈ graph.springs,
    spring.source.key < graph.nextKey ∧ spring.destination.key < graph.nextKey

theorem Sound.fresh {graph : Graph} (sound : graph.Sound) : graph.Fresh where
  masses_lt := sound.masses_fresh
  springs_lt := sound.springs_fresh
  ends_lt := fun spring member =>
    ⟨sound.masses_fresh _ (sound.ends_mem spring member).1,
      sound.masses_fresh _ (sound.ends_mem spring member).2⟩

namespace Fresh

variable {graph : Graph}

theorem addMass (fresh : graph.Fresh) (x y : Float) (kind : MassKind) :
    (graph.addMass x y kind).2.Fresh where
  masses_lt := List.forall_mem_append.mpr
    ⟨fun mass member => Nat.lt_succ_of_lt (fresh.masses_lt mass member),
      List.forall_mem_singleton.mpr (Nat.lt_succ_self graph.nextKey)⟩
  springs_lt := fun spring member => Nat.lt_succ_of_lt (fresh.springs_lt spring member)
  ends_lt := fun spring member =>
    (fresh.ends_lt spring member).imp Nat.lt_succ_of_lt Nat.lt_succ_of_lt

theorem addSpring (fresh : graph.Fresh) {source destination : Mass}
    (sourceOld : source.key < graph.nextKey) (destinationOld : destination.key < graph.nextKey) :
    (graph.addSpring source destination).2.Fresh where
  masses_lt := fun mass member => Nat.lt_succ_of_lt (fresh.masses_lt mass member)
  springs_lt := List.forall_mem_append.mpr
    ⟨fun spring member => Nat.lt_succ_of_lt (fresh.springs_lt spring member),
      List.forall_mem_singleton.mpr (Nat.lt_succ_self graph.nextKey)⟩
  ends_lt := List.forall_mem_append.mpr
    ⟨fun spring member => (fresh.ends_lt spring member).imp Nat.lt_succ_of_lt Nat.lt_succ_of_lt,
      List.forall_mem_singleton.mpr
        ⟨Nat.lt_succ_of_lt sourceOld, Nat.lt_succ_of_lt destinationOld⟩⟩

/-- With fewer masses and springs fewer keys are in use. -/
theorem restrict (fresh : graph.Fresh) {masses : List Mass} {springs : List Spring}
    (fewerMasses : masses ⊆ graph.masses) (fewerSprings : springs ⊆ graph.springs) :
    ({ graph with masses, springs } : Graph).Fresh where
  masses_lt := fun mass member => fresh.masses_lt mass (fewerMasses member)
  springs_lt := fun spring member => fresh.springs_lt spring (fewerSprings member)
  ends_lt := fun spring member => fresh.ends_lt spring (fewerSprings member)

theorem removeNetwork (fresh : graph.Fresh) : graph.removeNetwork.Fresh :=
  fresh.restrict List.filter_sublist.subset List.filter_sublist.subset

end Fresh

theorem mem_removeNetwork_masses {graph : Graph} {mass : Mass} :
    mass ∈ graph.removeNetwork.masses ↔ mass ∈ graph.masses ∧ mass.kind ≠ .network := by
  simp [removeNetwork]

/-- A graph whose masses are those of a base and new network masses behind them, and whose springs
are those of the base and new ones behind them that lead to the network or to an input. -/
structure GrownFrom (base graph : Graph) : Prop where
  fresh : graph.Fresh
  nextKey_le : base.nextKey ≤ graph.nextKey
  masses_eq : ∃ created, graph.masses = base.masses ++ created ∧
    ∀ mass ∈ created, mass.kind = .network ∧ base.nextKey ≤ mass.key
  springs_eq : ∃ added, graph.springs = base.springs ++ added ∧
    ∀ spring ∈ added, spring.destination.kind.isReachable = true ∧ base.nextKey ≤ spring.key

namespace GrownFrom

variable {base graph : Graph}

theorem refl (fresh : base.Fresh) : GrownFrom base base :=
  ⟨fresh, Nat.le_refl _, ⟨[], by simp⟩, ⟨[], by simp⟩⟩

/-- A new network mass comes last. -/
theorem addMass (grown : GrownFrom base graph) (x y : Float) :
    GrownFrom base (graph.addMass x y .network).2 where
  fresh := grown.fresh.addMass x y .network
  nextKey_le := Nat.le_succ_of_le grown.nextKey_le
  masses_eq := by
    obtain ⟨created, masses, new⟩ := grown.masses_eq
    refine ⟨created ++ [⟨graph.nextKey, x, y, .network⟩], by simp [masses], ?_⟩
    exact List.forall_mem_append.mpr
      ⟨new, List.forall_mem_singleton.mpr ⟨rfl, grown.nextKey_le⟩⟩
  springs_eq := grown.springs_eq

/-- A new spring comes last. -/
theorem addSpring (grown : GrownFrom base graph) {source destination : Mass}
    (sourceOld : source.key < graph.nextKey) (destinationOld : destination.key < graph.nextKey)
    (reachable : destination.kind.isReachable = true) :
    GrownFrom base (graph.addSpring source destination).2 where
  fresh := grown.fresh.addSpring sourceOld destinationOld
  nextKey_le := Nat.le_succ_of_le grown.nextKey_le
  masses_eq := grown.masses_eq
  springs_eq := by
    obtain ⟨added, springs, new⟩ := grown.springs_eq
    refine ⟨added ++ [Spring.joining graph.nextKey source destination], by simp [springs], ?_⟩
    exact List.forall_mem_append.mpr
      ⟨new, List.forall_mem_singleton.mpr ⟨reachable, grown.nextKey_le⟩⟩

/-- The network masses of a graph that has grown are new ones. -/
theorem network_new (grown : GrownFrom base graph)
    (networkless : ∀ mass ∈ base.masses, mass.kind ≠ .network) {mass : Mass}
    (member : mass ∈ graph.networkMasses) : base.nextKey ≤ mass.key := by
  obtain ⟨inside, network⟩ := mem_networkMasses.mp member
  obtain ⟨created, masses, new⟩ := grown.masses_eq
  rw [masses] at inside
  rcases List.mem_append.mp inside with old | isNew
  · exact absurd network (networkless mass old)
  · exact (new mass isNew).2

/-- Taking out a spring at a new mass leaves the springs of the base in place: none of them ends at
the mass, and none has the key of one that does. -/
theorem removeSpring (grown : GrownFrom base graph) (baseFresh : base.Fresh) {mass : Mass}
    (new : base.nextKey ≤ mass.key) {spring : Spring} (ends : spring ∈ graph.springsOf mass)
    {after : Graph} (removed : graph.removeSpring spring = .ok after) : GrownFrom base after := by
  obtain ⟨added, springs, addedNew⟩ := grown.springs_eq
  obtain ⟨member, touches⟩ := mem_springsOf.mp ends
  have notKept : spring ∉ base.springs := by
    intro kept
    have old := baseFresh.ends_lt spring kept
    omega
  have isAdded : spring ∈ added :=
    (List.mem_append.mp (springs ▸ member)).resolve_left notKept
  have newer : base.nextKey ≤ spring.key := (addedNew spring isAdded).2
  have different : ∀ other ∈ base.springs, ¬ other.same spring = true := by
    intro other kept same
    have old := baseFresh.springs_lt other kept
    simp only [Spring.same, beq_iff_eq] at same
    omega
  rw [removeSpring_eq_ok removed]
  refine ⟨grown.fresh.restrict (List.Subset.refl _) List.eraseP_subset, grown.nextKey_le,
    grown.masses_eq, added.eraseP (·.same spring), ?_, ?_⟩
  · simp only [springs, List.eraseP_append_right _ different]
  · exact fun other otherMember => addedNew other (List.mem_of_mem_eraseP otherMember)

/-- Only network masses are dropped for want of springs. -/
theorem removeUnconnected (grown : GrownFrom base graph)
    (networkless : ∀ mass ∈ base.masses, mass.kind ≠ .network) :
    GrownFrom base graph.removeUnconnected.2 := by
  obtain ⟨created, masses, new⟩ := grown.masses_eq
  have kept : base.masses.filter (fun mass => !graph.isUnconnected mass) = base.masses := by
    rw [List.filter_eq_self]
    intro mass member
    simp [isUnconnected, networkless mass member]
  refine ⟨grown.fresh.restrict List.filter_sublist.subset (List.Subset.refl _), grown.nextKey_le,
    ⟨created.filter fun mass => !graph.isUnconnected mass, ?_, ?_⟩, grown.springs_eq⟩
  · simp only [Graph.removeUnconnected, masses, List.filter_append, kept]
  · exact fun mass member => new mass (List.mem_filter.mp member).1

end GrownFrom

end Graph

/-- The graph of a blueprint is fresh, and the inputs were given their keys before, too. -/
structure Blueprint.Fresh (blueprint : Blueprint) : Prop where
  graph : blueprint.graph.Fresh
  inputs_lt : ∀ input ∈ blueprint.inputs, input.key < blueprint.graph.nextKey

/-- A blueprint in which nothing but the graph has changed, and the graph has grown. -/
structure Blueprint.GrownFrom (base blueprint : Blueprint) : Prop where
  rest : blueprint = { base with graph := blueprint.graph }
  graph : base.graph.GrownFrom blueprint.graph

namespace Blueprint

variable {base blueprint : Blueprint}

theorem Described.fresh (described : blueprint.Described) : blueprint.Fresh where
  graph := described.sound.fresh
  inputs_lt := fun input member =>
    described.sound.masses_fresh input (Graph.mem_inputs.mp (described.inputs_eq ▸ member)).1

namespace GrownFrom

theorem refl (fresh : base.graph.Fresh) : base.GrownFrom base :=
  ⟨rfl, .refl fresh⟩

theorem withGraph (grown : base.GrownFrom blueprint) {graph : Graph}
    (graphGrown : base.graph.GrownFrom graph) : base.GrownFrom { blueprint with graph } :=
  ⟨by rw [grown.rest], graphGrown⟩

end GrownFrom

end Blueprint

namespace Growth

variable {γ : Type}

/-- A trail whose blueprint has grown and whose cursor is no newer than the graph. -/
structure Trail.GrownFrom (base : Blueprint) (trail : Trail γ) : Prop where
  blueprint : base.GrownFrom trail.blueprint
  cursor_lt : trail.cursor.key < trail.blueprint.graph.nextKey

theorem Trail.GrownFrom.letter {base : Blueprint} {limits : Limits} {trail next : Trail γ}
    {character : Char} {position : Nat} (grown : trail.GrownFrom base)
    (read : LetterRead limits trail character position next) : next.GrownFrom base := by
  cases read with
  | mass distance point draws template =>
    exact ⟨grown.blueprint.withGraph (grown.blueprint.graph.addMass point.x point.y),
      Nat.lt_succ_of_lt grown.cursor_lt⟩
  | spring distance target draws noMass template candidate =>
    have targetOld := grown.blueprint.graph.fresh.masses_lt target candidate.mem
    exact ⟨grown.blueprint.withGraph
        (grown.blueprint.graph.addSpring grown.cursor_lt targetOld candidate.reachable),
      Nat.lt_succ_of_lt targetOld⟩
  | stay distance noMass template => exact grown
  | problem noMass noSpring => exact ⟨grown.blueprint, grown.cursor_lt⟩

/-- Pruning visits the network masses that were there when it began, all of them new. -/
theorem prune_grownFrom {base graph : Graph} (grown : base.GrownFrom graph)
    (baseFresh : base.Fresh) (networkless : ∀ mass ∈ base.masses, mass.kind ≠ .network) :
    base.GrownFrom (prune graph).1 := by
  apply stepwise_invariant (base.GrownFrom ·) grown
  intro before mass after visited beforeGrown pruned
  rcases pruneMass_cases pruned with ⟨spring, only, removed⟩ | ⟨-, rfl⟩
  · apply beforeGrown.removeSpring baseFresh (grown.network_new networkless visited) _ removed
    rw [only]
    exact List.mem_singleton_self spring
  · exact beforeGrown

theorem dropUnconnected_grownFrom {base blueprint : Blueprint} (grown : base.GrownFrom blueprint)
    (networkless : ∀ mass ∈ base.graph.masses, mass.kind ≠ .network) :
    base.GrownFrom (dropUnconnected blueprint).value := by
  unfold dropUnconnected
  split
  · exact grown
  · exact grown.withGraph (grown.graph.removeUnconnected networkless)

variable [Draws γ]

theorem addRandomMasses_grownFrom {base blueprint : Blueprint} (grown : base.GrownFrom blueprint)
    (cursor : Mass) (draws : γ) :
    base.GrownFrom (addRandomMasses blueprint cursor draws).value.2.1 :=
  addRandomMasses_invariant blueprint cursor draws (base.GrownFrom ·) grown
    fun _ point before => before.withGraph (before.graph.addMass point.x point.y)

/-- The ends of random springs are masses that were there when the first of them was drawn. -/
theorem addRandomSprings_grownFrom {base blueprint : Blueprint} (grown : base.GrownFrom blueprint)
    (limits : Limits) (draws : γ) :
    base.GrownFrom (addRandomSprings blueprint limits draws).value.2.1 := by
  have joined := addRandomSprings_invariant blueprint limits draws
    (fun graph => base.graph.GrownFrom graph ∧ blueprint.graph.nextKey ≤ graph.nextKey)
    ⟨grown.graph, Nat.le_refl _⟩
  rw [(addRandomSprings_edited blueprint limits draws).rest]
  apply grown.withGraph
  refine (joined ?_).1
  rintro graph source sourceMember destination destinationMember ⟨graphGrown, later⟩ -
  obtain ⟨sourceInside, -⟩ := mem_springPool sourceMember
  obtain ⟨destinationInside, reachable⟩ := mem_springPool destinationMember
  have sourceOld := grown.graph.fresh.masses_lt source sourceInside
  have destinationOld := grown.graph.fresh.masses_lt destination destinationInside
  exact ⟨graphGrown.addSpring (Nat.lt_of_lt_of_le sourceOld later)
    (Nat.lt_of_lt_of_le destinationOld later) reachable, Nat.le_succ_of_le later⟩

/-- A growth from an input leaves a blueprint that has grown from what was kept, whether it comes to
its end or not. -/
theorem develop_grownFrom (limits : Limits) {blueprint : Blueprint} (fresh : blueprint.Fresh)
    (construction : Option (List Char)) (draws : γ) {first : Mass} {others : List Mass}
    (inputs : startInputs blueprint = first :: others) :
    { blueprint with graph := blueprint.graph.removeNetwork }.GrownFrom
      (develop limits blueprint construction draws).blueprint := by
  have networkless : ∀ mass ∈ blueprint.graph.removeNetwork.masses, mass.kind ≠ .network :=
    fun mass member => (Graph.mem_removeNetwork_masses.mp member).2
  have clearedFresh := fresh.graph.removeNetwork
  have firstOld : first.key < blueprint.graph.nextKey := by
    have member : first ∈ startInputs blueprint := inputs ▸ List.mem_cons_self
    unfold startInputs at member
    split at member
    · exact fresh.graph.masses_lt first (Graph.mem_inputs.mp member).1
    · exact fresh.inputs_lt first member
  have invariant : Invariant limits
      (Trail.GrownFrom (γ := γ) { blueprint with graph := blueprint.graph.removeNetwork })
      (Blueprint.GrownFrom { blueprint with graph := blueprint.graph.removeNetwork }) :=
    { letter := fun _ _ _ _ before letter => before.letter letter
      read := fun _ read => read.blueprint
      randomMasses := fun _ cursor draws grown => addRandomMasses_grownFrom grown cursor draws
      randomSprings := fun _ draws grown => addRandomSprings_grownFrom grown limits draws
      prune := fun _ grown =>
        grown.withGraph (prune_grownFrom grown.graph clearedFresh networkless)
      dropUnconnected := fun _ grown => dropUnconnected_grownFrom grown networkless }
  exact invariant.develop inputs construction draws ⟨.refl clearedFresh, firstOld⟩

/-- Growth never touches the arm. Without an input nothing changes at all. Otherwise the masses
outside the network stay in their order, and only network masses made by this growth come behind
them; the springs that do not touch the network stay in their order, and only springs made by this
growth come behind them; and of the blueprint nothing but its graph changes. Another growth can
follow. -/
theorem develop_frame (limits : Limits) {blueprint : Blueprint} (fresh : blueprint.Fresh)
    (construction : Option (List Char)) (draws : γ) :
    let final := (develop limits blueprint construction draws).blueprint
    (startInputs blueprint = [] → final = blueprint) ∧
      (startInputs blueprint ≠ [] → ∃ created added,
        final.graph.masses = blueprint.graph.masses.filter (·.kind != .network) ++ created ∧
        (∀ mass ∈ created, mass.kind = .network ∧ blueprint.graph.nextKey ≤ mass.key) ∧
        final.graph.springs = blueprint.graph.springs.filter (!·.touchesNetwork) ++ added ∧
        (∀ spring ∈ added, blueprint.graph.nextKey ≤ spring.key)) ∧
      final = { blueprint with graph := final.graph } ∧ final.Fresh := by
  intro final
  cases inputs : startInputs blueprint with
  | nil =>
    have unchanged : final = blueprint := by
      simp only [final, develop, inputs]
    exact ⟨fun _ => unchanged, fun some => absurd rfl some, by rw [unchanged],
      by rw [unchanged]; exact fresh⟩
  | cons first others =>
    have grown := develop_grownFrom limits fresh construction draws inputs
    obtain ⟨created, masses, createdNew⟩ := grown.graph.masses_eq
    obtain ⟨added, springs, addedNew⟩ := grown.graph.springs_eq
    have rest : final = { blueprint with graph := final.graph } := grown.rest
    refine ⟨fun none => (List.cons_ne_nil _ _ none).elim,
      fun _ => ⟨created, added, masses, createdNew, springs,
        fun spring member => (addedNew spring member).2⟩, rest, grown.graph.fresh, ?_⟩
    intro input member
    rw [rest] at member
    exact Nat.lt_of_lt_of_le (fresh.inputs_lt input member) grown.graph.nextKey_le

/-- The sample is grown twice. The second growth finds a network mass with two springs, and takes
them out before it adds its own. -/
theorem develop_frame_sample :
    ∃ blueprint problems, (Blueprint.read (some sampleDescription)).value =
        .ok (blueprint, problems) ∧
      let grown := (develop {} blueprint (some sampleSeed) (SeededDraws.ofSeed 5)).blueprint
      let final := (develop {} grown (some sampleSeed) (SeededDraws.ofSeed 7)).blueprint
      blueprint.Fresh ∧ grown.Fresh ∧ startInputs grown ≠ [] ∧
        grown.graph.networkMasses.length = 1 ∧
        (grown.graph.springs.filter (·.touchesNetwork)).length = 2 ∧
        ∃ created added,
          final.graph.masses = grown.graph.masses.filter (·.kind != .network) ++ created ∧
          (∀ mass ∈ created, mass.kind = .network ∧ grown.graph.nextKey ≤ mass.key) ∧
          final.graph.springs = grown.graph.springs.filter (!·.touchesNetwork) ++ added ∧
          (∀ spring ∈ added, grown.graph.nextKey ≤ spring.key) := by
  obtain ⟨blueprint, problems, read, checked⟩ := Blueprint.read_checked (some sampleDescription)
    (fun blueprint =>
      let grown := (develop {} blueprint (some sampleSeed) (SeededDraws.ofSeed 5)).blueprint
      !(startInputs grown).isEmpty && grown.graph.networkMasses.length == 1 &&
        (grown.graph.springs.filter (·.touchesNetwork)).length == 2)
    (by decide +kernel)
  simp only [Bool.and_eq_true, Bool.not_eq_true', List.isEmpty_eq_false_iff, beq_iff_eq] at checked
  obtain ⟨⟨inputs, masses⟩, springs⟩ := checked
  have fresh := (Blueprint.read_described read).fresh
  obtain ⟨-, -, -, grownFresh⟩ :=
    develop_frame {} fresh (some sampleSeed) (SeededDraws.ofSeed 5)
  obtain ⟨-, framed, -, -⟩ :=
    develop_frame {} grownFresh (some sampleSeed) (SeededDraws.ofSeed 7)
  exact ⟨blueprint, problems, read, fresh, grownFresh, inputs, masses, springs, framed inputs⟩

end Growth

end SpringArm
