import SpringArm.Proofs.Graph.Renaming
import SpringArm.Proofs.Growth.Moves

/-!
# Growth does not depend on keys

Every phase of a growth commutes with a renaming of keys: grown from a renamed blueprint, the same
construction text and the same draws give the renamed blueprint, the same problems and the same
notices. Choices are made by position in lists that are renamed as a whole, so the same ones are
made. -/

namespace SpringArm

/-- A blueprint with the keys of its graph renamed. -/
def Blueprint.rename (names : Renaming) (blueprint : Blueprint) : Blueprint :=
  { blueprint with graph := blueprint.graph.rename names }

namespace Blueprint

variable (names : Renaming) (blueprint : Blueprint)

@[simp] theorem rename_graph :
    (blueprint.rename names).graph = blueprint.graph.rename names := rfl

@[simp] theorem rename_shoulder : (blueprint.rename names).shoulder = blueprint.shoulder := rfl

@[simp] theorem rename_hand : (blueprint.rename names).hand = blueprint.hand := rfl

@[simp] theorem rename_massTemplates :
    (blueprint.rename names).massTemplates = blueprint.massTemplates := rfl

@[simp] theorem rename_springTemplates :
    (blueprint.rename names).springTemplates = blueprint.springTemplates := rfl

@[simp] theorem rename_randomMasses :
    (blueprint.rename names).randomMasses = blueprint.randomMasses := rfl

@[simp] theorem rename_randomSprings :
    (blueprint.rename names).randomSprings = blueprint.randomSprings := rfl

@[simp] theorem rename_switches : (blueprint.rename names).switches = blueprint.switches := rfl

@[simp] theorem rename_window : (blueprint.rename names).window = blueprint.window := rfl

/-- Another graph, renamed, in a renamed blueprint. -/
theorem rename_withGraph (graph : Graph) :
    { blueprint.rename names with graph := graph.rename names } =
      ({ blueprint with graph } : Blueprint).rename names := rfl

end Blueprint

namespace Draws

variable {γ : Type} [Draws γ]

/-- What is chosen of a list seen in another way is what is chosen of the list, seen so. -/
theorem choose_map {α β : Type} (view : α → β) {items : List α} (nonempty : 0 < items.length)
    (viewNonempty : 0 < (items.map view).length) (source : γ) :
    choose (items.map view) viewNonempty source =
      (view (choose items nonempty source).1, (choose items nonempty source).2) := by
  -- The two positions have different types until the sizes are known to be equal.
  have below_eq : ∀ size (positive : 0 < size), size = items.length →
      (below size positive source).1.val = (below items.length nonempty source).1.val ∧
        (below size positive source).2 = (below items.length nonempty source).2 := by
    rintro size positive rfl
    exact ⟨rfl, rfl⟩
  obtain ⟨position, rest⟩ := below_eq _ viewNonempty (List.length_map view)
  simp only [choose, Fin.getElem_fin, List.getElem_map, position, rest]

end Draws

namespace Growth

variable {γ : Type} (names : Renaming)

/-- A trail with all keys renamed. -/
def Trail.rename (trail : Trail γ) : Trail γ :=
  { trail with
    blueprint := trail.blueprint.rename names
    cursor := trail.cursor.rename names }

/-- What a growth leaves behind, with all keys renamed. -/
def Grown.rename (grown : Grown γ) : Grown γ :=
  { grown with blueprint := grown.blueprint.rename names }

section Choices

theorem rename_springCandidates (blueprint : Blueprint) (limits : Limits) (cursor : Mass)
    (distance : Interval) :
    springCandidates (blueprint.rename names) limits (cursor.rename names) distance =
      (springCandidates blueprint limits cursor distance).map (List.map (Mass.rename names)) := by
  simp only [springCandidates, Blueprint.rename_graph, Blueprint.rename_switches,
    Graph.rename_reachable]
  cases blueprint.graph.reachable
      ⟨distance, blueprint.switches.excludeSpringCrossings, limits.endpointTolerance⟩ cursor with
  | error fault => rfl
  | ok reachable =>
    simp only [Except.map, bind, Except.bind, pure, Except.pure, List.filter_map,
      Function.comp_def, Graph.rename_hasSpringBetween]

theorem rename_acceptsEnds (graph : Graph) (source destination : Mass) :
    acceptsEnds (graph.rename names) (source.rename names) (destination.rename names) =
      acceptsEnds graph source destination := by
  simp only [acceptsEnds, Mass.rename_same, Mass.rename_kind, Graph.rename_hasSpringBetween]

theorem rename_springPool (graph : Graph) :
    springPool (graph.rename names) = (springPool graph).map (Mass.rename names) := by
  simp only [springPool, Graph.rename_networkMasses, Graph.rename_inputs, List.map_append]

variable [Draws γ]

/-- Where a mass goes depends on the place of the cursor only. -/
theorem rename_place (blueprint : Blueprint) (cursor : Mass) (distanceX distanceY : Interval)
    (draws : γ) :
    place (blueprint.rename names) (cursor.rename names) distanceX distanceY draws =
      place blueprint cursor distanceX distanceY draws := rfl

theorem rename_drawEnds {inputs pool : List Mass} (nonempty : 0 < pool.length)
    (viewNonempty : 0 < (pool.map (Mass.rename names)).length) (inputChance : Float) (draws : γ) :
    drawEnds (inputs.map (Mass.rename names)) (pool.map (Mass.rename names)) viewNonempty
        inputChance draws =
      let drawn := drawEnds inputs pool nonempty inputChance draws
      ((drawn.1.1.rename names, drawn.1.2.rename names), drawn.2) := by
  simp only [drawEnds, Draws.choose_map (Mass.rename names) nonempty, List.length_map,
    Mass.rename_kind]
  split
  next someInput =>
    simp only [Draws.choose_map (Mass.rename names) someInput]
    split
    · split <;> rfl
    · rfl
  · rfl

end Choices

section Removals

theorem rename_pruneMass (graph : Graph) (mass : Mass) :
    pruneMass (graph.rename names) (mass.rename names) =
      (pruneMass graph mass).map (Graph.rename names) := by
  simp only [pruneMass, Graph.rename_springsOf]
  cases graph.springsOf mass with
  | nil => rfl
  | cons spring rest =>
    cases rest with
    | nil => exact Graph.rename_removeSpring names spring
    | cons second others => rfl

theorem rename_prune (graph : Graph) :
    prune (graph.rename names) = ((prune graph).1.rename names, (prune graph).2) := by
  rw [prune, Graph.rename_networkMasses]
  exact stepwise_map (Graph.rename names) (Mass.rename names) (fun _ => True)
    (fun _ _ _ _ _ => trivial) (fun state mass _ => rename_pruneMass names state mass) graph trivial
    graph.networkMasses

theorem rename_dropUnconnected (blueprint : Blueprint) :
    dropUnconnected (blueprint.rename names) =
      { dropUnconnected blueprint with
        value := (dropUnconnected blueprint).value.rename names } := by
  simp only [dropUnconnected, Blueprint.rename_switches, Blueprint.rename_graph,
    Graph.rename_removeUnconnected]
  split <;> rfl

end Removals

section Additions

variable [Draws γ] {blueprint : Blueprint} (later : names.start ≤ blueprint.graph.nextKey)

include later

theorem rename_addNetworkMass (point : Geometry.Point Float) :
    addNetworkMass (blueprint.rename names) point =
      ((addNetworkMass blueprint point).1.rename names,
        (addNetworkMass blueprint point).2.rename names) := by
  simp only [addNetworkMass, Blueprint.rename_graph, Graph.rename_addMass names later,
    Blueprint.rename_withGraph]

theorem rename_createMass (cursor : Mass) (distance : Interval) (draws : γ) :
    createMass (blueprint.rename names) (cursor.rename names) distance draws =
      ((createMass blueprint cursor distance draws).1.rename names,
        (createMass blueprint cursor distance draws).2.1.rename names,
        (createMass blueprint cursor distance draws).2.2) := by
  simp only [createMass, rename_place, rename_addNetworkMass names later]

theorem rename_createSpring (limits : Limits) (cursor : Mass) (distance : Interval) (draws : γ) :
    createSpring (blueprint.rename names) limits (cursor.rename names) distance draws =
      (createSpring blueprint limits cursor distance draws).map fun (reached, grown, rest) =>
        (reached.rename names, grown.rename names, rest) := by
  simp only [createSpring, rename_springCandidates]
  cases springCandidates blueprint limits cursor distance with
  | error fault => rfl
  | ok candidates =>
    simp only [Except.map, bind, Except.bind, List.length_map]
    split
    next nonempty =>
      simp only [Draws.choose_map (Mass.rename names) nonempty, pure, Except.pure,
        Blueprint.rename_graph, Graph.rename_addSpring names later, Blueprint.rename_withGraph]
    · rfl

theorem rename_addRandomMass (cursor shoulder hand : Mass) (draws : γ) :
    addRandomMass (cursor.rename names) shoulder hand (blueprint.rename names) draws =
      ((addRandomMass cursor shoulder hand blueprint draws).1.rename names,
        (addRandomMass cursor shoulder hand blueprint draws).2) := by
  simp only [addRandomMass, Blueprint.rename_window, rename_place,
    rename_addNetworkMass names later]
  rfl

theorem rename_repeatRandomMass (cursor shoulder hand : Mass) (count : Nat) (draws : γ) :
    repeatRandomMass (cursor.rename names) shoulder hand count (blueprint.rename names) draws =
      ((repeatRandomMass cursor shoulder hand count blueprint draws).1.rename names,
        (repeatRandomMass cursor shoulder hand count blueprint draws).2) := by
  induction count generalizing blueprint draws with
  | zero => rfl
  | succ count inductionHypothesis =>
    simp only [repeatRandomMass, rename_addRandomMass names later]
    exact inductionHypothesis (Nat.le_succ_of_le later) _

theorem rename_addRandomMasses (cursor : Mass) (draws : γ) :
    addRandomMasses (blueprint.rename names) (cursor.rename names) draws =
      let added := addRandomMasses blueprint cursor draws
      { added with value := (added.value.1, added.value.2.1.rename names, added.value.2.2) } := by
  by_cases wanted : blueprint.randomMasses ≤ 0
  · simp only [addRandomMasses, Blueprint.rename_randomMasses, wanted, if_true]
  · simp only [addRandomMasses, Blueprint.rename_randomMasses, wanted, if_false,
      Blueprint.rename_shoulder, Blueprint.rename_hand]
    split
    · simp only [rename_repeatRandomMass names later]
    · rfl

theorem addRandomMasses_later (cursor : Mass) (draws : γ) :
    names.start ≤ (addRandomMasses blueprint cursor draws).value.2.1.graph.nextKey :=
  addRandomMasses_invariant blueprint cursor draws
    (fun grown => names.start ≤ grown.graph.nextKey) later
    fun _ _ before => Nat.le_succ_of_le before

end Additions

variable [Draws γ]

theorem rename_attemptSprings {inputs pool : List Mass} (nonempty : 0 < pool.length)
    (viewNonempty : 0 < (pool.map (Mass.rename names)).length) (inputChance : Float)
    (attempts wanted : Nat) {graph : Graph} (later : names.start ≤ graph.nextKey) (draws : γ) :
    attemptSprings (inputs.map (Mass.rename names)) (pool.map (Mass.rename names)) viewNonempty
        inputChance attempts wanted (graph.rename names) draws =
      let added := attemptSprings inputs pool nonempty inputChance attempts wanted graph draws
      (added.1, added.2.1.rename names, added.2.2) := by
  induction attempts generalizing wanted graph draws with
  | zero => rfl
  | succ attempts inductionHypothesis =>
    cases wanted with
    | zero => rfl
    | succ wanted =>
      simp only [attemptSprings, rename_drawEnds names nonempty, rename_acceptsEnds,
        Graph.rename_addSpring names later]
      split
      · have grownLater : ∀ source destination,
            names.start ≤ (graph.addSpring source destination).2.nextKey :=
          fun _ _ => Nat.le_succ_of_le later
        simp only [inductionHypothesis wanted (grownLater _ _)]
      · exact inductionHypothesis (wanted + 1) later _

theorem rename_addRandomSprings {blueprint : Blueprint}
    (later : names.start ≤ blueprint.graph.nextKey) (limits : Limits) (draws : γ) :
    addRandomSprings (blueprint.rename names) limits draws =
      let added := addRandomSprings blueprint limits draws
      { added with value := (added.value.1, added.value.2.1.rename names, added.value.2.2) } := by
  simp only [addRandomSprings, Blueprint.rename_randomSprings, Blueprint.rename_graph,
    rename_springPool, Graph.rename_networkMasses, Graph.rename_inputs, List.isEmpty_map]
  split
  · rfl
  · split
    next network =>
      simp only [rename_attemptSprings names (springPool_nonempty network) _ _ _ _ later]
      rfl
    · rfl

theorem rename_readLetter {trail : Trail γ} (later : names.start ≤ trail.blueprint.graph.nextKey)
    (limits : Limits) (letter : Char × Nat) :
    readLetter limits (trail.rename names) letter =
      (readLetter limits trail letter).map (Trail.rename names) := by
  simp only [readLetter, Trail.rename, Blueprint.rename_massTemplates,
    Blueprint.rename_springTemplates]
  cases trail.blueprint.massTemplates.find? letter.1 with
  | some distance =>
    simp only [rename_createMass names later]
    rfl
  | none =>
    cases trail.blueprint.springTemplates.find? letter.1 with
    | none => rfl
    | some distance =>
      simp only [rename_createSpring names later]
      cases createSpring trail.blueprint limits trail.cursor distance trail.draws <;> rfl

omit [Draws γ] in
/-- A letter gives a key out or leaves all keys. -/
theorem LetterRead.nextKey_le {limits : Limits} {trail next : Trail γ} {character : Char}
    {position : Nat} (read : LetterRead limits trail character position next) :
    trail.blueprint.graph.nextKey ≤ next.blueprint.graph.nextKey := by
  cases read with
  | mass distance point draws template => exact Nat.le_succ _
  | spring distance target draws noMass template candidate => exact Nat.le_succ _
  | stay distance noMass template => exact Nat.le_refl _
  | problem noMass noSpring => exact Nat.le_refl _

section Phases

variable {blueprint : Blueprint} (later : names.start ≤ blueprint.graph.nextKey)

include later

theorem rename_readConstruction (limits : Limits) (cursor : Mass) (construction : List Char)
    (draws : γ) :
    readConstruction limits (blueprint.rename names) (cursor.rename names) construction draws =
      ((readConstruction limits blueprint cursor construction draws).1.rename names,
        (readConstruction limits blueprint cursor construction draws).2) := by
  have mapped := stepwise_map (Trail.rename names) id
    (fun trail : Trail γ => names.start ≤ trail.blueprint.graph.nextKey)
    (fun _ _ _ before read => Nat.le_trans before (readLetter_cases read).nextKey_le)
    (fun _ letter before => rename_readLetter names before limits letter)
    ⟨blueprint, cursor, draws, []⟩ later construction.zipIdx
  rw [List.map_id] at mapped
  exact mapped

theorem readConstruction_later (limits : Limits) (cursor : Mass) (construction : List Char)
    (draws : γ) :
    names.start ≤
      (readConstruction limits blueprint cursor construction draws).1.blueprint.graph.nextKey :=
  readConstruction_invariant limits blueprint cursor construction draws
    (fun trail => names.start ≤ trail.blueprint.graph.nextKey) later
    fun _ _ _ _ before read => Nat.le_trans before read.nextKey_le

omit later in
theorem rename_finish {trail : Trail γ} (later : names.start ≤ trail.blueprint.graph.nextKey)
    (limits : Limits) :
    finish limits (trail.rename names) = (finish limits trail).rename names := by
  have massesLater := addRandomMasses_later names later trail.cursor trail.draws
  simp only [finish, Trail.rename, rename_addRandomMasses names later,
    rename_addRandomSprings names massesLater, Blueprint.rename_graph, rename_prune]
  generalize addRandomMasses trail.blueprint trail.cursor trail.draws = withMasses
  generalize addRandomSprings withMasses.value.2.1 limits withMasses.value.2.2 = withSprings
  obtain ⟨pruned, fault⟩ := prune withSprings.value.2.1.graph
  cases fault with
  | some fault => rfl
  | none =>
    simp only [Blueprint.rename_withGraph, rename_dropUnconnected]
    generalize dropUnconnected { withSprings.value.2.1 with graph := pruned } = kept
    -- The last notice counts masses and springs, of which there are as many under other names.
    simp only [Blueprint.rename_graph, Graph.rename, List.length_map]
    rfl

/-- Growing does not look at keys. -/
theorem rename_develop (inputs : startInputs (blueprint.rename names) =
      (startInputs blueprint).map (Mass.rename names))
    (limits : Limits) (construction : Option (List Char)) (draws : γ) :
    develop limits (blueprint.rename names) construction draws =
      (develop limits blueprint construction draws).rename names := by
  cases starts : startInputs blueprint with
  | nil =>
    rw [starts] at inputs
    simp only [develop, inputs, starts, List.map_nil]
    rfl
  | cons first others =>
    rw [starts] at inputs
    simp only [develop, inputs, starts, List.map_cons, Blueprint.rename_graph,
      Graph.rename_removeNetwork, Blueprint.rename_withGraph]
    have baseLater : names.start ≤
        ({ blueprint with graph := blueprint.graph.removeNetwork } : Blueprint).graph.nextKey :=
      later
    generalize ({ blueprint with graph := blueprint.graph.removeNetwork } : Blueprint) = base
      at baseLater
    rw [rename_readConstruction names baseLater]
    have trailLater :=
      readConstruction_later names baseLater limits first (construction.getD []) draws
    generalize readConstruction limits base first (construction.getD []) draws = read at trailLater
    obtain ⟨trail, fault⟩ := read
    cases fault with
    | some fault => rfl
    | none => exact rename_finish names trailLater limits

end Phases

end Growth

end SpringArm
