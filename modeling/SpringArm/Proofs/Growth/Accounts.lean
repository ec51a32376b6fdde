import SpringArm.Proofs.Build.Stages
import SpringArm.Proofs.Growth.Masses

/-!
# Accounts of a growth

Every character of a construction text is accounted for: it makes a mass, or asks for a spring, or
is a problem. The masses that a growth makes are one for each letter with a mass template, in the
order of the text, and then the random ones. Whether masses without a spring are shown is asked at
the very end only, so two growths that differ in nothing else make the same masses and the same
springs. -/

namespace SpringArm

namespace Blueprint

/-- The blueprint that shows its masses without a spring, or the one that does not. -/
def showing (shown : Bool) (blueprint : Blueprint) : Blueprint :=
  { blueprint with switches := { blueprint.switches with showNotConnectedMasses := shown } }

variable {shown : Bool} {blueprint : Blueprint}

@[simp] theorem showing_massTemplates :
    (blueprint.showing shown).massTemplates = blueprint.massTemplates := rfl

@[simp] theorem showing_springTemplates :
    (blueprint.showing shown).springTemplates = blueprint.springTemplates := rfl

@[simp] theorem showing_shoulder : (blueprint.showing shown).shoulder = blueprint.shoulder := rfl

@[simp] theorem showing_hand : (blueprint.showing shown).hand = blueprint.hand := rfl

@[simp] theorem showing_randomMasses :
    (blueprint.showing shown).randomMasses = blueprint.randomMasses := rfl

@[simp] theorem showing_randomSprings :
    (blueprint.showing shown).randomSprings = blueprint.randomSprings := rfl

end Blueprint

/-- The network masses that are left when unconnected ones are dropped are those at which a spring
ends. -/
theorem Graph.removeUnconnected_networkMasses (graph : Graph) :
    graph.removeUnconnected.2.networkMasses =
      graph.networkMasses.filter fun mass => graph.springs.any (·.touches mass) := by
  simp only [Graph.removeUnconnected, networkMasses, massesOfKind, List.filter_filter]
  apply List.filter_congr
  intro mass _
  cases network : mass.kind == .network with
  | false => rw [Bool.false_and, Bool.and_false]
  | true =>
    have connected : (!(graph.springsOf mass).isEmpty) = graph.springs.any (·.touches mass) := by
      rw [Bool.eq_iff_iff]
      simp [springsOf]
    rw [Bool.true_and, Bool.and_true, isUnconnected, network, Bool.true_and, connected]

namespace Growth

variable {γ : Type}

/-- A trail through the blueprint that shows its masses without a spring, or through the other
one. -/
def Trail.showing (shown : Bool) (trail : Trail γ) : Trail γ :=
  { trail with blueprint := trail.blueprint.showing shown }

variable [Draws γ]

section Showing

variable (shown : Bool)

theorem showing_createSpring (blueprint : Blueprint) (limits : Limits) (cursor : Mass)
    (distance : Interval) (draws : γ) :
    createSpring (blueprint.showing shown) limits cursor distance draws =
      (createSpring blueprint limits cursor distance draws).map fun (reached, grown, rest) =>
        (reached, grown.showing shown, rest) := by
  have candidates : springCandidates (blueprint.showing shown) limits cursor distance =
      springCandidates blueprint limits cursor distance := rfl
  simp only [createSpring, candidates]
  cases springCandidates blueprint limits cursor distance with
  | error fault => rfl
  | ok candidates =>
    simp only [Except.map, bind, Except.bind]
    split <;> rfl

/-- A letter does not ask what will be shown. -/
theorem showing_readLetter (limits : Limits) (trail : Trail γ) (letter : Char × Nat) :
    readLetter limits (trail.showing shown) letter =
      (readLetter limits trail letter).map (Trail.showing shown) := by
  simp only [readLetter, Trail.showing, Blueprint.showing_massTemplates,
    Blueprint.showing_springTemplates]
  cases trail.blueprint.massTemplates.find? letter.1 with
  | some distance => rfl
  | none =>
    cases trail.blueprint.springTemplates.find? letter.1 with
    | none => rfl
    | some distance =>
      simp only [showing_createSpring]
      cases createSpring trail.blueprint limits trail.cursor distance trail.draws <;> rfl

theorem showing_readConstruction (limits : Limits) (blueprint : Blueprint) (cursor : Mass)
    (construction : List Char) (draws : γ) :
    readConstruction limits (blueprint.showing shown) cursor construction draws =
      ((readConstruction limits blueprint cursor construction draws).1.showing shown,
        (readConstruction limits blueprint cursor construction draws).2) := by
  have mapped := stepwise_map (Trail.showing shown) id (fun _ : Trail γ => True)
    (fun _ _ _ _ _ => trivial) (fun trail letter _ => showing_readLetter shown limits trail letter)
    ⟨blueprint, cursor, draws, []⟩ trivial construction.zipIdx
  rw [List.map_id] at mapped
  exact mapped

theorem showing_repeatRandomMass (cursor shoulder hand : Mass) (count : Nat)
    (blueprint : Blueprint) (draws : γ) :
    repeatRandomMass cursor shoulder hand count (blueprint.showing shown) draws =
      ((repeatRandomMass cursor shoulder hand count blueprint draws).1.showing shown,
        (repeatRandomMass cursor shoulder hand count blueprint draws).2) := by
  induction count generalizing blueprint draws with
  | zero => rfl
  | succ count inductionHypothesis =>
    exact inductionHypothesis (addRandomMass cursor shoulder hand blueprint draws).1
      (addRandomMass cursor shoulder hand blueprint draws).2

theorem showing_addRandomMasses (blueprint : Blueprint) (cursor : Mass) (draws : γ) :
    addRandomMasses (blueprint.showing shown) cursor draws =
      let added := addRandomMasses blueprint cursor draws
      { added with value := (added.value.1, added.value.2.1.showing shown, added.value.2.2) } := by
  by_cases wanted : blueprint.randomMasses ≤ 0
  · simp only [addRandomMasses, Blueprint.showing_randomMasses, wanted, if_true]
  · simp only [addRandomMasses, Blueprint.showing_randomMasses, wanted, if_false,
      Blueprint.showing_shoulder, Blueprint.showing_hand]
    split
    · simp only [showing_repeatRandomMass]
    · rfl

theorem showing_addRandomSprings (blueprint : Blueprint) (limits : Limits) (draws : γ) :
    addRandomSprings (blueprint.showing shown) limits draws =
      let added := addRandomSprings blueprint limits draws
      { added with value := (added.value.1, added.value.2.1.showing shown, added.value.2.2) } := by
  by_cases none : blueprint.randomSprings ≤ 0
  · simp only [addRandomSprings, Blueprint.showing_randomSprings, none, if_true]
  · by_cases network : blueprint.graph.networkMasses.isEmpty = false
    · have shownNetwork : (blueprint.showing shown).graph.networkMasses.isEmpty = false := network
      simp only [addRandomSprings, Blueprint.showing_randomSprings, none, if_false,
        dif_pos network, dif_pos shownNetwork]
      rfl
    · have shownNetwork : ¬ (blueprint.showing shown).graph.networkMasses.isEmpty = false := network
      simp only [addRandomSprings, Blueprint.showing_randomSprings, none, if_false,
        dif_neg network, dif_neg shownNetwork]

/-- Random masses and springs do not depend on what will be shown. -/
theorem showing_withRandom (limits : Limits) (trail : Trail γ) :
    withRandom limits (trail.showing shown) = (withRandom limits trail).showing shown := by
  simp only [withRandom, Trail.showing, showing_addRandomMasses, showing_addRandomSprings]

end Showing

/-- Only what is left of the masses depends on what is shown. -/
theorem showing_dropUnconnected (shown : Bool) (blueprint : Blueprint) :
    (dropUnconnected (blueprint.showing shown)).value.graph =
      if shown then blueprint.graph else blueprint.graph.removeUnconnected.2 := by
  cases shown <;> rfl

/-- A growth whose construction text is read to its end leaves the pruned graph, without its
unconnected masses unless they are shown. -/
theorem develop_of_read (limits : Limits) {blueprint : Blueprint} {first : Mass}
    {others : List Mass} (inputs : startInputs blueprint = first :: others)
    {construction : Option (List Char)} {draws : γ} {trail : Trail γ} {pruned : Graph}
    (read : readConstruction limits { blueprint with graph := blueprint.graph.removeNetwork } first
      (construction.getD []) draws = (trail, none))
    (prunes : prune (withRandom limits trail).graph = (pruned, none)) :
    let grown := develop limits blueprint construction draws
    grown.outcome = .ok trail.problems ∧
      grown.blueprint =
        (dropUnconnected { withRandom limits trail with graph := pruned }).value := by
  intro grown
  have concluded : grown = finish limits trail := by
    simp only [grown, develop_of_input limits inputs, read]
    rfl
  rw [concluded, finish_blueprint, prunes]
  exact ⟨finish_outcome limits trail, rfl⟩

/-- Where a construction text is read to its end, what is shown decides on nothing but the masses
that are left. -/
theorem showing_develop (limits : Limits) {blueprint : Blueprint} {first : Mass}
    {others : List Mass} (inputs : startInputs blueprint = first :: others)
    {construction : Option (List Char)} {draws : γ} {trail : Trail γ} {pruned : Graph}
    (read : readConstruction limits { blueprint with graph := blueprint.graph.removeNetwork } first
      (construction.getD []) draws = (trail, none))
    (prunes : prune (withRandom limits trail).graph = (pruned, none)) (shown : Bool) :
    let grown := develop limits (blueprint.showing shown) construction draws
    grown.outcome = .ok trail.problems ∧ grown.blueprint.graph.springs = pruned.springs ∧
      grown.blueprint.graph.networkMasses =
        if shown then pruned.networkMasses
        else pruned.networkMasses.filter fun mass => pruned.springs.any (·.touches mass) := by
  intro grown
  let cleared := { blueprint with graph := blueprint.graph.removeNetwork }
  have shownInputs : startInputs (blueprint.showing shown) = first :: others := inputs
  have shownRead : readConstruction limits (cleared.showing shown) first (construction.getD [])
      draws = (trail.showing shown, none) := by
    rw [showing_readConstruction, read]
  have shownPrunes : prune (withRandom limits (trail.showing shown)).graph = (pruned, none) := by
    rw [showing_withRandom]
    exact prunes
  obtain ⟨outcome, final⟩ := develop_of_read limits shownInputs shownRead shownPrunes
  have graph : grown.blueprint.graph = if shown then pruned else pruned.removeUnconnected.2 := by
    rw [final, showing_withRandom]
    exact showing_dropUnconnected shown { withRandom limits trail with graph := pruned }
  refine ⟨outcome, ?_, ?_⟩
  · rw [graph]
    cases shown <;> rfl
  · rw [graph]
    cases shown with
    | false => exact pruned.removeUnconnected_networkMasses
    | true => rfl

/-- Where a construction text is read to its end, the masses with which pruning begins are those
that were kept, one for each letter with a mass template, and the random ones. -/
theorem withRandom_made {limits : Limits} {blueprint : Blueprint} {first : Mass}
    {construction : List Char} {draws : γ} {trail : Trail γ}
    (read : readConstruction limits { blueprint with graph := blueprint.graph.removeNetwork } first
      construction draws = (trail, none)) :
    let cleared := { blueprint with graph := blueprint.graph.removeNetwork }
    ∃ lettered random,
      (withRandom limits trail).graph.masses = cleared.graph.masses ++ (lettered ++ random) ∧
      List.Forall₂ (MadeAt limits cleared first construction draws)
        (construction.zipIdx.filter blueprint.makesMass) lettered ∧
      random.length = blueprint.randomMassCount ∧
      (∀ mass ∈ random, ∃ shoulder hand, blueprint.shoulder = some shoulder ∧
        blueprint.hand = some hand ∧ IsRandom γ blueprint trail.cursor shoulder hand mass) ∧
      (withRandom limits trail).graph.networkMasses = lettered ++ random := by
  intro cleared
  have rest := readConstruction_rest limits cleared first construction draws
  obtain ⟨letters, lettered, -, masses, made, all⟩ :=
    readConstruction_masses limits cleared first construction draws
  rw [read] at rest masses all
  obtain rfl := all rfl
  obtain ⟨random, withMasses, length, each⟩ := withRandom_masses limits trail
  rw [masses, List.append_assoc] at withMasses
  rw [rest] at length each
  refine ⟨lettered, random, withMasses, made, length, each, ?_⟩
  rw [Graph.networkMasses, Graph.massesOfKind, withMasses]
  exact blueprint.graph.removeNetwork_filter_append
    (network_of_made (MadeAt.all_isLettered made) each)

/-- Every character of a construction text is accounted for. The problems of a growth are the
characters without a template, with their positions. One mass is made for each letter with a mass
template, in the order of the text, and then the random ones; all of them are new. With the same
draws the springs that are left are the same whether or not unconnected masses are shown; the
network consists of all masses that were made if they are, and of those at which a spring is left if
they are not. -/
theorem develop_accounts (limits : Limits) {description : Option (List Char)}
    {blueprint : Blueprint} {problems : List Problem}
    (read : (Blueprint.read description).value = .ok (blueprint, problems)) {first : Mass}
    {others : List Mass} (inputs : blueprint.inputs = first :: others)
    (construction : Option (List Char)) (draws : γ) {told : List Problem}
    (returns : (develop limits blueprint construction draws).outcome = .ok told) :
    let text := construction.getD []
    let cleared := { blueprint with graph := blueprint.graph.removeNetwork }
    let trail := (readConstruction limits cleared first text draws).1
    told = text.zipIdx.filterMap blueprint.problem? ∧
    ∃ (lettered random : List Mass) (springs : List Spring),
      List.Forall₂ (MadeAt limits cleared first text draws)
        (text.zipIdx.filter blueprint.makesMass) lettered ∧
      random.length = blueprint.randomMassCount ∧
      (∀ mass ∈ random, ∃ shoulder hand, blueprint.shoulder = some shoulder ∧
        blueprint.hand = some hand ∧ IsRandom γ blueprint trail.cursor shoulder hand mass) ∧
      ((cleared.graph.masses ++ (lettered ++ random)).map Mass.key).Nodup ∧
      ∀ shown, let grown := develop limits (blueprint.showing shown) construction draws
        grown.outcome = .ok told ∧ grown.blueprint.graph.springs = springs ∧
        grown.blueprint.graph.networkMasses =
          if shown then lettered ++ random
          else (lettered ++ random).filter fun mass => springs.any (·.touches mass) := by
  intro text cleared
  have described := Blueprint.read_described read
  have starts : startInputs blueprint = first :: others :=
    (startInputs_of_ne_nil blueprint (by simp [inputs])).trans inputs
  cases reads : readConstruction limits cleared first text draws with
  | mk trail fault =>
    cases fault with
    | some fault =>
      rw [develop_of_input limits starts, reads] at returns
      cases returns
    | none =>
      obtain ⟨pruned, prunes⟩ : ∃ pruned, prune (withRandom limits trail).graph = (pruned, none) :=
        ⟨_, by rw [← prune_succeeds (withRandom limits trail).graph]⟩
      obtain ⟨outcome, -⟩ := develop_of_read limits starts reads prunes
      obtain rfl : trail.problems = told := Except.ok.inj (outcome.symm.trans returns)
      have problemsOf := readConstruction_problems reads
      obtain ⟨lettered, random, masses, made, length, each, network⟩ := withRandom_made reads
      have distinct : ((cleared.graph.masses ++ (lettered ++ random)).map Mass.key).Nodup := by
        have edited := (described.trail_placed starts reads).edited.trans
          (withRandom_edited limits trail)
        rw [← masses]
        exact (described.sound.edits edited.edits).masses_nodup
      have sameMasses := prune_masses (withRandom limits trail).graph
      rw [prunes] at sameMasses
      have left : pruned.networkMasses = lettered ++ random := by
        rw [← network, Graph.networkMasses, Graph.networkMasses, Graph.massesOfKind,
          Graph.massesOfKind, sameMasses]
      refine ⟨problemsOf, lettered, random, pruned.springs, made, length, each, distinct, ?_⟩
      rw [← left]
      exact showing_develop limits starts reads prunes

/-- An arm with two inputs, a letter for masses, one for springs and a random mass. -/
def mixedDescription : List Char :=
  ("shoulder 0 0\nhand 0 9\ninput 0 1\ninput 0 4\ncreateMass m [1,2]\n" ++
    "createSpring s [0,9]\nrandomMasses 1").toList

/-- Two letters make a mass and one is random. Two springs are left, and one mass at which they
end. -/
theorem develop_accounts_mixed :
    ∃ blueprint problems first others, (Blueprint.read (some mixedDescription)).value =
        .ok (blueprint, problems) ∧ blueprint.inputs = first :: others ∧
      let grown := fun shown =>
        develop {} (blueprint.showing shown) (some "m?mss".toList) (SeededDraws.ofSeed 2)
      (∀ shown, (grown shown).outcome = .ok [⟨1, .unknownConstruction '?'⟩]) ∧
      ∃ made : List Mass, made.length = 3 ∧ (grown true).blueprint.graph.networkMasses = made ∧
        (grown true).blueprint.graph.springs = (grown false).blueprint.graph.springs ∧
        (grown false).blueprint.graph.networkMasses =
          made.filter (fun mass => (grown false).blueprint.graph.springs.any (·.touches mass)) ∧
        (grown false).blueprint.graph.networkMasses.length = 1 := by
  obtain ⟨blueprint, problems, read, checked⟩ := Blueprint.read_checked (some mixedDescription)
    (fun blueprint =>
      let grown := develop {} blueprint (some "m?mss".toList) (SeededDraws.ofSeed 2)
      !blueprint.inputs.isEmpty && blueprint.randomMassCount == 1 &&
        (("m?mss".toList.zipIdx.filter blueprint.makesMass).length == 2) &&
        decide (grown.outcome = .ok [⟨1, .unknownConstruction '?'⟩]) &&
        (develop {} (blueprint.showing false) (some "m?mss".toList)
          (SeededDraws.ofSeed 2)).blueprint.graph.networkMasses.length == 1)
    (by decide +kernel)
  simp only [Bool.and_eq_true, Bool.not_eq_true', List.isEmpty_eq_false_iff, beq_iff_eq,
    decide_eq_true_eq] at checked
  obtain ⟨⟨⟨⟨someInput, count⟩, letters⟩, outcome⟩, left⟩ := checked
  obtain ⟨first, others, inputs⟩ := List.exists_cons_of_ne_nil someInput
  obtain ⟨-, lettered, random, springs, made, length, -, -, each⟩ :=
    develop_accounts {} read inputs (some "m?mss".toList) (SeededDraws.ofSeed 2) outcome
  obtain ⟨-, shownSprings, shownMasses⟩ := each true
  obtain ⟨-, hiddenSprings, hiddenMasses⟩ := each false
  refine ⟨blueprint, problems, first, others, read, inputs, fun shown => (each shown).1,
    lettered ++ random, ?_, shownMasses, shownSprings.trans hiddenSprings.symm, ?_, left⟩
  · rw [List.length_append, ← made.length_eq, length, count]
    exact congrArg (· + 1) letters
  · rw [hiddenSprings]
    exact hiddenMasses

end Growth

end SpringArm
