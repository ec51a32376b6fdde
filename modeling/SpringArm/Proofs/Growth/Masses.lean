import SpringArm.Proofs.Growth.Construction
import SpringArm.Proofs.Growth.Edits

/-!
# Masses of a growth

A growth makes network masses in two of its phases, each at a place that is drawn: one for every
letter with a mass template, and then so many at random. The phases that follow make none; the last
one may drop some. So the masses of a grown graph are among those that the two phases have left.
-/

namespace SpringArm

/-- How many random masses a growth adds: those that are asked for, if there are a shoulder and a
hand. -/
def Blueprint.randomMassCount (blueprint : Blueprint) : Nat :=
  if blueprint.shoulder.isSome && blueprint.hand.isSome then blueprint.randomMasses.toNat else 0

/-- A letter makes a mass, whether it has a template for springs or not. -/
def Blueprint.makesMass (blueprint : Blueprint) (letter : Char × Nat) : Bool :=
  (blueprint.massTemplates.find? letter.1).isSome

/-- New network masses are all the network masses that there are behind a graph without its
network. -/
theorem Graph.removeNetwork_filter_append (graph : Graph) {created : List Mass}
    (network : ∀ mass ∈ created, mass.kind = .network) :
    (graph.removeNetwork.masses ++ created).filter (·.kind == .network) = created := by
  have none : graph.removeNetwork.masses.filter (·.kind == .network) = [] := by
    simp [Graph.removeNetwork]
  have all : created.filter (·.kind == .network) = created := by
    rw [List.filter_eq_self]
    exact fun mass member => beq_iff_eq.mpr (network mass member)
  rw [List.filter_append, none, all, List.nil_append]

namespace Growth

variable {γ : Type}

/-- A letter changes nothing of the blueprint but its graph. -/
theorem LetterRead.rest {limits : Limits} {trail next : Trail γ} {character : Char} {position : Nat}
    (read : LetterRead limits trail character position next) :
    next.blueprint = { trail.blueprint with graph := next.blueprint.graph } := by
  cases read <;> rfl

variable [Draws γ]

/-- A network mass at a place that is drawn around a cursor for a letter. -/
def IsLettered (γ : Type) [Draws γ] (blueprint : Blueprint) (mass : Mass) : Prop :=
  ∃ (letter : Char) (distance : Interval) (cursor : Mass) (draws : γ),
    blueprint.massTemplates.find? letter = some distance ∧ mass.kind = .network ∧
      mass.place = (place blueprint cursor distance distance draws).1

/-- A network mass at a place that is drawn for a random mass, lowered to the hand. -/
def IsRandom (γ : Type) [Draws γ] (blueprint : Blueprint) (cursor shoulder hand mass : Mass) :
    Prop :=
  ∃ draws : γ,
    let point := (place blueprint cursor blueprint.window ⟨shoulder.y, hand.y⟩ draws).1
    mass.kind = .network ∧ mass.x = point.x ∧
      mass.y = if hand.y < point.y then hand.y else point.y

theorem IsLettered.network {blueprint : Blueprint} {mass : Mass}
    (isLettered : IsLettered γ blueprint mass) : mass.kind = .network := by
  obtain ⟨-, -, -, -, -, kind, -⟩ := isLettered
  exact kind

theorem IsRandom.network {blueprint : Blueprint} {cursor shoulder hand mass : Mass}
    (isRandom : IsRandom γ blueprint cursor shoulder hand mass) : mass.kind = .network := by
  obtain ⟨-, kind, -⟩ := isRandom
  exact kind

/-- Nothing of the blueprint changes but its graph, as far as a construction text is read. -/
theorem readConstruction_rest (limits : Limits) (blueprint : Blueprint) (cursor : Mass)
    (construction : List Char) (draws : γ) :
    let trail := (readConstruction limits blueprint cursor construction draws).1
    trail.blueprint = { blueprint with graph := trail.blueprint.graph } := by
  apply readConstruction_invariant limits blueprint cursor construction draws
    (fun trail => trail.blueprint = { blueprint with graph := trail.blueprint.graph }) rfl
  intro trail next character position rest read
  rw [read.rest, rest]

/-- A letter with a mass template adds the mass that is made for it, and no other one adds any. -/
theorem readLetter_masses {limits : Limits} {trail next : Trail γ} {letter : Char × Nat}
    (read : readLetter limits trail letter = .ok next) :
    (trail.blueprint.makesMass letter = false ∧
        next.blueprint.graph.masses = trail.blueprint.graph.masses) ∨
      ∃ distance, trail.blueprint.massTemplates.find? letter.1 = some distance ∧
        next.blueprint.graph.masses = trail.blueprint.graph.masses ++
          [(createMass trail.blueprint trail.cursor distance trail.draws).1] := by
  cases template : trail.blueprint.massTemplates.find? letter.1 with
  | some distance =>
    right
    simp only [readLetter, template] at read
    cases read
    exact ⟨distance, rfl, rfl⟩
  | none =>
    left
    refine ⟨by simp [Blueprint.makesMass, template], ?_⟩
    cases readLetter_cases read with
    | mass distance point draws found => rw [template] at found; cases found
    | spring distance target draws noMass found candidate => rfl
    | stay distance noMass found => rfl
    | problem noMass noSpring => rfl

/-- The mass that a letter of a construction text makes. What stands in front of the letter has been
read, and the mass is placed around the cursor at a distance of the letter. -/
def MadeAt (limits : Limits) (blueprint : Blueprint) (cursor : Mass) (construction : List Char)
    (draws : γ) (letter : Char × Nat) (mass : Mass) : Prop :=
  ∃ (distance : Interval) (before : Trail γ),
    blueprint.massTemplates.find? letter.1 = some distance ∧
    readConstruction limits blueprint cursor (construction.take letter.2) draws = (before, none) ∧
    mass = (createMass before.blueprint before.cursor distance before.draws).1

theorem MadeAt.isLettered {limits : Limits} {blueprint : Blueprint} {cursor mass : Mass}
    {construction : List Char} {draws : γ} {letter : Char × Nat}
    (made : MadeAt limits blueprint cursor construction draws letter mass) :
    IsLettered γ blueprint mass := by
  obtain ⟨distance, before, template, read, rfl⟩ := made
  have rest := readConstruction_rest limits blueprint cursor (construction.take letter.2) draws
  rw [read] at rest
  refine ⟨letter.1, distance, before.cursor, before.draws, template, rfl, ?_⟩
  rw [rest]
  rfl

/-- What letters make are lettered masses. -/
theorem MadeAt.all_isLettered {limits : Limits} {blueprint : Blueprint} {cursor : Mass}
    {construction : List Char} {draws : γ} {letters : List (Char × Nat)} {lettered : List Mass}
    (made : List.Forall₂ (MadeAt limits blueprint cursor construction draws) letters lettered) :
    ∀ mass ∈ lettered, IsLettered γ blueprint mass := by
  induction made with
  | nil => simp
  | cons first _ inductionHypothesis =>
    exact List.forall_mem_cons.mpr ⟨first.isLettered, inductionHypothesis⟩

/-- The masses behind a construction text are those before it and one for each letter with a mass
template that has been read, in the order of the text. -/
theorem readConstruction_masses (limits : Limits) (blueprint : Blueprint) (cursor : Mass)
    (construction : List Char) (draws : γ) :
    let reading := readConstruction limits blueprint cursor construction draws
    ∃ letters lettered, letters <+: construction.zipIdx ∧
      reading.1.blueprint.graph.masses = blueprint.graph.masses ++ lettered ∧
      List.Forall₂ (MadeAt limits blueprint cursor construction draws)
        (letters.filter blueprint.makesMass) lettered ∧
      (reading.2 = none → letters = construction.zipIdx) := by
  intro reading
  obtain ⟨letters, inOrder, ⟨lettered, masses, made⟩, all⟩ := readConstruction_done limits blueprint
    cursor construction draws
    (fun letters trail => ∃ lettered,
      trail.blueprint.graph.masses = blueprint.graph.masses ++ lettered ∧
      List.Forall₂ (MadeAt limits blueprint cursor construction draws)
        (letters.filter blueprint.makesMass) lettered) ⟨[], by simp⟩ (by
      rintro before letter next soFar ⟨lettered, masses, made⟩ read
      have rest := readConstruction_rest limits blueprint cursor (construction.take letter.2) draws
      rw [soFar] at rest
      rcases readLetter_masses read with ⟨makesNone, same⟩ | ⟨distance, template, added⟩
      · rw [rest] at makesNone
        have skipped : blueprint.makesMass letter = false := makesNone
        exact ⟨lettered, same.trans masses, by simpa [List.filter_append, skipped] using made⟩
      · rw [rest] at template
        have counts : blueprint.makesMass letter = true :=
          Option.isSome_iff_exists.mpr ⟨distance, template⟩
        refine ⟨_, by rw [added, masses, List.append_assoc], ?_⟩
        rw [List.filter_append, List.filter_cons_of_pos counts, List.filter_nil]
        exact List.rel_append made (.cons ⟨distance, before, template, soFar, rfl⟩ .nil))
  exact ⟨letters, lettered, inOrder, masses, made, all⟩

/-- Random masses come behind the others. -/
theorem repeatRandomMass_masses (cursor shoulder hand : Mass) (count : Nat) (blueprint : Blueprint)
    (draws : γ) :
    ∃ random, (repeatRandomMass cursor shoulder hand count blueprint draws).1.graph.masses =
        blueprint.graph.masses ++ random ∧ random.length = count ∧
      ∀ mass ∈ random, IsRandom γ blueprint cursor shoulder hand mass := by
  induction count generalizing blueprint draws with
  | zero => exact ⟨[], by simp [repeatRandomMass]⟩
  | succ count inductionHypothesis =>
    obtain ⟨later, masses, length, each⟩ := inductionHypothesis
      (addRandomMass cursor shoulder hand blueprint draws).1
      (addRandomMass cursor shoulder hand blueprint draws).2
    refine ⟨_ :: later, masses.trans (List.append_assoc _ [_] _), by simp [length], ?_⟩
    exact List.forall_mem_cons.mpr ⟨⟨draws, rfl, rfl, rfl⟩, each⟩

/-- The random masses of a blueprint come behind the others. -/
theorem addRandomMasses_masses (blueprint : Blueprint) (cursor : Mass) (draws : γ) :
    ∃ random, (addRandomMasses blueprint cursor draws).value.2.1.graph.masses =
        blueprint.graph.masses ++ random ∧ random.length = blueprint.randomMassCount ∧
      ∀ mass ∈ random, ∃ shoulder hand, blueprint.shoulder = some shoulder ∧
        blueprint.hand = some hand ∧ IsRandom γ blueprint cursor shoulder hand mass := by
  unfold addRandomMasses
  split
  next none =>
    have count : blueprint.randomMassCount = 0 := by
      simp [Blueprint.randomMassCount, Int.toNat_eq_zero.mpr none]
    exact ⟨[], by simp [count]⟩
  · split
    next shoulder hand isShoulder isHand =>
      obtain ⟨random, masses, length, each⟩ := repeatRandomMass_masses cursor shoulder hand
        blueprint.randomMasses.toNat blueprint draws
      have count : blueprint.randomMassCount = blueprint.randomMasses.toNat := by
        simp [Blueprint.randomMassCount, isShoulder, isHand]
      exact ⟨random, masses, length.trans count.symm,
        fun mass member => ⟨shoulder, hand, isShoulder, isHand, each mass member⟩⟩
    next incomplete =>
      have count : blueprint.randomMassCount = 0 := by
        apply if_neg
        intro both
        rw [Bool.and_eq_true, Option.isSome_iff_exists, Option.isSome_iff_exists] at both
        obtain ⟨⟨shoulder, isShoulder⟩, hand, isHand⟩ := both
        exact incomplete shoulder hand isShoulder isHand
      exact ⟨[], by simp [count]⟩

/-- Lettered and random masses are network masses. -/
theorem network_of_made {blueprint : Blueprint} {cursor : Mass} {lettered random : List Mass}
    (eachLettered : ∀ mass ∈ lettered, IsLettered γ blueprint mass)
    (eachRandom : ∀ mass ∈ random, ∃ shoulder hand, blueprint.shoulder = some shoulder ∧
      blueprint.hand = some hand ∧ IsRandom γ blueprint cursor shoulder hand mass) :
    ∀ mass ∈ lettered ++ random, mass.kind = .network := by
  refine List.forall_mem_append.mpr ⟨fun mass member => (eachLettered mass member).network, ?_⟩
  intro mass member
  obtain ⟨shoulder, hand, -, -, isRandom⟩ := eachRandom mass member
  exact isRandom.network

/-- Random springs join masses that are there. -/
theorem addRandomSprings_masses (blueprint : Blueprint) (limits : Limits) (draws : γ) :
    (addRandomSprings blueprint limits draws).value.2.1.graph.masses = blueprint.graph.masses :=
  addRandomSprings_invariant blueprint limits draws
    (fun graph => graph.masses = blueprint.graph.masses) rfl
    fun _ _ _ _ _ same _ => same

/-- Pruning takes springs out. -/
theorem prune_masses (graph : Graph) : (prune graph).1.masses = graph.masses := by
  apply stepwise_invariant (fun reached : Graph => reached.masses = graph.masses) rfl
  intro before mass after _ same pruned
  rcases pruneMass_cases pruned with ⟨spring, -, removed⟩ | ⟨-, rfl⟩
  · rw [Graph.removeSpring_eq_ok removed]
    exact same
  · exact same

theorem dropUnconnected_masses_sublist (blueprint : Blueprint) :
    (dropUnconnected blueprint).value.graph.masses.Sublist blueprint.graph.masses := by
  unfold dropUnconnected
  split
  · exact List.Sublist.refl _
  · exact List.filter_sublist

/-- Random masses come behind the masses of a trail, and random springs add none. -/
theorem withRandom_masses (limits : Limits) (trail : Trail γ) :
    ∃ random, (withRandom limits trail).graph.masses = trail.blueprint.graph.masses ++ random ∧
      random.length = trail.blueprint.randomMassCount ∧
      ∀ mass ∈ random, ∃ shoulder hand, trail.blueprint.shoulder = some shoulder ∧
        trail.blueprint.hand = some hand ∧
        IsRandom γ trail.blueprint trail.cursor shoulder hand mass := by
  obtain ⟨random, masses, length, each⟩ :=
    addRandomMasses_masses trail.blueprint trail.cursor trail.draws
  exact ⟨random, (addRandomSprings_masses ..).trans masses, length, each⟩

/-- What follows the random masses makes no mass. -/
theorem finish_masses_sublist (limits : Limits) (trail : Trail γ) :
    (finish limits trail).blueprint.graph.masses.Sublist
      (withRandom limits trail).graph.masses := by
  rw [finish_blueprint, ← prune_masses (withRandom limits trail).graph]
  exact dropUnconnected_masses_sublist _

/-- The network masses of a growth from an input are some of those that its letters make and of the
random ones, in their order. -/
theorem develop_networkMasses_sublist (limits : Limits) {blueprint : Blueprint} {first : Mass}
    {others : List Mass} (inputs : startInputs blueprint = first :: others)
    (construction : Option (List Char)) (draws : γ) :
    ∃ lettered random,
      (develop limits blueprint construction draws).blueprint.graph.networkMasses.Sublist
        (lettered ++ random) ∧
      (∀ mass ∈ lettered, IsLettered γ blueprint mass) ∧
      random.length = blueprint.randomMassCount ∧
      ∀ mass ∈ random, ∃ cursor shoulder hand, blueprint.shoulder = some shoulder ∧
        blueprint.hand = some hand ∧ IsRandom γ blueprint cursor shoulder hand mass := by
  have rest := readConstruction_rest limits
    { blueprint with graph := blueprint.graph.removeNetwork } first (construction.getD []) draws
  obtain ⟨letters, lettered, -, masses, made, -⟩ := readConstruction_masses limits
    { blueprint with graph := blueprint.graph.removeNetwork } first (construction.getD []) draws
  have allLettered := MadeAt.all_isLettered made
  have eachLettered : ∀ mass ∈ lettered, IsLettered γ blueprint mass := allLettered
  rw [develop_of_input limits inputs]
  generalize readConstruction limits { blueprint with graph := blueprint.graph.removeNetwork } first
    (construction.getD []) draws = reading at rest masses
  obtain ⟨trail, fault⟩ := reading
  dsimp only at rest masses
  obtain ⟨random, withMasses, length, eachRandom⟩ := withRandom_masses limits trail
  have sublist : (conclude limits (trail, fault)).blueprint.graph.masses.Sublist
      (blueprint.graph.removeNetwork.masses ++ (lettered ++ random)) := by
    rw [← List.append_assoc, ← masses, ← withMasses]
    cases fault with
    | some fault => exact withMasses ▸ List.sublist_append_left _ _
    | none => exact finish_masses_sublist limits trail
  have eachNew : ∀ mass ∈ random, ∃ shoulder hand, blueprint.shoulder = some shoulder ∧
      blueprint.hand = some hand ∧ IsRandom γ blueprint trail.cursor shoulder hand mass := by
    rw [rest] at eachRandom
    exact eachRandom
  have allNetwork := network_of_made eachLettered eachNew
  have filtered := sublist.filter (·.kind == .network)
  rw [blueprint.graph.removeNetwork_filter_append allNetwork] at filtered
  refine ⟨lettered, random, filtered, eachLettered, ?_, fun mass member => ?_⟩
  · rw [length, rest]
    rfl
  · exact ⟨trail.cursor, eachNew mass member⟩

end Growth

end SpringArm
