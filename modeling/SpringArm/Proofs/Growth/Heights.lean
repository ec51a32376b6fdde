import SpringArm.Draws.Seeded
import SpringArm.Proofs.Binary64.Sign
import SpringArm.Proofs.Growth.Edits
import SpringArm.Proofs.Growth.Masses

/-!
# Heights of network masses

Where negative heights are not allowed, heights are turned upwards when they are drawn. Two things
can still keep a mass from a height of at least zero: a window may be too wide for a double, and
then the height that is drawn from it may be undefined; and a random mass is lowered to the hand
afterwards, which may itself be below zero.
-/

namespace SpringArm.Growth

open Binary64 (zero_le_abs_or_isNaN zero_le_or_lt_or_isNaN not_lt_zero)

variable {γ : Type} [Draws γ]

/-- A height that is drawn is turned upwards. -/
theorem place_height {blueprint : Blueprint}
    (upwards : blueprint.switches.allowNegativeYValues = false) (cursor : Mass)
    (distanceX distanceY : Interval) (draws : γ) :
    0 ≤ (place blueprint cursor distanceX distanceY draws).1.y ∨
      (place blueprint cursor distanceX distanceY draws).1.y.isNaN = true := by
  simp only [place, upwards, Bool.false_eq_true, if_false]
  exact zero_le_abs_or_isNaN _

theorem IsLettered.height {blueprint : Blueprint} {mass : Mass}
    (isLettered : IsLettered γ blueprint mass)
    (upwards : blueprint.switches.allowNegativeYValues = false) :
    0 ≤ mass.y ∨ mass.y.isNaN = true := by
  obtain ⟨letter, distance, cursor, draws, -, -, placed⟩ := isLettered
  have height : mass.y = (place blueprint cursor distance distance draws).1.y :=
    congrArg Geometry.Point.y placed
  rw [height]
  exact place_height upwards cursor distance distance draws

/-- A random mass is below zero only if it is lowered to a hand below zero. -/
theorem IsRandom.height {blueprint : Blueprint} {cursor shoulder hand mass : Mass}
    (isRandom : IsRandom γ blueprint cursor shoulder hand mass)
    (upwards : blueprint.switches.allowNegativeYValues = false) :
    0 ≤ mass.y ∨ mass.y.isNaN = true ∨ hand.y < 0 ∧ mass.y = hand.y := by
  obtain ⟨draws, -, -, height⟩ := isRandom
  rw [height]
  split
  · rcases zero_le_or_lt_or_isNaN hand.y with atLeast | below | undefined
    · exact .inl atLeast
    · exact .inr (.inr ⟨below, rfl⟩)
    · exact .inr (.inl undefined)
  · rcases place_height upwards cursor blueprint.window ⟨shoulder.y, hand.y⟩ draws with
      atLeast | undefined
    · exact .inl atLeast
    · exact .inr (.inl undefined)

/-- Where negative heights are not allowed every network mass has a height of at least zero, or an
undefined one, or the height of a hand below zero. No more masses are below zero than random masses
are added. -/
theorem develop_heights (limits : Limits) {description : Option (List Char)} {blueprint : Blueprint}
    {problems : List Problem}
    (read : (Blueprint.read description).value = .ok (blueprint, problems))
    (upwards : blueprint.switches.allowNegativeYValues = false)
    (construction : Option (List Char)) (draws : γ) :
    let network := (develop limits blueprint construction draws).blueprint.graph.networkMasses
    (∀ mass ∈ network, 0 ≤ mass.y ∨ mass.y.isNaN = true ∨
      ∃ hand, blueprint.hand = some hand ∧ hand.y < 0 ∧ mass.y = hand.y) ∧
    network.countP (fun mass => decide (mass.y < 0)) ≤ blueprint.randomMassCount := by
  intro network
  cases inputs : startInputs blueprint with
  | nil =>
    have described := Blueprint.read_described read
    have none : network = [] := by
      simp only [network, develop_of_no_input limits inputs]
      rw [List.eq_nil_iff_forall_not_mem]
      intro mass member
      obtain ⟨inside, kind⟩ := Graph.mem_networkMasses.mp member
      exact described.networkless mass inside kind
    simp [none]
  | cons first others =>
    obtain ⟨lettered, random, sublist, eachLettered, length, eachRandom⟩ :=
      develop_networkMasses_sublist limits inputs construction draws
    constructor
    · intro mass member
      rcases List.mem_append.mp (sublist.subset member) with isLettered | isRandom
      · rcases (eachLettered mass isLettered).height upwards with atLeast | undefined
        · exact .inl atLeast
        · exact .inr (.inl undefined)
      · obtain ⟨cursor, shoulder, hand, -, isHand, placed⟩ := eachRandom mass isRandom
        rcases placed.height upwards with atLeast | undefined | lowered
        · exact .inl atLeast
        · exact .inr (.inl undefined)
        · exact .inr (.inr ⟨hand, isHand, lowered⟩)
    · have upright : lettered.countP (fun mass => decide (mass.y < 0)) = 0 := by
        rw [List.countP_eq_zero]
        intro mass member
        simpa using not_lt_zero ((eachLettered mass member).height upwards)
      calc network.countP (fun mass => decide (mass.y < 0))
          ≤ (lettered ++ random).countP (fun mass => decide (mass.y < 0)) := sublist.countP_le
        _ = random.countP (fun mass => decide (mass.y < 0)) := by
            rw [List.countP_append, upright, Nat.zero_add]
        _ ≤ random.length := List.countP_le_length
        _ = blueprint.randomMassCount := length

/-- An arm above zero, with a letter for masses and two random ones. -/
def raisedDescription : List Char :=
  ("shoulder 0 0\nhand 0 9\ninput 0 1\ncreateMass m [2, 3]\nrandomMasses 2\n" ++
    "options showNotConnectedMasses").toList

/-- Two letters and two random masses: four network masses, of which at most two could be below
zero. -/
theorem develop_heights_sample :
    ∃ blueprint problems, (Blueprint.read (some raisedDescription)).value =
        .ok (blueprint, problems) ∧
      let network := (develop {} blueprint (some "mm".toList)
        (SeededDraws.ofSeed 3)).blueprint.graph.networkMasses
      blueprint.switches.allowNegativeYValues = false ∧ network.length = 4 ∧
        blueprint.randomMassCount = 2 ∧
        (∀ mass ∈ network, 0 ≤ mass.y ∨ mass.y.isNaN = true ∨
          ∃ hand, blueprint.hand = some hand ∧ hand.y < 0 ∧ mass.y = hand.y) ∧
        network.countP (fun mass => decide (mass.y < 0)) ≤ 2 := by
  obtain ⟨blueprint, problems, read, checked⟩ := Blueprint.read_checked (some raisedDescription)
    (fun blueprint => !blueprint.switches.allowNegativeYValues &&
      (develop {} blueprint (some "mm".toList)
        (SeededDraws.ofSeed 3)).blueprint.graph.networkMasses.length == 4 &&
      blueprint.randomMassCount == 2)
    (by decide +kernel)
  simp only [Bool.and_eq_true, Bool.not_eq_true', beq_iff_eq] at checked
  obtain ⟨⟨upwards, length⟩, count⟩ := checked
  obtain ⟨heights, below⟩ := develop_heights {} read upwards (some "mm".toList)
    (SeededDraws.ofSeed 3)
  exact ⟨blueprint, problems, read, upwards, length, count, heights, count ▸ below⟩

/-- An arm below zero, with a random mass and a letter for masses at a distance beyond the finite
doubles. -/
def sunkenDescription : List Char :=
  "shoulder 0 -5\nhand 0 -3\ninput 0 0\nrandomMasses 1\noptions showNotConnectedMasses\n".toList ++
    "createMass m [".toList ++ List.replicate 310 '9' ++ ", ".toList ++ List.replicate 310 '9' ++
    "]".toList

/-- The letter makes a mass of undefined height, and the random mass is lowered to the hand. -/
theorem develop_heights_sunken :
    ∃ blueprint problems, (Blueprint.read (some sunkenDescription)).value =
        .ok (blueprint, problems) ∧
      let grown := develop {} blueprint (some "m".toList) (SeededDraws.ofSeed 1)
      blueprint.switches.allowNegativeYValues = false ∧
        (∀ mass ∈ blueprint.graph.masses, mass.x.isFinite = true ∧ mass.y.isFinite = true) ∧
        grown.outcome = .ok [] ∧
        (∃ mass ∈ grown.blueprint.graph.networkMasses, mass.y.isNaN = true ∧ ¬ 0 ≤ mass.y) ∧
        ∃ mass ∈ grown.blueprint.graph.networkMasses, mass.y = -3 ∧ ¬ 0 ≤ mass.y := by
  obtain ⟨blueprint, problems, read, checked⟩ := Blueprint.read_checked (some sunkenDescription)
    (fun blueprint =>
      let grown := develop {} blueprint (some "m".toList) (SeededDraws.ofSeed 1)
      !blueprint.switches.allowNegativeYValues &&
        blueprint.graph.masses.all (fun mass => mass.x.isFinite && mass.y.isFinite) &&
        decide (grown.outcome = .ok []) &&
        grown.blueprint.graph.networkMasses.any (fun mass => mass.y.isNaN && !(0 ≤ mass.y)) &&
        grown.blueprint.graph.networkMasses.any (fun mass => mass.y = -3 && !(0 ≤ mass.y)))
    (by decide +kernel)
  simp only [Bool.and_eq_true, Bool.not_eq_true', List.all_eq_true, List.any_eq_true,
    decide_eq_true_eq, decide_eq_false_iff_not] at checked
  obtain ⟨⟨⟨⟨upwards, finite⟩, outcome⟩, undefined⟩, lowered⟩ := checked
  exact ⟨blueprint, problems, read, upwards, finite, outcome, undefined, lowered⟩

end SpringArm.Growth
