import SpringArm.Proofs.Build.Stages
import SpringArm.Proofs.Expansion.Meaning
import SpringArm.Proofs.Growth.Construction

/-!
# Overlong expansions

When an expansion is stopped a fixed text stands for it, and a network is grown from this text as
from any other: its characters with a template do what they always do. The blanks in it have none,
so a growth from an input finds problems. Without an input, or without a template for any character
of the text, nothing grows that would not grow from the empty text.
-/

namespace SpringArm

/-- The text that stands for an expansion that has become too long. -/
def overlongText : List Char :=
  "The output gets too long!".toList

namespace Expansion

/-- The empty seed is its own expansion. -/
theorem ending_nil (rules : List Rule) (deepest : Nat) {limit : Int} (fits : 0 ≤ limit) :
    ending rules deepest (some limit) [] = .complete [] [] := by
  apply Scan.run_of_step_error
  have short : (Scan.start deepest (loopAllowance rules []) []).isOverlong (some limit) = false :=
    decide_eq_false (Int.not_lt.mpr fits)
  exact if_neg (by simp [short])

theorem expand_nil (rules : List Rule) : (expand rules {} (some [])).value = .ok ⟨[], []⟩ := by
  rw [expand_of_complete {} (some []) (ending_nil rules 498 (show (0 : Int) ≤ 1000 by decide))]

end Expansion

open Growth

variable {γ : Type} [Draws γ]

/-- Whatever is read, expanded and grown is built. -/
theorem buildNetwork_of_outcome {limits : Limits} {description seed : Option (List Char)}
    {draws : γ} {blueprint : Blueprint} {expanded : Expansion.Expanded}
    {descriptionProblems constructionProblems : List Problem}
    (read : (Blueprint.read description).value = .ok (blueprint, descriptionProblems))
    (expand : (Expansion.expand blueprint.rules limits seed).value = .ok expanded)
    (outcome : (develop limits blueprint (some expanded.text) draws).outcome =
      .ok constructionProblems) :
    (buildNetwork limits description seed draws).value =
      .ok ⟨(develop limits blueprint (some expanded.text) draws).blueprint, expanded.text,
        descriptionProblems, expanded.problems, constructionProblems⟩ :=
  buildNetwork_eq_ok_iff.mpr ⟨blueprint, expanded, read, expand, outcome, rfl, rfl, rfl⟩

/-- A blueprint that was read has no template for the blanks of the text. -/
theorem Blueprint.overlongText_problems {description : Option (List Char)} {blueprint : Blueprint}
    {problems : List Problem}
    (read : (Blueprint.read description).value = .ok (blueprint, problems)) :
    overlongText.zipIdx.filterMap blueprint.problem? ≠ [] := by
  have blank : (' ', 3) ∈ overlongText.zipIdx := by decide
  have unknown : blueprint.knows ' ' = false := by
    rw [← Bool.not_eq_true]
    exact fun known => absurd (Blueprint.read_knows read known) (by decide)
  have problem : blueprint.problem? (' ', 3) = some ⟨3, .unknownConstruction ' '⟩ := by
    simp [Blueprint.problem?, unknown]
  exact List.ne_nil_of_mem (List.mem_filterMap.mpr ⟨_, blank, problem⟩)

/-- A build from an overlong expansion grows what the characters with a template grow, and has
problems if there is an input to grow from. -/
theorem Build.Stages.overlong {description seed : Option (List Char)} {draws : γ} {build : Build}
    {blueprint : Blueprint} {seedProblems : List Problem}
    (stages : Build.Stages {} description seed draws build blueprint
      ⟨overlongText, seedProblems⟩) :
    build.construction = overlongText ∧
      build.blueprint = (Growth.develop {} blueprint
        (some (overlongText.filter blueprint.knows)) draws).blueprint ∧
      (blueprint.inputs ≠ [] → build.hasProblems = true) := by
  refine ⟨stages.construction_eq, ?_, fun inputs => ?_⟩
  · rw [stages.blueprint_eq]
    exact (develop_filter {} blueprint overlongText draws).1.symm
  · obtain ⟨first, others, start⟩ := List.exists_cons_of_ne_nil inputs
    rw [stages.described.inputs_eq, ← stages.described.startInputs_eq] at start
    have outcome := stages.develop
    rw [develop_outcome {} start] at outcome
    split at outcome
    · cases outcome
    · have problems : build.constructionProblems ≠ [] := by
        rw [← Except.ok.inj outcome]
        exact Blueprint.overlongText_problems stages.read
      simp [Build.hasProblems, problems]

/-- The text for an overlong expansion is executed like any other: what grows is what grows from its
characters with a template, and with an input to grow from there are problems. Without an input, or
if no character of the text has a template, the network is built, and it is the one that is built
from an empty seed. -/
theorem buildNetwork_overlong {description seed : Option (List Char)} (draws : γ)
    {blueprint : Blueprint} {descriptionProblems seedProblems : List Problem}
    (read : (Blueprint.read description).value = .ok (blueprint, descriptionProblems))
    (overlong : Expansion.ending blueprint.rules 498 (some 1000) (seed.getD []) =
      .overlong seedProblems) :
    (∀ build, (buildNetwork {} description seed draws).value = .ok build →
      build.construction = overlongText ∧
      build.blueprint =
        (develop {} blueprint (some (overlongText.filter blueprint.knows)) draws).blueprint ∧
      (blueprint.inputs ≠ [] → build.hasProblems = true)) ∧
    (blueprint.inputs = [] ∨ overlongText.filter blueprint.knows = [] →
      ∃ build idle, (buildNetwork {} description seed draws).value = .ok build ∧
        (buildNetwork {} description (some []) draws).value = .ok idle ∧
        idle.construction = [] ∧ build.blueprint = idle.blueprint) := by
  have expand : (Expansion.expand blueprint.rules {} seed).value =
      .ok ⟨overlongText, seedProblems⟩ := by
    rw [Expansion.expand_of_overlong {} seed overlong]
    rfl
  constructor
  · intro build built
    obtain ⟨other, expanded, stages⟩ := buildNetwork_eq_ok_iff.mp built
    cases read.symm.trans stages.read
    cases expand.symm.trans stages.expand
    exact stages.overlong
  · intro idle
    have noneKnown : ([] : List Char).filter blueprint.knows = [] := rfl
    obtain ⟨nothing, idleOutcome⟩ := develop_succeeds_of_unknown {} noneKnown draws
    have idleBuilt := buildNetwork_of_outcome read (Expansion.expand_nil _) idleOutcome
    suffices grown : ∃ problems, (develop {} blueprint (some overlongText) draws).outcome =
        .ok problems ∧ (develop {} blueprint (some overlongText) draws).blueprint =
          (develop {} blueprint (some []) draws).blueprint by
      obtain ⟨problems, outcome, same⟩ := grown
      exact ⟨_, _, buildNetwork_of_outcome read expand outcome, idleBuilt, rfl, same⟩
    rcases idle with noInput | unknown
    · have described := Blueprint.read_described read
      have start : startInputs blueprint = [] := by
        rw [described.startInputs_eq, ← described.inputs_eq, noInput]
      exact ⟨[], by rw [develop_of_no_input {} start], by simp only [develop_of_no_input {} start]⟩
    · obtain ⟨problems, outcome⟩ := develop_succeeds_of_unknown {} unknown draws
      have same := (develop_filter {} blueprint overlongText draws).1
      rw [unknown] at same
      exact ⟨problems, outcome, same.symm⟩

/-- A seed with one letter more than an expansion may have. -/
def overlongSeed : List Char :=
  List.replicate 1001 'a'

/-- Whatever the rules, the seed is too long from the start. -/
theorem ending_overlongSeed (rules : List Rule) :
    Expansion.ending rules 498 (some 1000) overlongSeed = .overlong [] := by
  have length : overlongSeed.length = 1001 := List.length_replicate
  have nonempty : overlongSeed ≠ [] := List.ne_nil_of_length_eq_add_one length
  exact Expansion.ending_of_long nonempty (by rw [length]; decide)

/-- An input, and masses for a letter that is not in the text for overlong expansions. -/
def silentDescription : List Char :=
  "input 0 1\ncreateMass m [1, 2]".toList

/-- A letter that is not in the text makes masses: the build has problems, and grows nothing. -/
theorem buildNetwork_overlong_sample :
    ∃ blueprint problems build idle,
      (Blueprint.read (some silentDescription)).value = .ok (blueprint, problems) ∧
        Expansion.ending blueprint.rules 498 (some 1000) overlongSeed = .overlong [] ∧
        blueprint.inputs ≠ [] ∧ overlongText.filter blueprint.knows = [] ∧
        (buildNetwork {} (some silentDescription) (some overlongSeed)
          (SeededDraws.ofSeed 1)).value = .ok build ∧
        (buildNetwork {} (some silentDescription) (some [])
          (SeededDraws.ofSeed 1)).value = .ok idle ∧
        build.construction = overlongText ∧ build.hasProblems = true ∧
        build.blueprint = idle.blueprint := by
  obtain ⟨blueprint, problems, read, checked⟩ := Blueprint.read_checked (some silentDescription)
    (fun blueprint => !blueprint.inputs.isEmpty && (overlongText.filter blueprint.knows).isEmpty)
    (by decide +kernel)
  simp only [Bool.and_eq_true, Bool.not_eq_true', List.isEmpty_eq_false_iff,
    List.isEmpty_iff] at checked
  obtain ⟨inputs, unknown⟩ := checked
  have overlong : Expansion.ending blueprint.rules 498 (some 1000) ((some overlongSeed).getD []) =
      .overlong [] := by
    rw [Option.getD_some, ending_overlongSeed]
  obtain ⟨executed, same⟩ := buildNetwork_overlong (SeededDraws.ofSeed 1) read overlong
  obtain ⟨build, idle, built, idleBuilt, -, blueprints⟩ := same (.inr unknown)
  obtain ⟨construction, -, found⟩ := executed build built
  exact ⟨blueprint, problems, build, idle, read, ending_overlongSeed blueprint.rules, inputs,
    unknown, built, idleBuilt, construction, found inputs, blueprints⟩

/-- An input, and masses for a letter of the text for overlong expansions. -/
def talkativeDescription : List Char :=
  "input 0 1\ncreateMass t [1, 2]\noptions showNotConnectedMasses".toList

/-- A letter of the text makes masses, and four of them are grown from the text; from the empty seed
none is. Where there is no input the build has no problems. -/
theorem buildNetwork_overlong_grows :
    ∃ build idle bare,
      (∀ rules, Expansion.ending rules 498 (some 1000) overlongSeed = .overlong []) ∧
      (buildNetwork {} (some talkativeDescription) (some overlongSeed)
        (SeededDraws.ofSeed 1)).value = .ok build ∧
      (buildNetwork {} (some talkativeDescription) (some [])
        (SeededDraws.ofSeed 1)).value = .ok idle ∧
      build.blueprint.graph.masses.length = 5 ∧ idle.blueprint.graph.masses.length = 1 ∧
      (buildNetwork {} none (some overlongSeed) (SeededDraws.ofSeed 1)).value = .ok bare ∧
      bare.hasProblems = false := by
  obtain ⟨blueprint, problems, read, checked⟩ := Blueprint.read_checked (some talkativeDescription)
    (fun blueprint =>
      let grown := develop {} blueprint (some overlongText) (SeededDraws.ofSeed 1)
      let idle := develop {} blueprint (some []) (SeededDraws.ofSeed 1)
      grown.outcome.toBool && grown.blueprint.graph.masses.length == 5 &&
        idle.blueprint.graph.masses.length == 1)
    (by decide +kernel)
  simp only [Bool.and_eq_true, beq_iff_eq] at checked
  obtain ⟨⟨came, grown⟩, idle⟩ := checked
  have expandSeed : ∀ rules, (Expansion.expand rules {} (some overlongSeed)).value =
      .ok ⟨overlongText, []⟩ := by
    intro rules
    rw [Expansion.expand_of_overlong {} (some overlongSeed) (ending_overlongSeed rules)]
    rfl
  have noneKnown : ([] : List Char).filter blueprint.knows = [] := rfl
  obtain ⟨_, idleOutcome⟩ := develop_succeeds_of_unknown {} noneKnown (SeededDraws.ofSeed 1)
  have nothingRead : (Blueprint.read none).value = .ok ({}, []) := rfl
  have bare : (buildNetwork {} none (some overlongSeed) (SeededDraws.ofSeed 1)).value =
      .ok ⟨{}, overlongText, [], [], []⟩ :=
    buildNetwork_of_outcome nothingRead (expandSeed []) rfl
  cases outcome : (develop {} blueprint (some overlongText) (SeededDraws.ofSeed 1)).outcome with
  | error fault => simp [outcome, Except.toBool] at came
  | ok found =>
    exact ⟨_, _, _, ending_overlongSeed, buildNetwork_of_outcome read (expandSeed _) outcome,
      buildNetwork_of_outcome read (Expansion.expand_nil _) idleOutcome, grown, idle, bare, rfl⟩

end SpringArm
