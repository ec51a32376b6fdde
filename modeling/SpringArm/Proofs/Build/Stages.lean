import SpringArm.Build
import SpringArm.Draws.Seeded
import SpringArm.Proofs.Blueprint.Reading
import SpringArm.Proofs.Expansion.Moves
import SpringArm.Proofs.Growth.Edits

/-!
# Stages of a build

A network is built exactly if its three stages come to their ends. The blueprint of a build is the
one that was read with an edited graph, and what was read is described.
-/

namespace SpringArm

variable {γ : Type} [Draws γ]

/-- The stages of a build that comes to its end. -/
structure Build.Stages (limits : Limits) (description seed : Option (List Char)) (draws : γ)
    (build : Build) (blueprint : Blueprint) (expanded : Expansion.Expanded) : Prop where
  read : (Blueprint.read description).value = .ok (blueprint, build.descriptionProblems)
  expand : (Expansion.expand blueprint.rules limits seed).value = .ok expanded
  develop : (Growth.develop limits blueprint (some expanded.text) draws).outcome =
    .ok build.constructionProblems
  blueprint_eq : build.blueprint =
    (Growth.develop limits blueprint (some expanded.text) draws).blueprint
  construction_eq : build.construction = expanded.text
  seedProblems_eq : build.seedProblems = expanded.problems

/-- A build has gone through its stages, and whoever goes through them has a build. -/
theorem buildNetwork_eq_ok_iff {limits : Limits} {description seed : Option (List Char)}
    {draws : γ} {build : Build} :
    (buildNetwork limits description seed draws).value = .ok build ↔
      ∃ blueprint expanded,
        Build.Stages limits description seed draws build blueprint expanded := by
  constructor
  · intro built
    unfold buildNetwork at built
    dsimp only at built
    split at built
    · cases built
    next blueprint problems read =>
      split at built
      · cases built
      next expanded expand =>
        simp only [growBuild, Logged.after] at built
        split at built
        · cases built
        next constructionProblems develop =>
          cases built
          exact ⟨blueprint, expanded, read, expand, develop, rfl, rfl, rfl⟩
  · rintro ⟨blueprint, expanded, read, expand, develop, blueprintEq, constructionEq, problemsEq⟩
    obtain ⟨final, construction, descriptionProblems, seedProblems, constructionProblems⟩ := build
    dsimp only at read develop blueprintEq constructionEq problemsEq
    subst blueprintEq constructionEq problemsEq
    simp only [buildNetwork, growBuild, Logged.after, read, expand, develop]

namespace Build.Stages

variable {limits : Limits} {description seed : Option (List Char)} {draws : γ} {build : Build}
  {blueprint : Blueprint} {expanded : Expansion.Expanded}

theorem described (stages : Build.Stages limits description seed draws build blueprint expanded) :
    blueprint.Described :=
  Blueprint.read_described stages.read

theorem developed (stages : Build.Stages limits description seed draws build blueprint expanded) :
    Growth.Developed limits blueprint expanded.text draws build.blueprint
      build.constructionProblems := by
  rw [stages.blueprint_eq]
  exact Growth.developed_of_outcome stages.develop

/-- Building a network edits the graph that was described. -/
theorem edited (stages : Build.Stages limits description seed draws build blueprint expanded) :
    blueprint.Edited build.blueprint :=
  stages.described.developed_edited stages.developed

theorem sound (stages : Build.Stages limits description seed draws build blueprint expanded) :
    build.blueprint.graph.Sound :=
  stages.described.sound.edits stages.edited.edits

theorem typed (stages : Build.Stages limits description seed draws build blueprint expanded) :
    build.blueprint.graph.Typed :=
  stages.described.typed.edits stages.edited.edits

end Build.Stages

/-- An upper arm with two inputs, a letter for masses and one for springs. -/
def sampleDescription : List Char :=
  "shoulder 0 0\nelbow 0 5\ninput 0 1\ninput 0 4\ncreateMass m [1,2]\ncreateSpring s [0,9]".toList

/-- A seed that is its own expansion: a mass and two springs. -/
def sampleSeed : List Char :=
  "mss".toList

/-- The sample can be built, and whatever can be checked of what is grown from it holds of the
build. -/
theorem sample_built (check : Blueprint → Bool)
    (passes : ((Blueprint.read (some sampleDescription)).value.toOption.any fun reading =>
      let grown := Growth.develop {} reading.1 (some sampleSeed) (SeededDraws.ofSeed 5)
      reading.1.rules.isEmpty && grown.outcome.toBool && check grown.blueprint) = true) :
    ∃ build, (buildNetwork {} (some sampleDescription) (some sampleSeed)
      (SeededDraws.ofSeed 5)).value = .ok build ∧ check build.blueprint = true := by
  have expand : (Expansion.expand [] {} (some sampleSeed)).value = .ok ⟨sampleSeed, []⟩ := by
    have ending : Expansion.ending [] 498 (some 1000) sampleSeed = .complete sampleSeed [] := by
      unfold Expansion.ending
      iterate 3 rw [Expansion.Scan.run_of_step_ok rfl]
      exact Expansion.Scan.run_of_step_error rfl
    simp only [Expansion.expand, Option.getD_some, ending]
  cases read : (Blueprint.read (some sampleDescription)).value with
  | error fault => simp [read, Except.toOption] at passes
  | ok reading =>
    obtain ⟨blueprint, descriptionProblems⟩ := reading
    simp only [read, Except.toOption, Option.any_some, Bool.and_eq_true,
      List.isEmpty_iff] at passes
    obtain ⟨⟨rules, came⟩, checked⟩ := passes
    cases develop : (Growth.develop {} blueprint (some sampleSeed)
        (SeededDraws.ofSeed 5)).outcome with
    | error fault => simp [develop, Except.toBool] at came
    | ok problems =>
      refine ⟨⟨(Growth.develop {} blueprint (some sampleSeed) (SeededDraws.ofSeed 5)).blueprint,
        sampleSeed, descriptionProblems, [], problems⟩, ?_, checked⟩
      exact buildNetwork_eq_ok_iff.mpr
        ⟨blueprint, ⟨sampleSeed, []⟩, read, rules ▸ expand, develop, rfl, rfl, rfl⟩

end SpringArm
