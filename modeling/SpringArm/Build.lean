import SpringArm.Blueprint.Reading
import SpringArm.Expansion.Basic
import SpringArm.Growth.Basic

/-!
# Build

The whole way from a description and a seed to a grown network: the description is read, the seed is
expanded with its rules, and the network is grown from the expansion. Problems of the three stages
are collected apart.
-/

namespace SpringArm

open Expansion (ExpansionFault)
open Growth (GrowthFault)

/-- Why a network is not built. -/
inductive BuildFault where
  | description (fault : Decimal.IntegerFault)
  | seed (fault : ExpansionFault)
  | growth (fault : GrowthFault)
deriving DecidableEq

/-- The text of a build fault. -/
def BuildFault.message : BuildFault → String
  | .description fault => fault.message
  | .seed fault => fault.message
  | .growth fault => fault.message

/-- A grown network with everything that was found on the way. -/
structure Build where
  blueprint : Blueprint
  /-- The expanded seed. -/
  construction : List Char
  descriptionProblems : List Problem
  seedProblems : List Problem
  constructionProblems : List Problem

namespace Build

/-- Some stage has found a problem. -/
def hasProblems (build : Build) : Bool :=
  !build.descriptionProblems.isEmpty || !build.seedProblems.isEmpty
    || !build.constructionProblems.isEmpty

/-- The notice that ends a build. -/
def summary (build : Build) : Notice :=
  .networkBuilt build.blueprint.graph.masses.length build.blueprint.graph.springs.length
    build.descriptionProblems.length build.seedProblems.length build.constructionProblems.length

end Build

variable {γ : Type} [Draws γ]

/-- Grows the network of a blueprint that was read and a seed that was expanded. -/
def growBuild (limits : Limits) (blueprint : Blueprint) (descriptionProblems : List Problem)
    (expanded : Expansion.Expanded) (draws : γ) : Logged (Except BuildFault Build) :=
  let grown := Growth.develop limits blueprint (some expanded.text) draws
  match grown.outcome with
  | .error fault => ⟨.error (.growth fault), grown.notices⟩
  | .ok constructionProblems =>
    let build : Build :=
      ⟨grown.blueprint, expanded.text, descriptionProblems, expanded.problems,
        constructionProblems⟩
    ⟨.ok build, grown.notices ++ [build.summary]⟩

/-- Builds a network from a description, a seed and a source of draws. -/
def buildNetwork (limits : Limits) (description seed : Option (List Char)) (draws : γ) :
    Logged (Except BuildFault Build) :=
  let reading := Blueprint.read description
  match reading.value with
  | .error fault => ⟨.error (.description fault), reading.notices⟩
  | .ok (blueprint, descriptionProblems) =>
    let expansion := Expansion.expand blueprint.rules limits seed
    let stages := reading.notices ++ expansion.notices
    match expansion.value with
    | .error fault => ⟨.error (.seed fault), stages⟩
    | .ok expanded =>
      (growBuild limits blueprint descriptionProblems expanded draws).after stages

end SpringArm
