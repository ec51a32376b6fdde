import SpringArm.Proofs.Build.Stages
import SpringArm.Proofs.Growth.Masses

/-!
# The walk of a construction text

The springs that a construction text makes are one walk: the first one leads from the input where
the cursor starts, and every other one from the mass to which the one before has led. A letter
without a candidate is passed and leaves the walk where it is. No later phase of a growth moves a
mass, so a spring of the walk keeps its length as long as it is there.
-/

namespace SpringArm.Growth

variable {γ : Type}

/-- A spring with the letter that has made it and the position of this letter. That the letter has
made it is what `Stride.MadeAt` says. -/
structure Stride where
  letter : Char
  position : Nat
  spring : Spring

/-- What a stride does to a trail: its spring comes behind the others and leads from the cursor
before it to the cursor after it. -/
structure Stride.Taken (before after : Trail γ) (stride : Stride) : Prop where
  springs : after.blueprint.graph.springs = before.blueprint.graph.springs ++ [stride.spring]
  source : stride.spring.source = before.cursor
  destination : stride.spring.destination = after.cursor

/-- What a letter asks of its spring. The letter makes springs and no masses, and the length of the
spring is a distance of the letter. The spring leads to another mass, which is an input or in the
network. -/
structure Stride.Led (blueprint : Blueprint) (masses : List Mass) (stride : Stride) : Prop where
  noMass : blueprint.massTemplates.find? stride.letter = none
  inDistance : ∃ distance, blueprint.springTemplates.find? stride.letter = some distance ∧
    distance.contains stride.spring.length = true
  destination_mem : stride.spring.destination ∈ masses
  destination_kind :
    stride.spring.destination.kind = .network ∨ stride.spring.destination.kind = .input
  different : stride.spring.destination.key ≠ stride.spring.source.key

theorem Stride.Led.mono {blueprint : Blueprint} {masses more : List Mass} {stride : Stride}
    (led : stride.Led blueprint masses) (subset : masses ⊆ more) : stride.Led blueprint more :=
  { led with destination_mem := subset led.destination_mem }

/-- A trail whose springs are a walk from a first mass to its cursor, with the letters that have
made them among those that were read. -/
structure Trail.Walked (base : Blueprint) (first : Mass) (letters : List (Char × Nat))
    (trail : Trail γ) (strides : List Stride) : Prop where
  rest : trail.blueprint = { base with graph := trail.blueprint.graph }
  springs : trail.blueprint.graph.springs = base.graph.springs ++ strides.map (·.spring)
  chain : strides.map (·.spring.source) ++ [trail.cursor] =
    first :: strides.map (·.spring.destination)
  letters : (strides.map fun stride => (stride.letter, stride.position)).Sublist letters
  led : ∀ stride ∈ strides, stride.Led base trail.blueprint.graph.masses

/-- A letter goes one stride further, or stays. -/
theorem LetterRead.walked {limits : Limits} {base : Blueprint} {first : Mass}
    {letters : List (Char × Nat)} {trail next : Trail γ} {strides : List Stride} {character : Char}
    {position : Nat} (walked : trail.Walked base first letters strides)
    (read : LetterRead limits trail character position next) :
    ∃ further, next.Walked base first (letters ++ [(character, position)]) further ∧
      ∀ stride ∈ further, stride ∈ strides ∨
        stride.letter = character ∧ stride.position = position ∧ stride.Taken trail next := by
  have rest : next.blueprint = { base with graph := next.blueprint.graph } := by
    rw [read.rest, walked.rest]
  have passed := walked.letters.trans (List.sublist_append_left letters [(character, position)])
  cases read with
  | mass distance point draws template =>
    have more : trail.blueprint.graph.masses ⊆
        (addNetworkMass trail.blueprint point).2.graph.masses := List.subset_append_left ..
    exact ⟨strides, ⟨rest, walked.springs, walked.chain, passed,
      fun stride member => (walked.led stride member).mono more⟩, fun _ member => .inl member⟩
  | spring distance target draws noMass template candidate =>
    have fromBase : trail.blueprint.massTemplates = base.massTemplates ∧
        trail.blueprint.springTemplates = base.springTemplates := by
      rw [walked.rest]
      exact ⟨rfl, rfl⟩
    let stride : Stride :=
      ⟨character, position, .joining trail.blueprint.graph.nextKey trail.cursor target⟩
    have led : stride.Led base trail.blueprint.graph.masses :=
      { noMass := fromBase.1 ▸ noMass
        inDistance := ⟨distance, fromBase.2 ▸ template, candidate.inDistance⟩
        destination_mem := candidate.mem
        destination_kind := by simpa [MassKind.isReachable, stride] using candidate.reachable
        different := candidate.different }
    refine ⟨strides ++ [stride], ⟨rest, ?_, ?_, ?_, ?_⟩, fun taken member => ?_⟩
    · simp [walked.springs, stride]
    · calc (strides ++ [stride]).map (·.spring.source) ++ [target]
          = (strides.map (·.spring.source) ++ [trail.cursor]) ++ [target] := by simp [stride]
        _ = (first :: strides.map (·.spring.destination)) ++ [target] := by rw [walked.chain]
        _ = first :: (strides ++ [stride]).map (·.spring.destination) := by simp [stride]
    · rw [List.map_append]
      exact walked.letters.append (List.Sublist.refl _)
    · exact List.forall_mem_append.mpr ⟨walked.led, List.forall_mem_singleton.mpr led⟩
    · refine (List.mem_append.mp member).imp_right fun new => ?_
      obtain rfl := List.mem_singleton.mp new
      exact ⟨rfl, rfl, rfl, rfl, rfl⟩
  | stay distance noMass template =>
    exact ⟨strides, ⟨rest, walked.springs, walked.chain, passed, walked.led⟩,
      fun _ member => .inl member⟩
  | problem noMass noSpring =>
    exact ⟨strides, ⟨rest, walked.springs, walked.chain, passed, walked.led⟩,
      fun _ member => .inl member⟩

variable [Draws γ]

/-- The step of a construction text that has made a stride. What stands in front of its letter has
been read, and reading the letter takes the stride. -/
def Stride.MadeAt (limits : Limits) (blueprint : Blueprint) (cursor : Mass)
    (construction : List Char) (draws : γ) (stride : Stride) : Prop :=
  ∃ before after : Trail γ,
    readConstruction limits blueprint cursor (construction.take stride.position) draws =
      (before, none) ∧
    readLetter limits before (stride.letter, stride.position) = .ok after ∧
    stride.Taken before after

/-- The springs that a construction text makes are a walk, even if the text is not read to its end,
and each of its strides was made by the letter at its position. -/
theorem readConstruction_walked (limits : Limits) (blueprint : Blueprint) (first : Mass)
    (construction : List Char) (draws : γ) :
    ∃ strides, (readConstruction limits blueprint first construction draws).1.Walked blueprint first
        construction.zipIdx strides ∧
      ∀ stride ∈ strides, stride.MadeAt limits blueprint first construction draws := by
  obtain ⟨letters, inOrder, ⟨strides, walked, made⟩, -⟩ := readConstruction_done limits blueprint
    first construction draws
    (fun letters trail => ∃ strides, trail.Walked blueprint first letters strides ∧
      ∀ stride ∈ strides, stride.MadeAt limits blueprint first construction draws)
    ⟨[], ⟨rfl, by simp, rfl, by simp, by simp⟩, by simp⟩ (by
      rintro before ⟨letter, position⟩ next soFar ⟨strides, walked, made⟩ step
      obtain ⟨further, walkedFurther, each⟩ := (readLetter_cases step).walked walked
      refine ⟨further, walkedFurther, fun stride member => ?_⟩
      rcases each stride member with earlier | ⟨rfl, rfl, taken⟩
      · exact made stride earlier
      · exact ⟨before, next, soFar, step, taken⟩)
  exact ⟨strides, ⟨walked.rest, walked.springs, walked.chain,
    walked.letters.trans inOrder.sublist, walked.led⟩, made⟩

/-- Growing a network edits the graph of a described blueprint, whether it comes to its end or
not. -/
theorem develop_edited {blueprint : Blueprint} (described : blueprint.Described) (limits : Limits)
    {first : Mass} {others : List Mass} (inputs : startInputs blueprint = first :: others)
    (construction : Option (List Char)) (draws : γ) :
    blueprint.Edited (develop limits blueprint construction draws).blueprint := by
  cases read : readConstruction limits { blueprint with graph := blueprint.graph.removeNetwork }
      first (construction.getD []) draws with
  | mk trail fault =>
    cases fault with
    | some fault =>
      rw [develop_of_input limits inputs, read]
      exact (described.trail_placed inputs read).edited
    | none =>
      have outcome :
          (develop limits blueprint construction draws).outcome = .ok trail.problems := by
        rw [develop_of_input limits inputs, read]
        exact finish_outcome limits trail
      exact described.developed_edited (developed_of_outcome outcome)

/-- Random masses and springs come behind the springs of the walk. -/
theorem withRandom_springs (limits : Limits) (trail : Trail γ) :
    trail.blueprint.graph.springs <+: (withRandom limits trail).graph.springs := by
  have masses := addRandomMasses_invariant trail.blueprint trail.cursor trail.draws
    (fun grown => grown.graph.springs = trail.blueprint.graph.springs) rfl fun _ _ same => same
  unfold withRandom
  rw [← masses]
  exact addRandomSprings_invariant _ limits _
    (fun graph => _ <+: graph.springs) (List.prefix_refl _)
    fun _ _ _ _ _ before _ => before.trans (List.prefix_append _ _)

theorem dropUnconnected_springs (blueprint : Blueprint) :
    (dropUnconnected blueprint).value.graph.springs = blueprint.graph.springs := by
  unfold dropUnconnected
  split <;> rfl

/-- What a growth leaves of its springs was there when the random springs had been added. -/
theorem conclude_springs (limits : Limits) (trail : Trail γ)
    (fault : Option Geometry.ArithmeticFault) :
    (conclude limits (trail, fault)).blueprint.graph.springs ⊆
      (withRandom limits trail).graph.springs := by
  cases fault with
  | some fault => exact (withRandom_springs limits trail).subset
  | none =>
    simp only [conclude, finish_blueprint, dropUnconnected_springs]
    exact (prune_sublist (withRandom limits trail).graph).subset

/-- The springs that a construction text makes are one walk. They come behind the springs that were
kept. The first one leads from the first input, every other one from where the one before has led,
and the cursor ends where the last one leads. No two of them join the same masses. Each was made by
the step that has read its letter at its position, from the text in front of it. Each leads to an
input or into the network and is as long as its letter allows; and where it is still there when the
growth is over, its ends are the same masses at the same places. -/
theorem develop_walk (limits : Limits) {description : Option (List Char)} {blueprint : Blueprint}
    {problems : List Problem}
    (read : (Blueprint.read description).value = .ok (blueprint, problems)) {first : Mass}
    {others : List Mass} (inputs : blueprint.inputs = first :: others)
    (construction : Option (List Char)) (draws : γ) :
    let cleared := { blueprint with graph := blueprint.graph.removeNetwork }
    let trail := (readConstruction limits cleared first (construction.getD []) draws).1
    let final := (develop limits blueprint construction draws).blueprint
    ∃ strides : List Stride,
      trail.blueprint.graph.springs = cleared.graph.springs ++ strides.map (·.spring) ∧
      strides.map (·.spring.source) ++ [trail.cursor] =
        first :: strides.map (·.spring.destination) ∧
      (strides.map (·.spring.pair)).Nodup ∧
      (strides.map fun stride => (stride.letter, stride.position)).Sublist
        (construction.getD []).zipIdx ∧
      (∀ stride ∈ strides, stride.MadeAt limits cleared first (construction.getD []) draws) ∧
      (∀ stride ∈ strides, stride.Led blueprint trail.blueprint.graph.masses) ∧
      ∀ stride ∈ strides, ∀ spring ∈ final.graph.springs, spring.key = stride.spring.key →
        spring = stride.spring ∧ spring.source ∈ final.graph.masses ∧
          spring.destination ∈ final.graph.masses := by
  intro cleared trail final
  have described := Blueprint.read_described read
  have starts : startInputs blueprint = first :: others :=
    (startInputs_of_ne_nil blueprint (by simp [inputs])).trans inputs
  obtain ⟨strides, walked, made⟩ :=
    readConstruction_walked limits cleared first (construction.getD []) draws
  have placed := described.trail_placed starts (Prod.eta (readConstruction limits cleared first
    (construction.getD []) draws)).symm
  have sound := described.sound.edits placed.edited.edits
  have wholeSound := sound.edits (withRandom_edited limits trail).edits
  have finalSound :=
    described.sound.edits (develop_edited described limits starts construction draws).edits
  have left : final.graph.springs ⊆ (withRandom limits trail).graph.springs := by
    simp only [final, develop_of_input limits starts]
    exact conclude_springs limits trail _
  have strideMember : ∀ stride ∈ strides, stride.spring ∈ trail.blueprint.graph.springs := by
    intro stride member
    rw [walked.springs]
    exact List.mem_append_right _ (List.mem_map_of_mem member)
  refine ⟨strides, walked.springs, walked.chain, ?_, walked.letters, made, ?_, ?_⟩
  · have simple := sound.simple
    rw [walked.springs, List.map_append, List.map_map] at simple
    exact (List.nodup_append.mp simple).2.1
  · intro stride member
    have led := walked.led stride member
    exact ⟨led.noMass, led.inDistance, led.destination_mem, led.destination_kind, led.different⟩
  · intro stride member spring isLeft keys
    have same := wholeSound.spring_ext (left isLeft)
      ((withRandom_springs limits trail).subset (strideMember stride member)) keys
    exact ⟨same, finalSound.ends_mem spring isLeft⟩

/-- The sample walks two strides, which are there in the end. -/
theorem develop_walk_sample :
    ∃ blueprint problems first others, (Blueprint.read (some sampleDescription)).value =
        .ok (blueprint, problems) ∧ blueprint.inputs = first :: others ∧
      let cleared := { blueprint with graph := blueprint.graph.removeNetwork }
      let trail := (readConstruction {} cleared first sampleSeed (SeededDraws.ofSeed 5)).1
      let final := (develop {} blueprint (some sampleSeed) (SeededDraws.ofSeed 5)).blueprint
      ∃ strides : List Stride, strides.length = 2 ∧
        strides.map (·.spring.source) ++ [trail.cursor] =
          first :: strides.map (·.spring.destination) ∧
        (∀ stride ∈ strides,
          stride.MadeAt {} cleared first sampleSeed (SeededDraws.ofSeed 5)) ∧
        (∀ stride ∈ strides, stride.Led blueprint trail.blueprint.graph.masses) ∧
        final.graph.springs.length = cleared.graph.springs.length + 2 := by
  obtain ⟨blueprint, problems, read, checked⟩ := Blueprint.read_checked (some sampleDescription)
    (fun blueprint => blueprint.inputs.head?.any fun first =>
      let cleared := { blueprint with graph := blueprint.graph.removeNetwork }
      let trail := (readConstruction {} cleared first sampleSeed (SeededDraws.ofSeed 5)).1
      let final := (develop {} blueprint (some sampleSeed) (SeededDraws.ofSeed 5)).blueprint
      trail.blueprint.graph.springs.length == cleared.graph.springs.length + 2 &&
        final.graph.springs.length == cleared.graph.springs.length + 2)
    (by decide +kernel)
  obtain ⟨first, head, checked⟩ := (Option.any_eq_true _ _).mp checked
  obtain ⟨others, inputs⟩ := List.head?_eq_some_iff.mp head
  simp only [Bool.and_eq_true, beq_iff_eq] at checked
  obtain ⟨strides, springs, chain, -, -, made, led, -⟩ :=
    develop_walk {} read inputs (some sampleSeed) (SeededDraws.ofSeed 5)
  refine ⟨blueprint, problems, first, others, read, inputs, strides, ?_, chain, made, led,
    checked.2⟩
  have length := congrArg List.length springs
  rw [List.length_append, List.length_map] at length
  have walked := checked.1
  dsimp only [Option.getD_some] at length walked
  omega

end SpringArm.Growth
