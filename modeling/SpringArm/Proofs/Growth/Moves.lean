import SpringArm.Growth.Basic
import SpringArm.Proofs.Graph.Sound

/-!
# Moves of growth

What a single move of a growth can do, stated once for each kind of move: a letter adds a mass at
the cursor, or leads a spring to a candidate, or does nothing; a pruned mass loses its only spring
or keeps all; a random spring joins two masses of the pool. Whatever every move of a phase keeps is
kept by the phase.
-/

namespace SpringArm

namespace Draws

variable {γ : Type} [Draws γ]

/-- What is chosen is one of the items. -/
theorem choose_mem {α : Type} (items : List α) (nonempty : 0 < items.length) (source : γ) :
    (choose items nonempty source).1 ∈ items :=
  List.getElem_mem _

end Draws

namespace Graph

/-- What makes a candidate reachable. -/
theorem isReachable_eq_true {graph : Graph} {reach : Reach} {origin candidate : Mass}
    (reached : graph.isReachable reach origin candidate = .ok true) :
    candidate.key ≠ origin.key ∧ candidate.kind.isReachable = true ∧
      (reach.excludeCrossings = true →
        graph.wouldCross reach.tolerance origin candidate = .ok false) ∧
      reach.distance.contains (origin.distanceTo candidate) = true := by
  unfold isReachable at reached
  split at reached
  · cases reached
  next allowed =>
    simp only [Mass.same, Bool.or_eq_true, beq_iff_eq, Bool.not_eq_true', not_or,
      Bool.not_eq_false] at allowed
    refine ⟨allowed.1, allowed.2, ?_⟩
    dsimp only at reached
    split at reached
    next excluded =>
      obtain ⟨blocked, crossing, free⟩ := bind_eq_ok.mp reached
      simp only [pure, Except.pure, Except.ok.injEq, Bool.and_eq_true, Bool.not_eq_true'] at free
      exact ⟨fun _ => by rw [crossing, free.1], free.2⟩
    next included =>
      obtain ⟨blocked, unblocked, free⟩ := bind_eq_ok.mp reached
      cases unblocked
      simp only [pure, Except.pure, Except.ok.injEq, Bool.not_false, Bool.true_and] at free
      exact ⟨fun excluded => absurd excluded included, free⟩

/-- The masses that are reached are the reachable ones, in their order. -/
theorem reachableAmong_eq_ok {graph : Graph} {reach : Reach} {origin : Mass}
    {masses reached : List Mass} (found : graph.reachableAmong reach origin masses = .ok reached) :
    reached.Sublist masses ∧
      ∀ mass ∈ reached, graph.isReachable reach origin mass = .ok true := by
  induction masses generalizing reached with
  | nil =>
    cases found
    exact ⟨List.Sublist.refl _, by simp⟩
  | cons candidate rest inductionHypothesis =>
    unfold reachableAmong at found
    obtain ⟨isReached, first, found⟩ := bind_eq_ok.mp found
    obtain ⟨others, later, found⟩ := bind_eq_ok.mp found
    obtain ⟨sublist, each⟩ := inductionHypothesis later
    cases isReached with
    | false =>
      cases found
      exact ⟨sublist.cons candidate, each⟩
    | true =>
      cases found
      exact ⟨sublist.cons_cons candidate, List.forall_mem_cons.mpr ⟨first, each⟩⟩

end Graph

namespace Growth

/-- Growth starts from the inputs of a blueprint that has some. -/
theorem startInputs_of_ne_nil (blueprint : Blueprint) (some : blueprint.inputs ≠ []) :
    startInputs blueprint = blueprint.inputs := by
  simp [startInputs, some]

/-- A mass that a spring from the cursor can lead to. -/
structure Candidate (blueprint : Blueprint) (limits : Limits) (cursor : Mass)
    (distance : Interval) (target : Mass) : Prop where
  mem : target ∈ blueprint.graph.masses
  different : target.key ≠ cursor.key
  reachable : target.kind.isReachable = true
  free : blueprint.graph.hasSpringBetween cursor target = false
  uncrossed : blueprint.switches.excludeSpringCrossings = true →
    blueprint.graph.wouldCross limits.endpointTolerance cursor target = .ok false
  inDistance : distance.contains (cursor.distanceTo target) = true

theorem springCandidates_eq_ok {blueprint : Blueprint} {limits : Limits} {cursor : Mass}
    {distance : Interval} {candidates : List Mass}
    (found : springCandidates blueprint limits cursor distance = .ok candidates) :
    ∀ target ∈ candidates, Candidate blueprint limits cursor distance target := by
  unfold springCandidates at found
  obtain ⟨reached, search, found⟩ := bind_eq_ok.mp found
  cases found
  obtain ⟨sublist, each⟩ := Graph.reachableAmong_eq_ok search
  intro target member
  obtain ⟨wasReached, free⟩ := List.mem_filter.mp member
  obtain ⟨different, reachable, uncrossed, inDistance⟩ :=
    Graph.isReachable_eq_true (each target wasReached)
  exact ⟨sublist.subset wasReached, different, reachable, by simpa using free, uncrossed,
    inDistance⟩

section Letters

variable {γ : Type} [Draws γ]

/-- A spring leads from the cursor to a candidate, or there is none and nothing happens. -/
theorem createSpring_cases {blueprint grown : Blueprint} {limits : Limits} {cursor reached : Mass}
    {distance : Interval} {draws rest : γ}
    (created : createSpring blueprint limits cursor distance draws = .ok (reached, grown, rest)) :
    (Candidate blueprint limits cursor distance reached ∧
        grown = { blueprint with graph := (blueprint.graph.addSpring cursor reached).2 }) ∨
      (reached = cursor ∧ grown = blueprint ∧ rest = draws) := by
  unfold createSpring at created
  obtain ⟨candidates, search, created⟩ := bind_eq_ok.mp created
  dsimp only at created
  split at created
  next nonempty =>
    left
    cases created
    exact ⟨springCandidates_eq_ok search _ (Draws.choose_mem candidates nonempty draws), rfl⟩
  · right
    cases created
    exact ⟨rfl, rfl, rfl⟩

/-- What a character of a construction text does. -/
inductive LetterRead (limits : Limits) (trail : Trail γ) (character : Char) (position : Nat) :
    Trail γ → Prop where
  /-- A mass is added. -/
  | mass (distance : Interval) (point : Geometry.Point Float) (draws : γ)
      (template : trail.blueprint.massTemplates.find? character = some distance) :
      LetterRead limits trail character position
        { trail with blueprint := (addNetworkMass trail.blueprint point).2, draws }
  /-- A spring leads to a candidate, where the cursor goes. -/
  | spring (distance : Interval) (target : Mass) (draws : γ)
      (noMass : trail.blueprint.massTemplates.find? character = none)
      (template : trail.blueprint.springTemplates.find? character = some distance)
      (candidate : Candidate trail.blueprint limits trail.cursor distance target) :
      LetterRead limits trail character position
        { trail with
          blueprint := { trail.blueprint with
            graph := (trail.blueprint.graph.addSpring trail.cursor target).2 }
          cursor := target
          draws }
  /-- There is no candidate for a spring. -/
  | stay (distance : Interval)
      (noMass : trail.blueprint.massTemplates.find? character = none)
      (template : trail.blueprint.springTemplates.find? character = some distance) :
      LetterRead limits trail character position trail
  /-- The character has no template. -/
  | problem (noMass : trail.blueprint.massTemplates.find? character = none)
      (noSpring : trail.blueprint.springTemplates.find? character = none) :
      LetterRead limits trail character position
        { trail with
          problems := trail.problems ++ [⟨position, .unknownConstruction character⟩] }

theorem readLetter_cases {limits : Limits} {trail next : Trail γ} {letter : Char × Nat}
    (read : readLetter limits trail letter = .ok next) :
    LetterRead limits trail letter.1 letter.2 next := by
  obtain ⟨character, position⟩ := letter
  unfold readLetter at read
  dsimp only at read
  cases massTemplate : trail.blueprint.massTemplates.find? character with
  | some distance =>
    simp only [massTemplate] at read
    cases read
    exact .mass distance _ _ massTemplate
  | none =>
    simp only [massTemplate] at read
    cases springTemplate : trail.blueprint.springTemplates.find? character with
    | none =>
      simp only [springTemplate] at read
      cases read
      exact .problem massTemplate springTemplate
    | some distance =>
      simp only [springTemplate] at read
      obtain ⟨⟨reached, grown, rest⟩, created, read⟩ := bind_eq_ok.mp read
      cases read
      rcases createSpring_cases created with ⟨candidate, rfl⟩ | ⟨rfl, rfl, rfl⟩
      · exact .spring distance reached rest massTemplate springTemplate candidate
      · exact .stay distance massTemplate springTemplate

/-- What every letter keeps is kept by a construction text. -/
theorem readConstruction_invariant (limits : Limits) (blueprint : Blueprint) (cursor : Mass)
    (construction : List Char) (draws : γ) (holds : Trail γ → Prop)
    (start : holds ⟨blueprint, cursor, draws, []⟩)
    (kept : ∀ trail next character position, holds trail →
      LetterRead limits trail character position next → holds next) :
    holds (readConstruction limits blueprint cursor construction draws).1 :=
  stepwise_invariant holds start fun trail letter next _ before read =>
    kept trail next letter.1 letter.2 before (readLetter_cases read)

/-- What stands in front of a numbered item are the items below its number. -/
private theorem zipIdx_front {α : Type} {items : List α} {done : List (α × Nat)} {item : α × Nat}
    (inOrder : done ++ [item] <+: items.zipIdx) : done = (items.take item.2).zipIdx := by
  obtain ⟨later, parts⟩ := inOrder
  rw [List.append_assoc, eq_comm, List.zipIdx_eq_append_iff] at parts
  obtain ⟨front, back, rfl, rfl, numbered⟩ := parts
  cases back with
  | nil => cases numbered
  | cons first others =>
    obtain rfl : item = (first, front.length) := by simpa using (List.cons.inj numbered).1
    rw [List.take_left]

/-- What holds at the start, and of the letters read so far behind every letter, holds of the
letters that are read in the end. These are all of them if the text is read to its end. -/
theorem readConstruction_done (limits : Limits) (blueprint : Blueprint) (cursor : Mass)
    (construction : List Char) (draws : γ) (holds : List (Char × Nat) → Trail γ → Prop)
    (start : holds [] ⟨blueprint, cursor, draws, []⟩)
    (kept : ∀ before letter next,
      readConstruction limits blueprint cursor (construction.take letter.2) draws = (before, none) →
      holds (construction.take letter.2).zipIdx before →
      readLetter limits before letter = .ok next →
      holds ((construction.take letter.2).zipIdx ++ [letter]) next) :
    let reading := readConstruction limits blueprint cursor construction draws
    ∃ letters, letters <+: construction.zipIdx ∧ holds letters reading.1 ∧
      (reading.2 = none → letters = construction.zipIdx) := by
  obtain ⟨letters, inOrder, -, held, all⟩ := stepwise_done holds construction.zipIdx start (by
    intro letters before letter next inOrder soFar held read
    obtain rfl := zipIdx_front inOrder
    exact kept before letter next soFar held read)
  exact ⟨letters, inOrder, held, all⟩

end Letters

section Random

variable {γ : Type} [Draws γ]

/-- What every new network mass keeps is kept by the random masses. -/
theorem addRandomMasses_invariant (blueprint : Blueprint) (cursor : Mass) (draws : γ)
    (holds : Blueprint → Prop) (start : holds blueprint)
    (kept : ∀ before point, holds before → holds (addNetworkMass before point).2) :
    holds (addRandomMasses blueprint cursor draws).value.2.1 := by
  have repeated : ∀ shoulder hand count before (source : γ), holds before →
      holds (repeatRandomMass cursor shoulder hand count before source).1 := by
    intro shoulder hand count
    induction count with
    | zero => exact fun before source given => given
    | succ count inductionHypothesis =>
      intro before source given
      exact inductionHypothesis _ _ (kept before _ given)
  unfold addRandomMasses
  split
  · exact start
  · split
    · exact repeated _ _ _ _ _ start
    · exact start

/-- The ends of a random spring come from the pool or from the inputs. -/
theorem drawEnds_mem {inputs pool : List Mass} (nonempty : 0 < pool.length) (inputChance : Float)
    (draws : γ) (subset : inputs ⊆ pool) :
    (drawEnds inputs pool nonempty inputChance draws).1.1 ∈ pool ∧
      (drawEnds inputs pool nonempty inputChance draws).1.2 ∈ pool := by
  have source := Draws.choose_mem pool nonempty draws
  have destination := Draws.choose_mem pool nonempty (Draws.choose pool nonempty draws).2
  unfold drawEnds
  dsimp only
  split
  next someInput =>
    split
    · split
      · exact ⟨source, subset (Draws.choose_mem inputs someInput _)⟩
      · exact ⟨source, destination⟩
    · exact ⟨source, destination⟩
  · exact ⟨source, destination⟩

/-- What every spring between accepted ends keeps is kept by all attempts. -/
theorem attemptSprings_invariant {inputs pool : List Mass} (nonempty : 0 < pool.length)
    {inputChance : Float} (subset : inputs ⊆ pool) (holds : Graph → Prop)
    (kept : ∀ graph, ∀ source ∈ pool, ∀ destination ∈ pool, holds graph →
      acceptsEnds graph source destination = true →
      holds (graph.addSpring source destination).2)
    (attempts wanted : Nat) {graph : Graph} (draws : γ) (start : holds graph) :
    holds (attemptSprings inputs pool nonempty inputChance attempts wanted graph draws).2.1 := by
  induction attempts generalizing wanted graph draws with
  | zero => exact start
  | succ attempts inductionHypothesis =>
    cases wanted with
    | zero => exact start
    | succ wanted =>
      obtain ⟨source, destination⟩ := drawEnds_mem nonempty inputChance draws subset
      unfold attemptSprings
      dsimp only
      split
      next accepted =>
        exact inductionHypothesis _ _ (kept graph _ source _ destination start accepted)
      · exact inductionHypothesis _ _ start

/-- What every spring between accepted masses of the network and the inputs keeps is kept by the
random springs. -/
theorem addRandomSprings_invariant (blueprint : Blueprint) (limits : Limits) (draws : γ)
    (holds : Graph → Prop) (start : holds blueprint.graph)
    (kept : ∀ graph, ∀ source ∈ springPool blueprint.graph,
      ∀ destination ∈ springPool blueprint.graph, holds graph →
      acceptsEnds graph source destination = true →
      holds (graph.addSpring source destination).2) :
    holds (addRandomSprings blueprint limits draws).value.2.1.graph := by
  unfold addRandomSprings
  split
  · exact start
  · split
    · exact attemptSprings_invariant _ (List.subset_append_right ..) holds kept _ _ _ start
    · exact start

end Random

/-- Pruning a mass takes its only spring out; where there are none or several it changes nothing. -/
theorem pruneMass_cases {before after : Graph} {mass : Mass}
    (pruned : pruneMass before mass = .ok after) :
    (∃ spring, before.springsOf mass = [spring] ∧ before.removeSpring spring = .ok after) ∨
      before.degree mass ≠ 1 ∧ after = before := by
  unfold pruneMass at pruned
  split at pruned
  next spring only => exact .inl ⟨spring, only, pruned⟩
  next several =>
    refine .inr ⟨fun single => ?_, (Except.ok.inj pruned).symm⟩
    obtain ⟨spring, only⟩ := List.length_eq_one_iff.mp single
    exact several spring only

/-- Pruning takes springs out and keeps the order of the others. -/
theorem prune_sublist (graph : Graph) : (prune graph).1.springs.Sublist graph.springs := by
  apply stepwise_invariant (fun reached : Graph => reached.springs.Sublist graph.springs)
    (List.Sublist.refl _)
  intro before mass after _ sublist pruned
  rcases pruneMass_cases pruned with ⟨spring, -, removed⟩ | ⟨-, rfl⟩
  · rw [Graph.removeSpring_eq_ok removed]
    exact List.eraseP_sublist.trans sublist
  · exact sublist

/-- Pruning a mass never fails: its only spring is one of the graph. -/
theorem pruneMass_succeeds (graph : Graph) (mass : Mass) :
    ∃ pruned, pruneMass graph mass = .ok pruned := by
  unfold pruneMass
  split
  next spring only =>
    have ends : spring ∈ graph.springsOf mass := by simp [only]
    have found : graph.springs.any (·.same spring) = true :=
      List.any_eq_true.mpr ⟨spring, (List.mem_filter.mp ends).1, beq_self_eq_true spring.key⟩
    exact ⟨_, if_pos found⟩
  · exact ⟨graph, rfl⟩

/-- Pruning never fails. -/
theorem prune_succeeds (graph : Graph) : (prune graph).2 = none := by
  have each : ∀ before mass, (∃ after, pruneMass before mass = .ok after) ↔ True :=
    fun before mass => iff_of_true (pruneMass_succeeds before mass) trivial
  exact (stepwise_succeeds_iff each graph graph.networkMasses).mpr fun _ _ => trivial

section Phases

variable {γ : Type} [Draws γ]

/-- What every phase of a growth keeps: `reading` holds while the construction text is read, and
`holds` of the blueprint from then on. -/
structure Invariant (limits : Limits) (reading : Trail γ → Prop) (holds : Blueprint → Prop) :
    Prop where
  letter : ∀ trail next character position, reading trail →
    LetterRead limits trail character position next → reading next
  read : ∀ trail, reading trail → holds trail.blueprint
  randomMasses : ∀ blueprint cursor (draws : γ), holds blueprint →
    holds (addRandomMasses blueprint cursor draws).value.2.1
  randomSprings : ∀ blueprint (draws : γ), holds blueprint →
    holds (addRandomSprings blueprint limits draws).value.2.1
  prune : ∀ blueprint, holds blueprint → holds { blueprint with graph := (prune blueprint.graph).1 }
  dropUnconnected : ∀ blueprint, holds blueprint → holds (dropUnconnected blueprint).value

/-- A growth from an input leaves a blueprint of which the invariant holds, whether it comes to its
end or not. -/
theorem Invariant.develop {limits : Limits} {reading : Trail γ → Prop} {holds : Blueprint → Prop}
    (invariant : Invariant limits reading holds) {blueprint : Blueprint} {first : Mass}
    {others : List Mass} (inputs : startInputs blueprint = first :: others)
    (construction : Option (List Char)) (draws : γ)
    (start : reading
      ⟨{ blueprint with graph := blueprint.graph.removeNetwork }, first, draws, []⟩) :
    holds (develop limits blueprint construction draws).blueprint := by
  have read := readConstruction_invariant limits
    { blueprint with graph := blueprint.graph.removeNetwork } first (construction.getD []) draws
    reading start invariant.letter
  simp only [Growth.develop, inputs]
  split
  next trail fault reads =>
    rw [reads] at read
    exact invariant.read trail read
  next trail reads =>
    rw [reads] at read
    have random := invariant.randomSprings _
      (addRandomMasses trail.blueprint trail.cursor trail.draws).value.2.2
      (invariant.randomMasses trail.blueprint trail.cursor trail.draws
        (invariant.read trail read))
    have pruned := invariant.prune _ random
    simp only [finish]
    split
    next graph fault prunes =>
      rw [prunes] at pruned
      exact pruned
    next graph prunes =>
      rw [prunes] at pruned
      exact invariant.dropUnconnected _ pruned

/-- Without an input to grow from nothing happens. -/
theorem develop_of_no_input (limits : Limits) {blueprint : Blueprint}
    (inputs : startInputs blueprint = []) (construction : Option (List Char)) (draws : γ) :
    develop limits blueprint construction draws =
      ⟨blueprint, draws, [.nothingToDevelop], .ok []⟩ := by
  simp only [develop, inputs]

end Phases

end Growth

end SpringArm
