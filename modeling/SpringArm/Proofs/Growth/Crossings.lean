import SpringArm.Proofs.Growth.Frame

/-!
# Uncrossed springs

Where springs must not cross, a growth without random springs adds none that crosses a spring in
front of it. A letter tests a new spring against all that are there, and it is put behind them; what
comes later only takes springs out of the list, which leaves fewer pairs in the same order.
-/

namespace SpringArm

/-- A search that comes to its end and finds nothing has tested every item. -/
theorem anyM_eq_ok_false {α ε : Type} {test : α → Except ε Bool} {items : List α}
    (nothing : items.anyM test = .ok false) : ∀ item ∈ items, test item = .ok false := by
  induction items with
  | nil => simp
  | cons item rest inductionHypothesis =>
    rw [List.anyM_cons] at nothing
    obtain ⟨found, first, others⟩ := bind_eq_ok.mp nothing
    cases found with
    | true => cases others
    | false => exact List.forall_mem_cons.mpr ⟨first, inductionHypothesis others⟩

namespace Graph

/-- A spring that would cross none of a graph crosses none of them when it is made. -/
theorem crosses_of_wouldCross {graph : Graph} {tolerance : Float} {source destination : Mass}
    (free : graph.wouldCross tolerance source destination = .ok false) (key : Nat) :
    ∀ spring ∈ graph.springs,
      (Spring.joining key source destination).crosses tolerance spring = .ok false :=
  anyM_eq_ok_false free

/-- No spring from a key on crosses a spring in front of it. -/
def Uncrossed (tolerance : Float) (firstKey : Nat) (graph : Graph) : Prop :=
  graph.springs.Pairwise fun earlier later =>
    firstKey ≤ later.key → later.crosses tolerance earlier = .ok false

/-- Springs that were there before the key do not count. -/
theorem Uncrossed.of_old {graph : Graph} {tolerance : Float} {firstKey : Nat}
    (old : ∀ spring ∈ graph.springs, spring.key < firstKey) :
    graph.Uncrossed tolerance firstKey :=
  List.pairwise_of_forall_mem_list fun _ _ later member new =>
    absurd new (Nat.not_le_of_lt (old later member))

theorem Uncrossed.addSpring {graph : Graph} {tolerance : Float} {firstKey : Nat}
    (uncrossed : graph.Uncrossed tolerance firstKey) {source destination : Mass}
    (free : graph.wouldCross tolerance source destination = .ok false) :
    (graph.addSpring source destination).2.Uncrossed tolerance firstKey := by
  refine List.pairwise_append.mpr ⟨uncrossed, List.pairwise_singleton _ _, ?_⟩
  intro earlier member later new _
  rw [List.mem_singleton.mp new]
  exact crosses_of_wouldCross free graph.nextKey earlier member

end Graph

/-- A blueprint that asks for springs that do not cross and for no random ones, and has it so. -/
structure Blueprint.Uncrossed (tolerance : Float) (firstKey : Nat) (blueprint : Blueprint) :
    Prop where
  excluded : blueprint.switches.excludeSpringCrossings = true
  noRandom : blueprint.randomSprings ≤ 0
  graph : blueprint.graph.Uncrossed tolerance firstKey

namespace Blueprint.Uncrossed

variable {blueprint : Blueprint} {tolerance : Float} {firstKey : Nat}

theorem withGraph (uncrossed : blueprint.Uncrossed tolerance firstKey) {graph : Graph}
    (graphUncrossed : graph.Uncrossed tolerance firstKey) :
    { blueprint with graph }.Uncrossed tolerance firstKey :=
  ⟨uncrossed.excluded, uncrossed.noRandom, graphUncrossed⟩

end Blueprint.Uncrossed

namespace Growth

variable {γ : Type}

/-- A letter adds no spring that crosses one. -/
theorem LetterRead.uncrossed {limits : Limits} {firstKey : Nat} {trail next : Trail γ}
    {character : Char} {position : Nat}
    (uncrossed : trail.blueprint.Uncrossed limits.endpointTolerance firstKey)
    (read : LetterRead limits trail character position next) :
    next.blueprint.Uncrossed limits.endpointTolerance firstKey := by
  cases read with
  | mass distance point draws template => exact uncrossed.withGraph uncrossed.graph
  | spring distance target draws noMass template candidate =>
    exact uncrossed.withGraph
      (uncrossed.graph.addSpring (candidate.uncrossed uncrossed.excluded))
  | stay distance noMass template => exact uncrossed
  | problem noMass noSpring => exact uncrossed

theorem prune_uncrossed {graph : Graph} {tolerance : Float} {firstKey : Nat}
    (uncrossed : graph.Uncrossed tolerance firstKey) :
    (prune graph).1.Uncrossed tolerance firstKey :=
  List.Pairwise.sublist (prune_sublist graph) uncrossed

theorem dropUnconnected_uncrossed {blueprint : Blueprint} {tolerance : Float} {firstKey : Nat}
    (uncrossed : blueprint.Uncrossed tolerance firstKey) :
    (dropUnconnected blueprint).value.Uncrossed tolerance firstKey := by
  unfold dropUnconnected
  split
  · exact uncrossed
  · exact uncrossed.withGraph uncrossed.graph

variable [Draws γ]

/-- No phase adds a spring that crosses one in front of it. -/
theorem uncrossed_invariant (limits : Limits) (firstKey : Nat) :
    Invariant limits
      (fun trail : Trail γ => trail.blueprint.Uncrossed limits.endpointTolerance firstKey)
      (Blueprint.Uncrossed limits.endpointTolerance firstKey) where
  letter := fun _ _ _ _ uncrossed read => read.uncrossed uncrossed
  read := fun _ uncrossed => uncrossed
  randomMasses := fun blueprint cursor draws uncrossed =>
    addRandomMasses_invariant blueprint cursor draws _ uncrossed
      fun _ _ before => before.withGraph before.graph
  randomSprings := fun blueprint draws uncrossed => by
    simpa only [addRandomSprings, uncrossed.noRandom, if_true] using uncrossed
  prune := fun _ uncrossed => uncrossed.withGraph (prune_uncrossed uncrossed.graph)
  dropUnconnected := fun _ uncrossed => dropUnconnected_uncrossed uncrossed

/-- Where springs must not cross and none are random, the springs of a growth come behind those that
were kept, and none of them crosses a spring in front of it, whether that was kept or grown. -/
theorem develop_uncrossed (limits : Limits) {blueprint : Blueprint} (fresh : blueprint.Fresh)
    (excluded : blueprint.switches.excludeSpringCrossings = true)
    (noRandom : blueprint.randomSprings ≤ 0) (construction : Option (List Char)) (draws : γ) :
    ∃ kept added,
      (develop limits blueprint construction draws).blueprint.graph.springs = kept ++ added ∧
      kept.Sublist blueprint.graph.springs ∧
      (∀ spring ∈ added, blueprint.graph.nextKey ≤ spring.key) ∧
      (∀ later ∈ added, ∀ earlier ∈ kept,
        later.crosses limits.endpointTolerance earlier = .ok false) ∧
      added.Pairwise fun earlier later =>
        later.crosses limits.endpointTolerance earlier = .ok false := by
  cases inputs : startInputs blueprint with
  | nil =>
    rw [develop_of_no_input limits inputs construction draws]
    exact ⟨blueprint.graph.springs, [], by simp⟩
  | cons first others =>
    have grown := develop_grownFrom limits fresh construction draws inputs
    obtain ⟨added, springs, new⟩ := grown.graph.springs_eq
    have old : ∀ spring ∈ blueprint.graph.removeNetwork.springs,
        spring.key < blueprint.graph.nextKey := fresh.graph.removeNetwork.springs_lt
    have uncrossed := (uncrossed_invariant limits blueprint.graph.nextKey).develop inputs
      construction draws ⟨excluded, noRandom, .of_old old⟩
    have pairs := uncrossed.graph
    rw [Graph.Uncrossed, springs, List.pairwise_append] at pairs
    obtain ⟨-, amongAdded, behindKept⟩ := pairs
    have newKey : ∀ spring ∈ added, blueprint.graph.nextKey ≤ spring.key :=
      fun spring member => (new spring member).2
    refine ⟨blueprint.graph.removeNetwork.springs, added, springs, List.filter_sublist, newKey,
      ?_, ?_⟩
    · intro later member earlier kept
      exact behindKept earlier kept later member (newKey later member)
    · exact amongAdded.imp_of_mem fun _ member free => free (newKey _ member)

/-- An upper arm with two inputs beside it, whose springs must not cross. -/
def guardedDescription : List Char :=
  ("shoulder 0 0\nelbow 0 5\ninput 2 1\ninput 2 4\ncreateMass m [1,2]\ncreateSpring s [0,9]\n" ++
    "options excludeSpringCrossings").toList

/-- Four springs are grown behind the four of the arm. -/
theorem develop_uncrossed_sample :
    ∃ blueprint problems, (Blueprint.read (some guardedDescription)).value =
        .ok (blueprint, problems) ∧
      let final := (develop {} blueprint (some "mmssss".toList) (SeededDraws.ofSeed 13)).blueprint
      blueprint.Fresh ∧ blueprint.switches.excludeSpringCrossings = true ∧
        blueprint.randomSprings ≤ 0 ∧ blueprint.graph.springs.length = 4 ∧
        final.graph.springs.length = 8 ∧
        ∃ kept added, final.graph.springs = kept ++ added ∧
          kept.Sublist blueprint.graph.springs ∧
          (∀ later ∈ added, ∀ earlier ∈ kept,
            later.crosses Geometry.endpointTolerance earlier = .ok false) ∧
          added.Pairwise fun earlier later =>
            later.crosses Geometry.endpointTolerance earlier = .ok false := by
  obtain ⟨blueprint, problems, read, checked⟩ := Blueprint.read_checked (some guardedDescription)
    (fun blueprint => blueprint.switches.excludeSpringCrossings && blueprint.randomSprings == 0 &&
      blueprint.graph.springs.length == 4 &&
      (develop {} blueprint (some "mmssss".toList)
        (SeededDraws.ofSeed 13)).blueprint.graph.springs.length == 8)
    (by decide +kernel)
  simp only [Bool.and_eq_true, beq_iff_eq] at checked
  obtain ⟨⟨⟨excluded, noRandom⟩, arm⟩, springs⟩ := checked
  have fresh := (Blueprint.read_described read).fresh
  obtain ⟨kept, added, parts, sublist, -, behind, among⟩ := develop_uncrossed {} fresh excluded
    noRandom.le (some "mmssss".toList) (SeededDraws.ofSeed 13)
  exact ⟨blueprint, problems, read, fresh, excluded, noRandom.le, arm, springs, kept, added, parts,
    sublist, behind, among⟩

end Growth

end SpringArm
