import SpringArm.Blueprint.Arm
import SpringArm.Proofs.Graph.Edit

/-!
# Arm segments as edits

A segment is a new mass that is joined to two joints and two inputs, all different and none of them
joined to it before. `Blueprint.Skeletal` is what holds of a blueprint before its segments are added
and `Blueprint.Described` what holds afterwards: its graph is sound and typed, it has no network,
and its inputs are the inputs of its graph.
-/

namespace SpringArm

namespace Graph

/-- The springs from some masses to one mass, with keys from a number on. -/
def springsTo (target : Mass) (ends : List Mass) (firstKey : Nat) : List Spring :=
  (ends.zipIdx firstKey).map fun (mass, key) => Spring.joining key mass target

/-- Joining masses to one mass adds a spring for each, in their order. -/
theorem foldl_addSpring (graph : Graph) (target : Mass) (ends : List Mass) :
    ends.foldl (fun grown mass => (grown.addSpring mass target).2) graph =
      { graph with
        springs := graph.springs ++ springsTo target ends graph.nextKey
        nextKey := graph.nextKey + ends.length } := by
  induction ends generalizing graph with
  | nil => simp [springsTo]
  | cons mass rest inductionHypothesis =>
    rw [List.foldl_cons, inductionHypothesis]
    simp [springsTo, List.zipIdx_cons]
    omega

theorem mem_springsTo {target : Mass} {ends : List Mass} {firstKey : Nat} {spring : Spring}
    (member : spring ∈ springsTo target ends firstKey) :
    spring.source ∈ ends ∧ spring.destination = target := by
  obtain ⟨⟨mass, key⟩, numbered, rfl⟩ := List.mem_map.mp member
  exact ⟨List.fst_mem_of_mem_zipIdx numbered, rfl⟩

/-- Joining different masses to one mass that none of them is joined to. -/
theorem Sound.foldl_addSpring_edits {graph : Graph} (sound : graph.Sound) {target : Mass}
    (targetMember : target ∈ graph.masses) {ends : List Mass}
    (members : ∀ mass ∈ ends, mass ∈ graph.masses) (nodup : (ends.map Mass.key).Nodup)
    (different : ∀ mass ∈ ends, mass.key ≠ target.key)
    (free : ∀ mass ∈ ends, graph.hasSpringBetween mass target = false)
    (joins : ∀ mass ∈ ends, mass.kind.Joins target.kind) :
    Edits graph (ends.foldl (fun grown mass => (grown.addSpring mass target).2) graph) := by
  induction ends generalizing graph with
  | nil => exact .refl
  | cons mass rest inductionHypothesis =>
    rw [List.forall_mem_cons] at members different free joins
    rw [List.map_cons, List.nodup_cons] at nodup
    have edit : Edit graph (graph.addSpring mass target).2 :=
      .addSpring members.1 targetMember different.1 free.1 joins.1
    apply Relation.ReflTransGen.head edit
    apply inductionHypothesis (sound.edit edit) targetMember members.2 nodup.2 different.2 _ joins.2
    intro other member
    have apart : other.key ≠ mass.key := fun same =>
      nodup.1 (same ▸ List.mem_map_of_mem member)
    have otherFree := free.2 other member
    rw [Bool.eq_false_iff, Ne, hasSpringBetween_iff (different.2 other member)] at otherFree ⊢
    rw [addSpring_springs, List.map_append, List.mem_append, not_or]
    refine ⟨otherFree, ?_⟩
    simp only [List.map_singleton, List.mem_singleton, Spring.pair, Spring.joining, Sym2.eq_iff]
    rintro (⟨same, -⟩ | ⟨same, -⟩)
    · exact apart same
    · exact different.2 other member same

/-- A graph whose segments are being added to a skeleton: so far only segments and springs from
parts of the skeleton have been added. -/
structure Armed (skeleton graph : Graph) : Prop where
  edits : Edits skeleton graph
  masses_eq : ∃ segments, graph.masses = skeleton.masses ++ segments ∧
    ∀ segment ∈ segments, segment.kind = .armSegment
  sources : ∀ spring ∈ graph.springs, spring.source.kind.isPart = true

namespace Armed

variable {skeleton graph : Graph}

theorem mem (armed : Armed skeleton graph) {mass : Mass} (member : mass ∈ skeleton.masses) :
    mass ∈ graph.masses := by
  obtain ⟨segments, masses, -⟩ := armed.masses_eq
  exact masses ▸ List.mem_append_left segments member

/-- Segments are no inputs. -/
theorem inputs_eq (armed : Armed skeleton graph) : graph.inputs = skeleton.inputs := by
  obtain ⟨segments, masses, kinds⟩ := armed.masses_eq
  have none : segments.filter (·.kind == .input) = [] := by
    rw [List.filter_eq_nil_iff]
    intro segment member
    simp [kinds segment member]
  simp [inputs, massesOfKind, masses, none]

/-- Only parts of the skeleton and segments are in an armed graph. -/
theorem kinds (armed : Armed skeleton graph)
    (parts : ∀ mass ∈ skeleton.masses, mass.kind.isPart = true) :
    ∀ mass ∈ graph.masses, mass.kind.isPart = true ∨ mass.kind = .armSegment := by
  obtain ⟨segments, masses, kinds⟩ := armed.masses_eq
  rw [masses, List.forall_mem_append]
  exact ⟨fun mass member => .inl (parts mass member),
    fun segment member => .inr (kinds segment member)⟩

/-- Adding a segment to four different parts of the skeleton. -/
theorem addSegment (armed : Armed skeleton graph) (sound : skeleton.Sound)
    (parts : ∀ mass ∈ skeleton.masses, mass.kind.isPart = true)
    {joint nextJoint first second : Mass}
    (members : ∀ mass ∈ [joint, nextJoint, first, second], mass ∈ skeleton.masses)
    (nodup : ([joint, nextJoint, first, second].map Mass.key).Nodup) :
    Armed skeleton (graph.addSegment joint nextJoint (first, second)).2 ∧
      (graph.addSegment joint nextJoint (first, second)).1 ∈
        (graph.addSegment joint nextJoint (first, second)).2.masses ∧
      (graph.addSegment joint nextJoint (first, second)).1.kind = .armSegment ∧
      graph.nextKey ≤ (graph.addSegment joint nextJoint (first, second)).1.key := by
  have grownSound := sound.edits armed.edits
  have added : Edit graph (graph.addMass joint.x joint.y .armSegment).2 :=
    .addMass _ _ _
  have older : ∀ mass ∈ [joint, nextJoint, first, second], mass.key < graph.nextKey :=
    fun mass member => grownSound.masses_fresh mass (armed.mem (members mass member))
  have joined : Edits (graph.addMass joint.x joint.y .armSegment).2
      (graph.addSegment joint nextJoint (first, second)).2 := by
    apply (grownSound.edit added).foldl_addSpring_edits
    · exact List.mem_append_right _ (List.mem_singleton_self _)
    · exact fun mass member => List.mem_append_left _ (armed.mem (members mass member))
    · exact nodup
    · exact fun mass member => Nat.ne_of_lt (older mass member)
    · intro mass member
      rw [Bool.eq_false_iff, Ne, hasSpringBetween_iff (Nat.ne_of_lt (older mass member)),
        List.mem_map]
      rintro ⟨spring, springMember, pair⟩
      -- The new key would be the key of an end of an old spring.
      have ends := grownSound.ends_mem spring springMember
      have sourceOld := grownSound.masses_fresh _ ends.1
      have destinationOld := grownSound.masses_fresh _ ends.2
      rw [Spring.pair, Sym2.eq_iff] at pair
      simp only at pair
      omega
    · exact fun mass member => .part (parts mass (members mass member))
  obtain ⟨segments, masses, kinds⟩ := armed.masses_eq
  refine ⟨⟨(armed.edits.tail added).trans joined, ?_, ?_⟩, ?_, rfl, Nat.le_refl _⟩
  · refine ⟨segments ++ [⟨graph.nextKey, joint.x, joint.y, .armSegment⟩], ?_, ?_⟩
    · simp [Graph.addSegment, masses]
    · exact List.forall_mem_append.mpr ⟨kinds, List.forall_mem_singleton.mpr rfl⟩
  · simp only [Graph.addSegment, foldl_addSpring]
    refine List.forall_mem_append.mpr ⟨armed.sources, fun spring member => ?_⟩
    exact parts _ (members _ (mem_springsTo member).1)
  · simp [Graph.addSegment]

end Armed

/-- What the addition of a segment between two joints leaves: an armed graph that still has all its
masses, and a segment with a new key, if one was added. -/
structure SegmentAdded (skeleton graph : Graph) (result : Option Mass × Graph) : Prop where
  armed : Armed skeleton result.2
  masses_subset : graph.masses ⊆ result.2.masses
  segment : ∀ mass ∈ result.1,
    mass ∈ result.2.masses ∧ mass.kind = .armSegment ∧ graph.nextKey ≤ mass.key

/-- Between two joints of different kinds a segment is added to an armed graph, or nothing is. -/
theorem Armed.addSegmentBetween? {skeleton graph : Graph} (armed : Armed skeleton graph)
    (sound : skeleton.Sound) (parts : ∀ mass ∈ skeleton.masses, mass.kind.isPart = true)
    {inputs : List Mass} (inputsEq : inputs = skeleton.inputs) (missing : Nat → Notice)
    {joint nextJoint : Option Mass} {kind nextKind : MassKind}
    (jointMember : ∀ mass ∈ joint, mass ∈ skeleton.masses ∧ mass.kind = kind)
    (nextJointMember : ∀ mass ∈ nextJoint, mass ∈ skeleton.masses ∧ mass.kind = nextKind)
    (different : kind ≠ nextKind) (noInput : kind ≠ .input) (nextNoInput : nextKind ≠ .input) :
    SegmentAdded skeleton graph
      (graph.addSegmentBetween? inputs missing joint nextJoint).value := by
  subst inputsEq
  unfold Graph.addSegmentBetween?
  split
  next joint nextJoint =>
    obtain ⟨jointMember, jointKind⟩ := jointMember joint rfl
    obtain ⟨nextMember, nextEq⟩ := nextJointMember nextJoint rfl
    split
    next first second between =>
      have chosen : [first, second].Sublist skeleton.inputs := between ▸ List.filter_sublist
      have inside : [first, second].Sublist skeleton.masses := chosen.trans List.filter_sublist
      have inputKind : ∀ mass ∈ [first, second], mass.kind = .input :=
        fun mass member => (mem_inputs.mp (chosen.subset member)).2
      have members : ∀ mass ∈ [joint, nextJoint, first, second], mass ∈ skeleton.masses :=
        List.forall_mem_cons.mpr ⟨jointMember, List.forall_mem_cons.mpr
          ⟨nextMember, fun mass member => inside.subset member⟩⟩
      have nodup : ([joint, nextJoint, first, second].map Mass.key).Nodup := by
        rw [List.map_cons, List.nodup_cons, List.map_cons, List.nodup_cons]
        refine ⟨?_, ?_, sound.masses_nodup.sublist (inside.map Mass.key)⟩
        · rw [← List.map_cons, List.mem_map]
          rintro ⟨mass, member, key⟩
          rcases List.mem_cons.mp member with rfl | member
          · exact sound.key_ne jointMember nextMember (jointKind ▸ nextEq ▸ different) key.symm
          · exact sound.key_ne jointMember (inside.subset member)
              (jointKind ▸ inputKind mass member ▸ noInput) key.symm
        · rw [List.mem_map]
          rintro ⟨mass, member, key⟩
          exact sound.key_ne nextMember (inside.subset member)
            (nextEq ▸ inputKind mass member ▸ nextNoInput) key.symm
      obtain ⟨grown, member, segmentKind, fresh⟩ := armed.addSegment sound parts members nodup
      refine ⟨grown, ?_, ?_⟩
      · simp [Graph.addSegment]
      · rintro mass ⟨⟩
        exact ⟨member, segmentKind, fresh⟩
    · exact ⟨armed, List.Subset.refl _, by simp⟩
  · exact ⟨armed, List.Subset.refl _, by simp⟩

/-- Joining two segments of an armed graph, the second of which is the newer one. -/
theorem Armed.joinSegments {skeleton graph : Graph} (armed : Armed skeleton graph)
    (sound : skeleton.Sound) {upper lower : Mass} (upperMember : upper ∈ graph.masses)
    (lowerMember : lower ∈ graph.masses) (upperKind : upper.kind = .armSegment)
    (lowerKind : lower.kind = .armSegment) (newer : upper.key < lower.key) :
    Edit graph (graph.addSpring upper lower).2 := by
  have grownSound := sound.edits armed.edits
  apply Edit.addSpring upperMember lowerMember (Nat.ne_of_lt newer)
  · rw [Bool.eq_false_iff, Ne, hasSpringBetween_iff (Nat.ne_of_lt newer), List.mem_map]
    rintro ⟨spring, springMember, pair⟩
    -- Its source would be one of the segments, but it is a part of the skeleton.
    have sourcePart := armed.sources spring springMember
    have sourceMember := (grownSound.ends_mem spring springMember).1
    rw [Spring.pair, Sym2.eq_iff] at pair
    rcases pair with ⟨source, -⟩ | ⟨source, -⟩
    · simp [grownSound.mass_ext sourceMember upperMember source, upperKind,
        MassKind.isPart] at sourcePart
    · simp [grownSound.mass_ext sourceMember lowerMember source, lowerKind,
        MassKind.isPart] at sourcePart
  · rw [upperKind, lowerKind]
    exact .segments

end Graph

namespace Blueprint

/-- A blueprint whose segments are still to be added: its graph has nothing but parts of the
skeleton, its joints are masses of the graph, and its inputs are those of the graph. -/
structure Skeletal (blueprint : Blueprint) : Prop where
  sound : blueprint.graph.Sound
  springless : blueprint.graph.springs = []
  parts : ∀ mass ∈ blueprint.graph.masses, mass.kind.isPart = true
  shoulder_mem : ∀ mass ∈ blueprint.shoulder,
    mass ∈ blueprint.graph.masses ∧ mass.kind = .shoulder
  elbow_mem : ∀ mass ∈ blueprint.elbow, mass ∈ blueprint.graph.masses ∧ mass.kind = .elbow
  hand_mem : ∀ mass ∈ blueprint.hand, mass ∈ blueprint.graph.masses ∧ mass.kind = .hand
  inputs_eq : blueprint.inputs = blueprint.graph.inputs

/-- A blueprint that was read from a description: its graph is sound and typed and has no network,
and its inputs are those of the graph. -/
structure Described (blueprint : Blueprint) : Prop where
  sound : blueprint.graph.Sound
  typed : blueprint.graph.Typed
  networkless : ∀ mass ∈ blueprint.graph.masses, mass.kind ≠ .network
  inputs_eq : blueprint.inputs = blueprint.graph.inputs

private theorem Skeletal.typed {blueprint : Blueprint} (skeletal : blueprint.Skeletal) :
    blueprint.graph.Typed := by
  intro spring member
  rw [skeletal.springless] at member
  exact absurd member List.not_mem_nil

/-- The segments of an arm are added by edits. -/
theorem Skeletal.connectSegments {blueprint : Blueprint} (skeletal : blueprint.Skeletal) :
    blueprint.connectSegments.value.Described := by
  have start : Graph.Armed blueprint.graph blueprint.graph :=
    ⟨.refl, ⟨[], by simp⟩, by simp [skeletal.springless]⟩
  have upperAdded := start.addSegmentBetween? skeletal.sound skeletal.parts skeletal.inputs_eq
    .noUpperSegment skeletal.shoulder_mem skeletal.elbow_mem (by decide) (by decide) (by decide)
  have lowerAdded := upperAdded.armed.addSegmentBetween? skeletal.sound skeletal.parts
    skeletal.inputs_eq .noLowerSegment skeletal.elbow_mem skeletal.hand_mem (by decide)
    (by decide) (by decide)
  unfold Blueprint.connectSegments
  dsimp only
  generalize blueprint.graph.addSegmentBetween? blueprint.inputs .noUpperSegment
    blueprint.shoulder blueprint.elbow = upper at upperAdded lowerAdded ⊢
  obtain ⟨⟨upperSegment, withUpper⟩, _⟩ := upper
  generalize withUpper.addSegmentBetween? blueprint.inputs .noLowerSegment
    blueprint.elbow blueprint.hand = lower at lowerAdded ⊢
  obtain ⟨⟨lowerSegment, withLower⟩, _⟩ := lower
  have armed : Graph.Armed blueprint.graph withLower := lowerAdded.armed
  have networkless : ∀ mass ∈ withLower.masses, mass.kind ≠ .network := by
    intro mass member network
    simpa [network, MassKind.isPart] using armed.kinds skeletal.parts mass member
  have inputs : blueprint.inputs = withLower.inputs :=
    skeletal.inputs_eq.trans armed.inputs_eq.symm
  -- Only if both segments exist there is one more spring.
  have unjoined : ∀ first second, Described
      { blueprint with graph := withLower, upperSegment := first, lowerSegment := second } :=
    fun _ _ => ⟨skeletal.sound.edits armed.edits, skeletal.typed.edits armed.edits, networkless,
      inputs⟩
  cases upperSegment with
  | none => exact unjoined _ _
  | some upperMass =>
    cases lowerSegment with
    | none => exact unjoined _ _
    | some lowerMass =>
      obtain ⟨upperMember, upperKind, upperKey⟩ := upperAdded.segment upperMass rfl
      obtain ⟨lowerMember, lowerKind, lowerKey⟩ := lowerAdded.segment lowerMass rfl
      have older : upperMass.key < withUpper.nextKey :=
        (skeletal.sound.edits upperAdded.armed.edits).masses_fresh upperMass upperMember
      have joined := armed.joinSegments skeletal.sound (lowerAdded.masses_subset upperMember)
        lowerMember upperKind lowerKind (Nat.lt_of_lt_of_le older lowerKey)
      exact ⟨skeletal.sound.edits (armed.edits.tail joined),
        skeletal.typed.edits (armed.edits.tail joined), networkless, inputs⟩

end Blueprint

end SpringArm
