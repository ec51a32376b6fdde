import SpringArm.Proofs.Graph.Edit

/-!
# Joined masses

Masses are joined by paths of springs. `Graph.Rooted` says that every network mass with a spring is
joined to one root. New masses and springs from joined masses keep a graph rooted, and so does
taking the only spring of a network mass out: no path from the root to another mass needs it.
-/

namespace SpringArm

/-- A spring joins two masses, in one direction or the other. -/
def Spring.Joins (spring : Spring) (first second : Mass) : Prop :=
  spring.source = first ∧ spring.destination = second ∨
    spring.source = second ∧ spring.destination = first

theorem Spring.Joins.symm {spring : Spring} {first second : Mass}
    (joins : spring.Joins first second) : spring.Joins second first :=
  Or.symm joins

/-- A spring has two ends, in one order or the other. -/
theorem Spring.Joins.unique {spring : Spring} {first second third fourth : Mass}
    (left : spring.Joins first second) (right : spring.Joins third fourth) :
    first = third ∧ second = fourth ∨ first = fourth ∧ second = third := by
  rcases left with ⟨rfl, rfl⟩ | ⟨rfl, rfl⟩
  · exact right
  · exact right.symm.imp And.symm And.symm

namespace Graph

/-- Some spring of the graph joins two masses. -/
def Adjacent (graph : Graph) (first second : Mass) : Prop :=
  ∃ spring ∈ graph.springs, spring.Joins first second

/-- A path of springs leads from one mass to another. -/
abbrev Joined (graph : Graph) : Mass → Mass → Prop :=
  Relation.ReflTransGen graph.Adjacent

/-- Every network mass with a spring is joined to a root outside the network. -/
structure Rooted (graph : Graph) (root : Mass) : Prop where
  outside : root.kind ≠ .network
  joined : ∀ mass other, graph.Adjacent mass other → mass.kind = .network →
    graph.Joined root mass

variable {graph after : Graph} {root : Mass}

theorem Adjacent.symm {first second : Mass} (adjacent : graph.Adjacent first second) :
    graph.Adjacent second first := by
  obtain ⟨spring, member, joins⟩ := adjacent
  exact ⟨spring, member, joins.symm⟩

/-- With more springs there are more paths. -/
theorem Joined.mono {first second : Mass} (more : graph.springs ⊆ after.springs)
    (joined : graph.Joined first second) : after.Joined first second := by
  induction joined with
  | refl => exact .refl
  | tail _ adjacent inductionHypothesis =>
    obtain ⟨spring, member, joins⟩ := adjacent
    exact inductionHypothesis.tail ⟨spring, more member, joins⟩

/-- Whether a graph is rooted depends on its springs only. -/
theorem Rooted.congr (rooted : graph.Rooted root) (springs : after.springs = graph.springs) :
    after.Rooted root := by
  refine ⟨rooted.outside, ?_⟩
  rintro mass other ⟨spring, member, joins⟩ network
  rw [springs] at member
  have joined := rooted.joined mass other ⟨spring, member, joins⟩ network
  exact joined.mono (by rw [springs]; exact List.Subset.refl _)

/-- Without springs into the network there is nothing to show. -/
theorem Rooted.removeNetwork (outside : root.kind ≠ .network) :
    graph.removeNetwork.Rooted root := by
  refine ⟨outside, ?_⟩
  rintro mass other ⟨spring, member, joins⟩ network
  have untouched := (List.mem_filter.mp member).2
  simp only [Spring.touchesNetwork, Bool.not_or, Bool.and_eq_true, Bool.not_eq_true',
    beq_eq_false_iff_ne] at untouched
  rcases joins with ⟨source, -⟩ | ⟨-, destination⟩
  · exact absurd (source ▸ network) untouched.1
  · exact absurd (destination ▸ network) untouched.2

/-- A spring that leads away from a joined mass. -/
theorem Rooted.addSpring (rooted : graph.Rooted root) {source : Mass}
    (joined : graph.Joined root source) (destination : Mass) :
    (graph.addSpring source destination).2.Rooted root ∧
      (graph.addSpring source destination).2.Joined root destination := by
  have more : graph.springs ⊆ (graph.addSpring source destination).2.springs :=
    List.subset_append_left ..
  have new : (graph.addSpring source destination).2.Adjacent source destination :=
    ⟨_, List.mem_append_right _ (List.mem_singleton_self _), .inl ⟨rfl, rfl⟩⟩
  have reached := (joined.mono more).tail new
  refine ⟨⟨rooted.outside, ?_⟩, reached⟩
  rintro mass other ⟨spring, member, joins⟩ network
  rcases List.mem_append.mp member with old | isNew
  · exact (rooted.joined mass other ⟨spring, old, joins⟩ network).mono more
  · rw [List.mem_singleton.mp isNew] at joins
    rcases joins with ⟨isSource, -⟩ | ⟨-, isDestination⟩
    · rw [← isSource]
      exact joined.mono more
    · rw [← isDestination]
      exact reached

/-- A spring that ends at a mass joins it to the mass at its other end. -/
theorem Sound.joins_of_mem_springsOf (sound : graph.Sound) {mass : Mass}
    (member : mass ∈ graph.masses) {spring : Spring} (ends : spring ∈ graph.springsOf mass) :
    ∃ other, other ≠ mass ∧ spring.Joins mass other := by
  rw [mem_springsOf] at ends
  obtain ⟨springMember, ends⟩ := ends
  obtain ⟨sourceMember, destinationMember⟩ := sound.ends_mem spring springMember
  have different : spring.source ≠ spring.destination :=
    fun same => sound.loopless spring springMember (congrArg Mass.key same)
  rcases ends with atSource | atDestination
  · have isSource := sound.mass_ext sourceMember member atSource
    exact ⟨spring.destination, isSource ▸ different.symm, .inl ⟨isSource, rfl⟩⟩
  · have isDestination := sound.mass_ext destinationMember member atDestination
    exact ⟨spring.source, isDestination ▸ different, .inr ⟨rfl, isDestination⟩⟩

/-- A mass with a spring has a neighbour. -/
theorem Sound.exists_adjacent (sound : graph.Sound) {mass : Mass} (member : mass ∈ graph.masses)
    (some : graph.springsOf mass ≠ []) : ∃ other, graph.Adjacent mass other := by
  obtain ⟨spring, ends⟩ := List.exists_mem_of_ne_nil _ some
  obtain ⟨other, -, joins⟩ := sound.joins_of_mem_springsOf member ends
  exact ⟨other, spring, (mem_springsOf.mp ends).1, joins⟩

/-- The only spring at a mass of a sound graph leads to another mass, and no other spring joins the
mass to anything. -/
theorem Sound.only_spring (sound : graph.Sound) {leaf : Mass} (member : leaf ∈ graph.masses)
    {spring : Spring} (only : graph.springsOf leaf = [spring]) :
    spring ∈ graph.springs ∧ (∃ neighbour, neighbour ≠ leaf ∧ spring.Joins leaf neighbour) ∧
      ∀ other ∈ graph.springs, ∀ mass, other.Joins leaf mass → other = spring := by
  have ends : spring ∈ graph.springsOf leaf := by
    rw [only]
    exact List.mem_singleton_self spring
  refine ⟨(mem_springsOf.mp ends).1, sound.joins_of_mem_springsOf member ends, ?_⟩
  intro other otherMember mass joins
  have touches : other ∈ graph.springsOf leaf := by
    rw [mem_springsOf]
    exact ⟨otherMember, joins.imp (congrArg Mass.key ·.1) (congrArg Mass.key ·.2)⟩
  rw [only] at touches
  exact List.mem_singleton.mp touches

/-- A path that does not end at a leaf need not pass it. So what remains after its only spring has
been taken out still joins what was joined before. -/
theorem Joined.removeLeaf {leaf neighbour : Mass} (apart : neighbour ≠ leaf)
    (only : ∀ other, graph.Adjacent leaf other → other = neighbour)
    (kept : ∀ first second, first ≠ leaf → second ≠ leaf → graph.Adjacent first second →
      after.Adjacent first second)
    (rootApart : root ≠ leaf) {mass : Mass} (joined : graph.Joined root mass) :
    (mass ≠ leaf → after.Joined root mass) ∧ (mass = leaf → after.Joined root neighbour) := by
  -- The path may visit the leaf, but only to come back to the neighbour it came from.
  induction joined with
  | refl => exact ⟨fun _ => .refl, fun same => absurd same rootApart⟩
  | @tail previous next _ adjacent inductionHypothesis =>
    by_cases fromLeaf : previous = leaf
    · have back : next = neighbour := only next (fromLeaf ▸ adjacent)
      rw [back]
      exact ⟨fun _ => inductionHypothesis.2 fromLeaf, fun same => absurd same apart⟩
    · have reached := inductionHypothesis.1 fromLeaf
      constructor
      · intro other
        exact reached.tail (kept previous next fromLeaf other adjacent)
      · intro toLeaf
        have isNeighbour : previous = neighbour := only previous (toLeaf ▸ adjacent.symm)
        exact isNeighbour ▸ reached

/-- Taking out the only spring of a network mass keeps a sound graph rooted. -/
theorem Rooted.removeSpring (rooted : graph.Rooted root) (sound : graph.Sound) {leaf : Mass}
    (member : leaf ∈ graph.masses) (network : leaf.kind = .network) {spring : Spring}
    (only : graph.springsOf leaf = [spring]) (removed : graph.removeSpring spring = .ok after) :
    after.Rooted root := by
  obtain ⟨springMember, ⟨neighbour, apart, atLeaf⟩, onlyHere⟩ := sound.only_spring member only
  have unique : ∀ other, graph.Adjacent leaf other → other = neighbour := by
    rintro other ⟨found, foundMember, joins⟩
    rw [onlyHere found foundMember other joins] at joins
    rcases joins.unique atLeaf with ⟨-, same⟩ | ⟨same, -⟩
    · exact same
    · exact absurd same.symm apart
  have kept : ∀ first second, first ≠ leaf → second ≠ leaf → graph.Adjacent first second →
      after.Adjacent first second := by
    rintro first second firstApart secondApart ⟨other, otherMember, joins⟩
    refine ⟨other, (sound.mem_removeSpring removed).mpr ⟨otherMember, fun same => ?_⟩, joins⟩
    rw [sound.spring_ext otherMember springMember same] at joins
    rcases joins.unique atLeaf with ⟨toLeaf, -⟩ | ⟨-, toLeaf⟩
    · exact firstApart toLeaf
    · exact secondApart toLeaf
  refine ⟨rooted.outside, ?_⟩
  rintro mass other ⟨found, foundMember, joins⟩ isNetwork
  obtain ⟨old, different⟩ := (sound.mem_removeSpring removed).mp foundMember
  have massApart : mass ≠ leaf := by
    rintro rfl
    exact different (congrArg Spring.key (onlyHere found old other joins))
  have joined := rooted.joined mass other ⟨found, old, joins⟩ isNetwork
  have rootApart : root ≠ leaf := fun same => rooted.outside (same ▸ network)
  exact (joined.removeLeaf apart unique kept rootApart).1 massApart

end Graph

end SpringArm
