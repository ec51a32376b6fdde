import SpringArm.Proofs.Graph.Positions
import SpringArm.Workbench.Run

/-!
# The order of springs

Springs are sorted by keys that are read off a table, while two springs are compared by looking
their ends up in the list of masses. Both say the same: `Graph.sortedSprings` is the stable sort by
`Spring.compareIn`, and it fails just where an end of a spring is not in the list. Nothing is asked
of the graph: masses may be repeated, and springs may be loops or join the same masses.
-/

namespace SpringArm

/-- The two ends of a spring, in no order. A spring that is turned round keeps them. -/
def Spring.unorderedEnds (spring : Spring) : Sym2 Mass :=
  s(spring.source, spring.destination)

section Sorting

variable {α ε : Type}

/-- An item can be compared with another one and does not come after it. -/
def NotAfter (compare : α → α → Except ε Int) (first second : α) : Prop :=
  ∃ difference ≤ 0, compare first second = .ok difference

/-- The comparison of items with a property is a total preorder: there is a difference of any two,
which changes its sign when they are exchanged, and coming before or together is transitive. -/
structure ComparesTotally (holds : α → Prop) (compare : α → α → Except ε Int) : Prop where
  exchange : ∀ first second, holds first → holds second →
    ∃ difference, compare first second = .ok difference ∧ compare second first = .ok (-difference)
  trans : ∀ first second third, holds first → holds second → holds third →
    NotAfter compare first second → NotAfter compare second third → NotAfter compare first third

namespace ComparesTotally

variable {holds : α → Prop} {compare : α → α → Except ε Int}

theorem refl (totally : ComparesTotally holds compare) {item : α} (held : holds item) :
    compare item item = .ok 0 := by
  obtain ⟨difference, forwards, backwards⟩ := totally.exchange item item held held
  have same : difference = -difference := Except.ok.inj (forwards.symm.trans backwards)
  rw [forwards, show difference = 0 by omega]

theorem antisymm (totally : ComparesTotally holds compare) {first second : α}
    (firstHeld : holds first) (secondHeld : holds second)
    (forwards : NotAfter compare first second) (backwards : NotAfter compare second first) :
    compare first second = .ok 0 := by
  obtain ⟨difference, compared, exchanged⟩ := totally.exchange first second firstHeld secondHeld
  obtain ⟨before, low, isBefore⟩ := forwards
  obtain ⟨after, high, isAfter⟩ := backwards
  rw [compared] at isBefore ⊢
  rw [exchanged] at isAfter
  cases isBefore
  cases isAfter
  rw [show difference = 0 by omega]

/-- The first items of two sorted lists of the same items are compared as equal. -/
theorem heads_tied (totally : ComparesTotally holds compare) {first second : α}
    {leftRest rightRest : List α} (held : ∀ item ∈ first :: leftRest, holds item)
    (perm : (first :: leftRest).Perm (second :: rightRest))
    (leftFirst : ∀ later ∈ leftRest, NotAfter compare first later)
    (rightFirst : ∀ later ∈ rightRest, NotAfter compare second later) :
    compare first second = .ok 0 := by
  have firstHeld : holds first := held first List.mem_cons_self
  rcases List.mem_cons.mp (perm.mem_iff.mpr List.mem_cons_self) with rfl | secondLater
  · exact totally.refl firstHeld
  rcases List.mem_cons.mp (perm.mem_iff.mp List.mem_cons_self) with rfl | firstLater
  · exact totally.refl firstHeld
  exact totally.antisymm firstHeld (held second (List.mem_cons_of_mem first secondLater))
    (leftFirst second secondLater) (rightFirst first firstLater)

end ComparesTotally

variable [DecidableEq ε]

/-- A list is the stable sort of another one: it has the same items, none of them comes after a
later one, and those that are compared as equal to an item keep their order. -/
structure StablySorted (compare : α → α → Except ε Int) (items sorted : List α) : Prop where
  perm : sorted.Perm items
  ordered : sorted.Pairwise (NotAfter compare)
  stable : ∀ item, (sorted.filter fun other => compare item other = .ok 0) =
    items.filter fun other => compare item other = .ok 0

/-- Two sorted lists of the same items agree if those that are compared as equal come in the same
order: their first items are compared as equal, so they are the same one. -/
theorem ComparesTotally.eq_of_ordered {holds : α → Prop} {compare : α → α → Except ε Int}
    (totally : ComparesTotally holds compare) {left right : List α}
    (held : ∀ item ∈ left, holds item) (perm : left.Perm right)
    (leftOrdered : left.Pairwise (NotAfter compare))
    (rightOrdered : right.Pairwise (NotAfter compare))
    (ties : ∀ item, (left.filter fun other => compare item other = .ok 0) =
      right.filter fun other => compare item other = .ok 0) : left = right := by
  induction left generalizing right with
  | nil => exact perm.nil_eq
  | cons first leftRest inductionHypothesis =>
    cases right with
    | nil => exact absurd perm.length_eq (by simp)
    | cons second rightRest =>
      obtain ⟨leftFirst, leftLater⟩ := List.pairwise_cons.mp leftOrdered
      obtain ⟨rightFirst, rightLater⟩ := List.pairwise_cons.mp rightOrdered
      obtain ⟨firstHeld, laterHeld⟩ := List.forall_mem_cons.mp held
      have tied : compare first second = .ok 0 := totally.heads_tied held perm leftFirst rightFirst
      -- Each head is the first of the items that are compared as equal to the left one.
      have heads := ties first
      rw [List.filter_cons_of_pos (by simp [totally.refl firstHeld]),
        List.filter_cons_of_pos (by simp [tied])] at heads
      obtain rfl : first = second := (List.cons.inj heads).1
      congr 1
      apply inductionHypothesis laterHeld perm.cons_inv leftLater rightLater
      intro item
      have both := ties item
      simp only [List.filter_cons] at both
      split at both
      · exact (List.cons.inj both).2
      · exact both

/-- There is at most one stable sort. -/
theorem StablySorted.unique {holds : α → Prop} {compare : α → α → Except ε Int}
    (totally : ComparesTotally holds compare) {items left right : List α}
    (held : ∀ item ∈ items, holds item) (leftSorted : StablySorted compare items left)
    (rightSorted : StablySorted compare items right) : left = right :=
  totally.eq_of_ordered (fun item member => held item (leftSorted.perm.mem_iff.mp member))
    (leftSorted.perm.trans rightSorted.perm.symm) leftSorted.ordered rightSorted.ordered
    fun item => (leftSorted.stable item).trans (rightSorted.stable item).symm

end Sorting

namespace SortKey

/-- The three-way comparison of keys: by the higher positions, then by the lower ones. -/
def difference (first second : SortKey) : Int :=
  if first.higher ≠ second.higher then (first.higher : Int) - second.higher
  else (first.lower : Int) - second.lower

theorem difference_comm (first second : SortKey) :
    second.difference first = -first.difference second := by
  unfold difference
  split <;> split <;> omega

theorem precedes_iff_difference {first second : SortKey} :
    first.precedes second = true ↔ first.difference second ≤ 0 := by
  simp only [precedes, difference, Bool.or_eq_true, Bool.and_eq_true, decide_eq_true_eq, beq_iff_eq]
  split <;> omega

theorem difference_eq_zero_iff {first second : SortKey} :
    first.difference second = 0 ↔ first = second := by
  cases first
  cases second
  simp only [difference, SortKey.mk.injEq]
  split <;> omega

/-- A key tells the two positions, but not their order. -/
theorem ofPositions_eq_iff {first second third fourth : Nat} :
    ofPositions first second = ofPositions third fourth ↔ s(first, second) = s(third, fourth) := by
  simp only [ofPositions, SortKey.mk.injEq, Sym2.eq_iff]
  omega

end SortKey

namespace Graph

/-- The key of a spring with these two ends. -/
def keyOfEnds (graph : Graph) : Sym2 Mass → SortKey :=
  Sym2.lift ⟨fun first second => SortKey.ofPositions (graph.indexOf first) (graph.indexOf second),
    fun _ _ => SortKey.ofPositions_eq_iff.mpr Sym2.eq_swap⟩

variable {graph : Graph}

/-- The table finds the position that a look at the list finds. -/
theorem lookup_positions_eq_some_iff {mass : Mass} {position : Nat} :
    graph.positions.lookup mass.key = some position ↔ graph.position mass = .ok position := by
  rw [lookup_positions, Graph.position]
  cases graph.position? mass <;> simp

section Comparison

variable {first second : Spring}

/-- Two springs can be compared if all their ends are in the list, and then their keys are. -/
theorem compareIn_eq_ok_iff {difference : Int} :
    first.compareIn graph second = .ok difference ↔ graph.Holds first ∧ graph.Holds second ∧
      (graph.keyOf first).difference (graph.keyOf second) = difference := by
  simp only [Spring.compareIn, sortKey_eq_ite]
  by_cases firstHeld : graph.Holds first
  · by_cases secondHeld : graph.Holds second
    · simp only [firstHeld, secondHeld, if_true, bind, Except.bind, true_and, SortKey.difference]
      split <;> simp [pure, Except.pure]
    · simp [firstHeld, secondHeld, bind, Except.bind]
  · simp [firstHeld, bind, Except.bind]

theorem compareIn_eq_ok_zero_iff : first.compareIn graph second = .ok 0 ↔
    graph.Holds first ∧ graph.Holds second ∧ graph.keyOf first = graph.keyOf second := by
  rw [compareIn_eq_ok_iff, SortKey.difference_eq_zero_iff]

theorem notAfter_iff (firstHeld : graph.Holds first) (secondHeld : graph.Holds second) :
    NotAfter (Spring.compareIn graph) first second ↔
      (graph.keyOf first).precedes (graph.keyOf second) = true := by
  simp only [NotAfter, compareIn_eq_ok_iff, firstHeld, secondHeld, true_and, exists_eq_right',
    SortKey.precedes_iff_difference]

/-- Springs are compared as equal if they join the same two positions. -/
theorem compareIn_eq_ok_zero_iff_positions (firstHeld : graph.Holds first)
    (secondHeld : graph.Holds second) : first.compareIn graph second = .ok 0 ↔
      s(graph.position? first.source, graph.position? first.destination) =
        s(graph.position? second.source, graph.position? second.destination) := by
  simp only [compareIn_eq_ok_zero_iff, firstHeld, secondHeld, true_and, keyOf,
    SortKey.ofPositions_eq_iff, position?_eq_ite, firstHeld.1, firstHeld.2, secondHeld.1,
    secondHeld.2, if_true, Sym2.eq_iff, Option.some.injEq]

end Comparison

section Ends

variable {spring turned : Spring}

theorem holds_of_ends (same : turned.unorderedEnds = spring.unorderedEnds) :
    graph.Holds turned ↔ graph.Holds spring := by
  rcases Sym2.eq_iff.mp same with ⟨source, destination⟩ | ⟨crossed, crossedBack⟩
  · rw [Holds, Holds, source, destination]
  · rw [Holds, Holds, crossed, crossedBack, and_comm]

/-- The key of a spring does not depend on its direction. -/
theorem keyOf_of_ends (graph : Graph) (same : turned.unorderedEnds = spring.unorderedEnds) :
    graph.keyOf turned = graph.keyOf spring :=
  congrArg graph.keyOfEnds same

/-- A spring can be turned round on either side of a comparison. -/
theorem compareIn_of_ends (graph : Graph) (same : turned.unorderedEnds = spring.unorderedEnds)
    (other : Spring) :
    turned.compareIn graph other = spring.compareIn graph other ∧
      other.compareIn graph turned = other.compareIn graph spring := by
  have keys : turned.sortKey graph = spring.sortKey graph := by
    simp only [sortKey_eq_ite, holds_of_ends same, graph.keyOf_of_ends same]
  simp only [Spring.compareIn, keys, and_self]

end Ends

/-- The comparison is a total preorder on the springs whose ends are in the list of masses. -/
theorem comparesTotally (graph : Graph) : ComparesTotally graph.Holds (Spring.compareIn graph) where
  exchange := by
    intro first second firstHeld secondHeld
    simp only [compareIn_eq_ok_iff, firstHeld, secondHeld, true_and]
    exact ⟨_, rfl, SortKey.difference_comm _ _⟩
  trans := by
    intro first second third firstHeld secondHeld thirdHeld before after
    rw [notAfter_iff firstHeld secondHeld] at before
    rw [notAfter_iff secondHeld thirdHeld] at after
    rw [notAfter_iff firstHeld thirdHeld]
    exact SortKey.precedes_trans before after

/-- The sorted springs, without their keys. -/
theorem canonical_springs (graph : Graph) :
    graph.canonical.map (·.2) = graph.springs.mergeSort fun first second =>
      (graph.keyOf first).precedes (graph.keyOf second) := by
  have keyed := List.map_mergeSort (l := graph.springs)
    (r := fun first second => (graph.keyOf first).precedes (graph.keyOf second))
    (s := fun first second : SortKey × Spring => first.1.precedes second.1)
    (f := fun spring => (graph.keyOf spring, spring)) fun _ _ _ _ => rfl
  rw [canonical, ← keyed, List.map_map]
  exact List.map_id _

/-- The keys of the sorted springs are the sorted keys of the springs. -/
theorem canonical_keys (graph : Graph) :
    graph.canonical.map (·.1) = (graph.springs.map graph.keyOf).mergeSort SortKey.precedes := by
  rw [canonical, List.map_mergeSort (s := SortKey.precedes) fun _ _ _ _ => rfl, List.map_map]
  rfl

/-- Springs that are compared as equal to an item have one key, so they are a sorted part of the
springs already, and sorting leaves them in their order. -/
theorem tied_sublist_canonical (graph : Graph) (item : Spring) :
    (graph.springs.filter fun other => item.compareIn graph other = .ok 0).Sublist
      (graph.canonical.map (·.2)) := by
  have tied : (graph.springs.filter fun other => item.compareIn graph other = .ok 0).Pairwise
      fun first second => (graph.keyOf first).precedes (graph.keyOf second) = true := by
    rw [List.pairwise_iff_forall_sublist]
    intro first second pair
    have equal : ∀ spring ∈ [first, second], graph.keyOf item = graph.keyOf spring := by
      intro spring member
      have compared := of_decide_eq_true (List.mem_filter.mp (pair.subset member)).2
      exact (compareIn_eq_ok_zero_iff.mp compared).2.2
    rw [SortKey.precedes_iff, ← equal first (by simp), ← equal second (by simp)]
    exact .inr rfl
  rw [canonical_springs]
  refine List.sublist_mergeSort ?_ ?_ tied List.filter_sublist
  · exact fun _ _ _ => SortKey.precedes_trans
  · exact fun _ _ => SortKey.precedes_total _ _

/-- Sorting by keys is stable sorting by comparison. -/
theorem canonical_stablySorted (held : ∀ spring ∈ graph.springs, graph.Holds spring) :
    StablySorted (Spring.compareIn graph) graph.springs (graph.canonical.map (·.2)) where
  perm := graph.canonical_perm
  ordered := by
    rw [List.pairwise_map]
    apply graph.canonical_sorted.imp_of_mem
    intro first second firstMember secondMember order
    obtain ⟨firstSpring, firstKey⟩ := mem_canonical.mp firstMember
    obtain ⟨secondSpring, secondKey⟩ := mem_canonical.mp secondMember
    rw [notAfter_iff (held _ firstSpring) (held _ secondSpring), ← firstKey, ← secondKey]
    exact order
  stable := by
    intro item
    -- A part of the sorted springs that has as many of the ties as there are is all of them.
    have part := (graph.tied_sublist_canonical item).filter fun other =>
      decide (item.compareIn graph other = .ok 0)
    rw [List.filter_filter] at part
    simp only [Bool.and_self] at part
    have count := graph.canonical_perm.filter fun other =>
      decide (item.compareIn graph other = .ok 0)
    exact (part.eq_of_length count.length_eq.symm).symm

/-- Sorting fails in one way only: an end of a spring is not in the list of masses. -/
theorem sortedSprings_eq_error_iff {fault : GraphFault} :
    graph.sortedSprings = .error fault ↔
      fault = .danglingSpring ∧ ∃ spring ∈ graph.springs, ¬graph.Holds spring := by
  rw [sortedSprings_eq_ite]
  by_cases held : ∀ spring ∈ graph.springs, graph.Holds spring
  · rw [if_pos held]
    exact iff_of_false nofun fun ⟨_, spring, member, foreign⟩ => foreign (held spring member)
  · rw [if_neg held, Except.error.injEq, eq_comm]
    exact (and_iff_left (by simpa using held)).symm

/-- What comes out of sorting is the one stable sort by comparison. -/
theorem sortedSprings_eq_ok_iff {sorted : List Spring} :
    graph.sortedSprings = .ok sorted ↔ (∀ spring ∈ graph.springs, graph.Holds spring) ∧
      StablySorted (Spring.compareIn graph) graph.springs sorted := by
  rw [sortedSprings_eq_ite]
  by_cases held : ∀ spring ∈ graph.springs, graph.Holds spring
  · rw [if_pos held, Except.ok.injEq]
    constructor
    · rintro rfl
      exact ⟨held, canonical_stablySorted held⟩
    · rintro ⟨-, isSorted⟩
      exact (canonical_stablySorted held).unique graph.comparesTotally held isSorted
  · rw [if_neg held]
    exact iff_of_false nofun fun ⟨all, _⟩ => held all

/-- The table of positions finds what a look at the list finds. Comparing springs whose ends are in
the list is a total preorder; it gives zero if they join the same two positions, in whichever
direction, and turning a spring round does not change it. Sorting fails if an end of a spring is not
in the list, otherwise it gives the stable sort by this comparison. Asking for it changes
nothing. -/
theorem sortedSprings_stablySorted (graph : Graph) :
    (∀ mass position, graph.positions.lookup mass.key = some position ↔
      graph.position mass = .ok position) ∧
    ComparesTotally graph.Holds (Spring.compareIn graph) ∧
    (∀ first second, graph.Holds first → graph.Holds second →
      (first.compareIn graph second = .ok 0 ↔
        s(graph.position? first.source, graph.position? first.destination) =
          s(graph.position? second.source, graph.position? second.destination))) ∧
    (∀ spring turned : Spring, turned.unorderedEnds = spring.unorderedEnds → ∀ other,
      turned.compareIn graph other = spring.compareIn graph other ∧
        other.compareIn graph turned = other.compareIn graph spring) ∧
    (∀ fault, graph.sortedSprings = .error fault ↔
      fault = .danglingSpring ∧ ∃ spring ∈ graph.springs, ¬graph.Holds spring) ∧
    (∀ sorted, graph.sortedSprings = .ok sorted ↔
      (∀ spring ∈ graph.springs, graph.Holds spring) ∧
        StablySorted (Spring.compareIn graph) graph.springs sorted) ∧
    ∀ bench : Workbench, bench.graph = graph → bench.run .sortedSprings =
      ((graph.sortedSprings.mapError .graph).map .springs, bench) := by
  refine ⟨fun _ _ => lookup_positions_eq_some_iff, graph.comparesTotally,
    fun _ _ => compareIn_eq_ok_zero_iff_positions,
    fun _ _ same other => graph.compareIn_of_ends same other,
    fun _ => sortedSprings_eq_error_iff, fun _ => sortedSprings_eq_ok_iff, ?_⟩
  rintro bench rfl
  rfl

end Graph

end SpringArm
