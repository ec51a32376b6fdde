import SpringArm.Graph.Order
import SpringArm.Proofs.Graph.Sound

/-!
# Positions in graphs

The table of positions finds the same position as a look at the list of masses, so springs can be
sorted just if all their ends are in the list. In a closed graph they are. In a sound graph no two
springs join the same masses, so no two of them have the same key: the keys go up strictly.
-/

namespace SpringArm

namespace SortKey

/-- A key comes before another one and differs from it. -/
def Before (first second : SortKey) : Prop :=
  first.higher < second.higher ∨
    first.higher = second.higher ∧ first.lower < second.lower

theorem precedes_iff {first second : SortKey} :
    first.precedes second = true ↔ first.Before second ∨ first = second := by
  cases first
  cases second
  simp only [precedes, Before, Bool.or_eq_true, Bool.and_eq_true, decide_eq_true_eq, beq_iff_eq,
    SortKey.mk.injEq]
  omega

theorem precedes_trans {first second third : SortKey} (left : first.precedes second = true)
    (right : second.precedes third = true) : first.precedes third = true := by
  simp only [precedes, Bool.or_eq_true, Bool.and_eq_true, decide_eq_true_eq, beq_iff_eq] at *
  omega

theorem precedes_total (first second : SortKey) :
    (first.precedes second || second.precedes first) = true := by
  simp only [precedes, Bool.or_eq_true, Bool.and_eq_true, decide_eq_true_eq, beq_iff_eq]
  omega

end SortKey

namespace Graph

private theorem lookup_zipIdx (masses : List Mass) (key start : Nat) :
    ((masses.zipIdx start).map fun (mass, position) => (mass.key, position)).lookup key =
      (masses.findIdx? (·.key == key)).map (· + start) := by
  induction masses generalizing start with
  | nil => rfl
  | cons mass rest inductionHypothesis =>
    rw [List.zipIdx_cons, List.map_cons, List.lookup_cons, List.findIdx?_cons]
    by_cases found : mass.key = key
    · simp [found]
    · have missed : (key == mass.key) = false := by simpa using fun same => found same.symm
      simp only [missed, inductionHypothesis, beq_eq_false_iff_ne.mpr found, Bool.false_eq_true,
        if_false, Option.map_map]
      congr 1
      funext position
      simp only [Function.comp]
      omega

/-- Looking a key up in the table gives the position in the list. -/
theorem lookup_positions (graph : Graph) (mass : Mass) :
    graph.positions.lookup mass.key = graph.position? mass := by
  rw [positions, lookup_zipIdx]
  simp [position?, Mass.same]

/-- The position of a mass of the graph. For other masses it is the number of masses. -/
def indexOf (graph : Graph) (mass : Mass) : Nat :=
  graph.masses.findIdx (·.same mass)

/-- The key of a spring whose ends are masses of the graph. -/
def keyOf (graph : Graph) (spring : Spring) : SortKey :=
  SortKey.ofPositions (graph.indexOf spring.source) (graph.indexOf spring.destination)

/-- Both ends of a spring are in the list of masses. -/
def Holds (graph : Graph) (spring : Spring) : Prop :=
  graph.contains spring.source = true ∧ graph.contains spring.destination = true

instance (graph : Graph) : DecidablePred graph.Holds := fun spring =>
  inferInstanceAs (Decidable (graph.contains spring.source = true ∧
    graph.contains spring.destination = true))

/-- A mass has a position if it is in the list. -/
theorem position?_eq_ite (graph : Graph) (mass : Mass) :
    graph.position? mass = if graph.contains mass then some (graph.indexOf mass) else none := by
  unfold position? contains indexOf
  split
  next found =>
    rw [List.findIdx?_eq_some_iff_findIdx_eq]
    exact ⟨List.findIdx_lt_length_of_exists (List.any_eq_true.mp found), rfl⟩
  next missed => simpa using missed

/-- The key of a spring by the table of positions. -/
theorem tabledKey?_eq_ite (graph : Graph) (spring : Spring) :
    tabledKey? graph.positions spring =
      if graph.Holds spring then some (graph.keyOf spring) else none := by
  simp only [tabledKey?, lookup_positions, position?_eq_ite, Holds]
  by_cases source : graph.contains spring.source = true
  · by_cases destination : graph.contains spring.destination = true
    · simp [source, destination, keyOf]
    · simp [source, destination]
  · simp [source]

/-- The key of a spring by the list of masses. -/
theorem sortKey_eq_ite (graph : Graph) (spring : Spring) :
    spring.sortKey graph =
      if graph.Holds spring then .ok (graph.keyOf spring) else .error .foreignMass := by
  simp only [Spring.sortKey, position, position?_eq_ite, Holds]
  by_cases source : graph.contains spring.source = true
  · by_cases destination : graph.contains spring.destination = true
    · simp [source, destination, keyOf, bind, Except.bind, pure, Except.pure]
    · simp [source, destination, bind, Except.bind]
  · simp [source, bind, Except.bind]

/-- The springs of a graph with their keys, in the order of the keys. -/
def canonical (graph : Graph) : List (SortKey × Spring) :=
  (graph.springs.map fun spring => (graph.keyOf spring, spring)).mergeSort
    fun first second => first.1.precedes second.1

theorem mem_canonical {graph : Graph} {keyed : SortKey × Spring} :
    keyed ∈ graph.canonical ↔ keyed.2 ∈ graph.springs ∧ keyed.1 = graph.keyOf keyed.2 := by
  rw [canonical, List.mem_mergeSort, List.mem_map]
  constructor
  · rintro ⟨spring, member, rfl⟩
    exact ⟨member, rfl⟩
  · rintro ⟨member, key⟩
    exact ⟨keyed.2, member, by rw [← key]⟩

/-- Sorting only changes the order of the springs. -/
theorem canonical_perm (graph : Graph) : (graph.canonical.map (·.2)).Perm graph.springs := by
  have sorted := (List.mergeSort_perm (graph.springs.map fun spring => (graph.keyOf spring, spring))
    fun first second => first.1.precedes second.1).map (·.2)
  rw [List.map_map] at sorted
  simpa [canonical, Function.comp_def] using sorted

/-- The springs come in the order of their keys. -/
theorem canonical_sorted (graph : Graph) :
    graph.canonical.Pairwise fun first second => first.1.precedes second.1 = true := by
  apply List.pairwise_mergeSort
  · intro first second third
    exact SortKey.precedes_trans
  · intro first second
    exact SortKey.precedes_total first.1 second.1

private theorem mapM_ite {α β ε : Type} {test : α → Prop} [DecidablePred test] (view : α → β)
    (fault : ε) (items : List α) :
    (items.mapM fun item => if test item then Except.ok (view item) else .error fault) =
      if ∀ item ∈ items, test item then .ok (items.map view) else .error fault := by
  induction items with
  | nil => rfl
  | cons item rest inductionHypothesis =>
    rw [List.mapM_cons, inductionHypothesis]
    by_cases first : test item
    · by_cases others : ∀ later ∈ rest, test later
      · rw [if_pos first, if_pos others, if_pos (List.forall_mem_cons.mpr ⟨first, others⟩)]
        rfl
      · rw [if_pos first, if_neg others, if_neg fun all => others (List.forall_mem_cons.mp all).2]
        rfl
    · rw [if_neg first, if_neg fun all => first (List.forall_mem_cons.mp all).1]
      rfl

/-- Springs are sorted by their keys if all their ends are in the list of masses. -/
theorem sortedWithKeys_eq_ite (graph : Graph) :
    graph.sortedWithKeys =
      if ∀ spring ∈ graph.springs, graph.Holds spring then .ok graph.canonical
      else .error .danglingSpring := by
  have keyed : graph.keyedSprings =
      if ∀ spring ∈ graph.springs, graph.Holds spring then
        .ok (graph.springs.map fun spring => (graph.keyOf spring, spring))
      else .error .danglingSpring := by
    rw [← mapM_ite, keyedSprings]
    congr 1
    funext spring
    rw [tabledKey?_eq_ite]
    by_cases held : graph.Holds spring
    · rw [if_pos held, if_pos held]
    · rw [if_neg held, if_neg held]
  rw [sortedWithKeys, keyed]
  split <;> rfl

theorem sortedSprings_eq_ite (graph : Graph) :
    graph.sortedSprings =
      if ∀ spring ∈ graph.springs, graph.Holds spring then .ok (graph.canonical.map (·.2))
      else .error .danglingSpring := by
  rw [sortedSprings, sortedWithKeys_eq_ite]
  split <;> rfl

namespace Closed

variable {graph : Graph}

/-- A mass of the graph stands at its position. -/
theorem getElem?_indexOf (closed : graph.Closed) {mass : Mass} (member : mass ∈ graph.masses) :
    graph.masses[graph.indexOf mass]? = some mass := by
  have inside : graph.indexOf mass < graph.masses.length :=
    List.findIdx_lt_length_of_exists ⟨mass, member, by simp [Mass.same]⟩
  have found : (graph.masses[graph.indexOf mass]).same mass = true :=
    List.findIdx_getElem (w := inside)
  rw [List.getElem?_eq_getElem inside]
  exact congrArg some
    (closed.mass_ext (List.getElem_mem inside) member (by simpa [Mass.same] using found))

theorem indexOf_lt (closed : graph.Closed) {mass : Mass} (member : mass ∈ graph.masses) :
    graph.indexOf mass < graph.masses.length :=
  (List.getElem?_eq_some_iff.mp (closed.getElem?_indexOf member)).1

/-- The position of the mass at a position is this position. -/
theorem indexOf_eq (closed : graph.Closed) {mass : Mass} {position : Nat}
    (found : graph.masses[position]? = some mass) : graph.indexOf mass = position := by
  have member : mass ∈ graph.masses := List.mem_of_getElem? found
  have keys : (graph.masses.map Mass.key)[graph.indexOf mass]? =
      (graph.masses.map Mass.key)[position]? := by
    rw [List.getElem?_map, List.getElem?_map, closed.getElem?_indexOf member, found]
  exact (List.getElem?_inj (by simpa using closed.indexOf_lt member) closed.masses_nodup).mp keys

/-- Different masses of the graph have different positions. -/
theorem indexOf_inj (closed : graph.Closed) {first second : Mass}
    (firstMember : first ∈ graph.masses)
    (secondMember : second ∈ graph.masses)
    (positions : graph.indexOf first = graph.indexOf second) : first = second := by
  have found := closed.getElem?_indexOf firstMember
  rw [positions, closed.getElem?_indexOf secondMember] at found
  exact (Option.some.inj found).symm

/-- Masses of the graph are the same one if they have the same position. -/
theorem same_iff_indexOf_eq (closed : graph.Closed) {first second : Mass}
    (firstMember : first ∈ graph.masses) (secondMember : second ∈ graph.masses) :
    first.same second = true ↔ graph.indexOf first = graph.indexOf second := by
  rw [Mass.same, beq_iff_eq]
  constructor
  · intro keys
    rw [closed.mass_ext firstMember secondMember keys]
  · intro positions
    rw [closed.indexOf_inj firstMember secondMember positions]

theorem position?_eq (closed : graph.Closed) {mass : Mass} (member : mass ∈ graph.masses) :
    graph.position? mass = some (graph.indexOf mass) := by
  rw [position?, List.findIdx?_eq_some_iff_findIdx_eq]
  exact ⟨closed.indexOf_lt member, rfl⟩

/-- A closed graph holds its springs. -/
theorem holds (closed : graph.Closed) {spring : Spring} (member : spring ∈ graph.springs) :
    graph.Holds spring := by
  obtain ⟨source, destination⟩ := closed.ends_mem spring member
  exact ⟨List.any_eq_true.mpr ⟨spring.source, source, beq_self_eq_true _⟩,
    List.any_eq_true.mpr ⟨spring.destination, destination, beq_self_eq_true _⟩⟩

/-- The key of a spring by the list of masses. -/
theorem sortKey_eq (closed : graph.Closed) {spring : Spring} (member : spring ∈ graph.springs) :
    spring.sortKey graph = .ok (graph.keyOf spring) := by
  rw [sortKey_eq_ite, if_pos (closed.holds member)]

/-- The springs of a closed graph can be sorted. -/
theorem sortedWithKeys_eq (closed : graph.Closed) :
    graph.sortedWithKeys = .ok graph.canonical := by
  rw [sortedWithKeys_eq_ite, if_pos fun _ => closed.holds]

theorem sortedSprings_eq (closed : graph.Closed) :
    graph.sortedSprings = .ok (graph.canonical.map (·.2)) := by
  rw [sortedSprings_eq_ite, if_pos fun _ => closed.holds]

end Closed

namespace Sound

variable {graph : Graph}

/-- The ends of a spring have different positions. -/
theorem keyOf_lower_lt (sound : graph.Sound) {spring : Spring} (member : spring ∈ graph.springs) :
    (graph.keyOf spring).lower < (graph.keyOf spring).higher := by
  obtain ⟨source, destination⟩ := sound.ends_mem spring member
  have different : graph.indexOf spring.source ≠ graph.indexOf spring.destination := fun same =>
    sound.loopless spring member (congrArg Mass.key (sound.indexOf_inj source destination same))
  simp only [keyOf, SortKey.ofPositions]
  omega

/-- Springs with the same key join the same masses. -/
theorem pair_eq_of_keyOf_eq (sound : graph.Sound) {first second : Spring}
    (firstMember : first ∈ graph.springs) (secondMember : second ∈ graph.springs)
    (keys : graph.keyOf first = graph.keyOf second) : first.pair = second.pair := by
  obtain ⟨firstSource, firstDestination⟩ := sound.ends_mem first firstMember
  obtain ⟨secondSource, secondDestination⟩ := sound.ends_mem second secondMember
  simp only [keyOf, SortKey.ofPositions, SortKey.mk.injEq] at keys
  have positions :
      (graph.indexOf first.source = graph.indexOf second.source ∧
        graph.indexOf first.destination = graph.indexOf second.destination) ∨
      (graph.indexOf first.source = graph.indexOf second.destination ∧
        graph.indexOf first.destination = graph.indexOf second.source) := by omega
  rw [Spring.pair, Spring.pair, Sym2.eq_iff]
  rcases positions with ⟨sources, destinations⟩ | ⟨crossed, crossedBack⟩
  · left
    exact ⟨congrArg Mass.key (sound.indexOf_inj firstSource secondSource sources),
      congrArg Mass.key (sound.indexOf_inj firstDestination secondDestination destinations)⟩
  · right
    exact ⟨congrArg Mass.key (sound.indexOf_inj firstSource secondDestination crossed),
      congrArg Mass.key (sound.indexOf_inj firstDestination secondSource crossedBack)⟩

/-- The keys of the sorted springs go up strictly. -/
theorem canonical_strict (sound : graph.Sound) :
    graph.canonical.Pairwise fun first second => first.1.Before second.1 := by
  have springsNodup : (graph.canonical.map (·.2.pair)).Nodup := by
    have pairs := (graph.canonical_perm.map Spring.pair).nodup_iff.mpr sound.simple
    rwa [List.map_map] at pairs
  have differ : graph.canonical.Pairwise fun first second => first.2.pair ≠ second.2.pair :=
    List.pairwise_map.mp springsNodup
  apply (graph.canonical_sorted.and differ).imp_of_mem
  rintro first second firstMember secondMember ⟨order, different⟩
  obtain ⟨firstSpring, firstKey⟩ := mem_canonical.mp firstMember
  obtain ⟨secondSpring, secondKey⟩ := mem_canonical.mp secondMember
  rcases SortKey.precedes_iff.mp order with before | same
  · exact before
  · rw [firstKey, secondKey] at same
    exact absurd (sound.pair_eq_of_keyOf_eq firstSpring secondSpring same) different

end Sound

end Graph

end SpringArm
