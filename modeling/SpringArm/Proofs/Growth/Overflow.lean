import SpringArm.Proofs.Growth.Construction
import SpringArm.Proofs.Growth.Edits

/-!
# Overflow

The only step of a growth that can fail compares the ends of two springs. A fault is traced back
from there: a letter asks for candidates, a candidate must not be behind a spring, and whether it is
takes the squares of the differences between the ends.
-/

namespace SpringArm

/-- A search that fails has failed on one of its items. -/
theorem anyM_eq_error {α ε : Type} {test : α → Except ε Bool} {items : List α} {fault : ε}
    (failed : items.anyM test = .error fault) : ∃ item ∈ items, test item = .error fault := by
  induction items with
  | nil => cases failed
  | cons item rest inductionHypothesis =>
    rw [List.anyM_cons] at failed
    rcases bind_eq_error.mp failed with here | ⟨found, -, others⟩
    · exact ⟨item, List.mem_cons_self, here⟩
    · cases found with
      | true => cases others
      | false =>
        obtain ⟨later, member, fails⟩ := inductionHypothesis others
        exact ⟨later, List.mem_cons_of_mem item member, fails⟩

namespace Geometry

/-- A point is an end of a segment. -/
def Segment.HasEnd {α : Type} (segment : Segment α) (point : Point α) : Prop :=
  point = segment.start ∨ point = segment.finish

/-- A comparison of two segments fails on two of their ends. -/
theorem Segment.crosses_eq_error {α ε : Type} [Sub α] [Mul α] [OfNat α 0] [LT α] [DecidableLT α]
    [LE α] [DecidableLE α] {near : Point α → Point α → Except ε Bool} {first second : Segment α}
    {fault : ε} (failed : first.crosses near second = .error fault) :
    ∃ mine, first.HasEnd mine ∧ ∃ other, second.HasEnd other ∧ near mine other = .error fault := by
  unfold crosses at failed
  split at failed
  · rcases bind_eq_error.mp failed with joined | ⟨_, -, inverted⟩
    · unfold joinedAtOneEnd at joined
      rcases bind_eq_error.mp joined with startStart | ⟨_, -, joined⟩
      · exact ⟨_, .inl rfl, _, .inl rfl, startStart⟩
      rcases bind_eq_error.mp joined with startFinish | ⟨_, -, joined⟩
      · exact ⟨_, .inl rfl, _, .inr rfl, startFinish⟩
      rcases bind_eq_error.mp joined with finishStart | ⟨_, -, joined⟩
      · exact ⟨_, .inr rfl, _, .inl rfl, finishStart⟩
      rcases bind_eq_error.mp joined with finishFinish | ⟨_, -, joined⟩
      · exact ⟨_, .inr rfl, _, .inr rfl, finishFinish⟩
      · cases joined
    · cases inverted
  · cases failed

/-- A difference of coordinates of two points has no finite square, though it is finite. -/
def Point.FarFrom (first second : Point Float) : Prop :=
  squared (first.x - second.x) = .error .overflow ∨
    squared (first.y - second.y) = .error .overflow

theorem samePoint_eq_error {tolerance : Float} {first second : Point Float}
    {fault : ArithmeticFault} (failed : samePoint tolerance first second = .error fault) :
    first.FarFrom second := by
  cases fault
  unfold samePoint at failed
  rcases bind_eq_error.mp failed with horizontal | ⟨_, -, failed⟩
  · exact .inl horizontal
  rcases bind_eq_error.mp failed with vertical | ⟨_, -, failed⟩
  · exact .inr vertical
  · cases failed

end Geometry

namespace Graph

open SpringArm.Geometry (ArithmeticFault)

/-- A mass of a graph and an end of a spring of it are so far apart that the square of a difference
of their coordinates is beyond the finite doubles. -/
def HasFarEnd (graph : Graph) : Prop :=
  ∃ mass ∈ graph.masses, ∃ spring ∈ graph.springs, ∃ finish, spring.line.HasEnd finish ∧
    mass.place.FarFrom finish

variable {graph : Graph} {fault : ArithmeticFault}

theorem wouldCross_eq_error {tolerance : Float} {source destination : Mass}
    (sourceMember : source ∈ graph.masses) (destinationMember : destination ∈ graph.masses)
    (failed : graph.wouldCross tolerance source destination = .error fault) :
    graph.HasFarEnd := by
  obtain ⟨spring, member, failed⟩ := anyM_eq_error failed
  obtain ⟨mine, isMine, other, isOther, failed⟩ := Geometry.Segment.crosses_eq_error failed
  have far := Geometry.samePoint_eq_error failed
  rcases isMine with rfl | rfl
  · exact ⟨source, sourceMember, spring, member, other, isOther, far⟩
  · exact ⟨destination, destinationMember, spring, member, other, isOther, far⟩

/-- A question for a reachable mass fails only where springs must not cross. -/
theorem isReachable_eq_error {reach : Reach} {origin candidate : Mass}
    (failed : graph.isReachable reach origin candidate = .error fault) :
    reach.excludeCrossings = true ∧
      graph.wouldCross reach.tolerance origin candidate = .error fault := by
  unfold isReachable at failed
  split at failed
  · cases failed
  · dsimp only at failed
    split at failed
    next excluded =>
      rcases bind_eq_error.mp failed with crossing | ⟨_, -, failed⟩
      · exact ⟨excluded, crossing⟩
      · cases failed
    · cases failed

theorem reachableAmong_eq_error {reach : Reach} {origin : Mass} {masses : List Mass}
    (failed : graph.reachableAmong reach origin masses = .error fault) :
    ∃ candidate ∈ masses, graph.isReachable reach origin candidate = .error fault := by
  induction masses with
  | nil => cases failed
  | cons candidate rest inductionHypothesis =>
    unfold reachableAmong at failed
    rcases bind_eq_error.mp failed with here | ⟨_, -, failed⟩
    · exact ⟨candidate, List.mem_cons_self, here⟩
    rcases bind_eq_error.mp failed with later | ⟨_, -, failed⟩
    · obtain ⟨other, member, fails⟩ := inductionHypothesis later
      exact ⟨other, List.mem_cons_of_mem candidate member, fails⟩
    · cases failed

end Graph

namespace Growth

open SpringArm.Geometry (ArithmeticFault)

variable {γ : Type} {limits : Limits} {fault : ArithmeticFault}

theorem springCandidates_eq_error {blueprint : Blueprint} {cursor : Mass} {distance : Interval}
    (member : cursor ∈ blueprint.graph.masses)
    (failed : springCandidates blueprint limits cursor distance = .error fault) :
    blueprint.switches.excludeSpringCrossings = true ∧ blueprint.graph.HasFarEnd := by
  unfold springCandidates at failed
  rcases bind_eq_error.mp failed with failed | ⟨_, -, failed⟩
  · obtain ⟨candidate, candidateMember, failed⟩ := Graph.reachableAmong_eq_error failed
    obtain ⟨excluded, failed⟩ := Graph.isReachable_eq_error failed
    exact ⟨excluded, Graph.wouldCross_eq_error member candidateMember failed⟩
  · cases failed

variable [Draws γ]

/-- A spring is refused only in the search for candidates. -/
theorem createSpring_eq_error {blueprint : Blueprint} {cursor : Mass} {distance : Interval}
    {draws : γ} (failed : createSpring blueprint limits cursor distance draws = .error fault) :
    springCandidates blueprint limits cursor distance = .error fault := by
  unfold createSpring at failed
  rcases bind_eq_error.mp failed with search | ⟨candidates, -, failed⟩
  · exact search
  · dsimp only at failed
    split at failed <;> cases failed

/-- A letter that cannot be read asks for a spring that must not cross one. -/
theorem readLetter_eq_error {trail : Trail γ} {letter : Char × Nat}
    (cursor : trail.cursor ∈ trail.blueprint.graph.masses)
    (failed : readLetter limits trail letter = .error fault) :
    trail.blueprint.switches.excludeSpringCrossings = true ∧
      trail.blueprint.graph.HasFarEnd := by
  unfold readLetter at failed
  dsimp only at failed
  split at failed
  · cases failed
  · split at failed
    next distance template =>
      rcases bind_eq_error.mp failed with failed | ⟨_, -, failed⟩
      · exact springCandidates_eq_error cursor (createSpring_eq_error failed)
      · cases failed
    · cases failed

/-- A growth that is stopped has met a spring that must not cross one, and ends too far apart. -/
theorem develop_eq_error {blueprint : Blueprint} (described : blueprint.Described)
    {construction : Option (List Char)} {draws : γ} {growthFault : GrowthFault}
    (stopped : (develop limits blueprint construction draws).outcome = .error growthFault) :
    growthFault = .arithmetic .overflow ∧
      blueprint.switches.excludeSpringCrossings = true ∧
      (develop limits blueprint construction draws).blueprint.graph.HasFarEnd := by
  cases inputs : startInputs blueprint with
  | nil =>
    rw [develop_of_no_input limits inputs] at stopped
    cases stopped
  | cons first others =>
    rw [develop_of_input limits inputs] at stopped ⊢
    cases read : readConstruction limits { blueprint with graph := blueprint.graph.removeNetwork }
        first (construction.getD []) draws with
    | mk trail outcome =>
      rw [read] at stopped
      cases outcome with
      | none => simp [conclude, finish_outcome] at stopped
      | some fault =>
        cases stopped
        cases fault
        have placed := described.trail_placed inputs read
        obtain ⟨letter, -, failed⟩ := stepwise_eq_fault read
        obtain ⟨excluded, far⟩ := readLetter_eq_error placed.cursor_mem failed
        rw [placed.edited.rest] at excluded
        exact ⟨rfl, excluded, far⟩

end Growth

end SpringArm
