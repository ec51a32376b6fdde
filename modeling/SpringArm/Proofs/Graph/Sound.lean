import Mathlib.Data.Sym.Sym2
import SpringArm.Graph.Basic

/-!
# Sound graphs

A graph is closed when its masses are different ones and its springs end at masses of it. It is
sound when moreover every spring leads to another mass and no two springs join the same two.
`Graph.Sound` says so and also what keeps it so: springs have keys of their own and every key is
below the next one. A new mass, a new spring between masses that are not joined yet, and taking
masses and springs out all leave a graph sound.
-/

namespace SpringArm

/-- The keys of the two ends of a spring, in no order. -/
def Spring.pair (spring : Spring) : Sym2 Nat :=
  s(spring.source.key, spring.destination.key)

@[simp] theorem Spring.joining_source (key : Nat) (source destination : Mass) :
    (Spring.joining key source destination).source = source := rfl

@[simp] theorem Spring.joining_destination (key : Nat) (source destination : Mass) :
    (Spring.joining key source destination).destination = destination := rfl

theorem Spring.touches_iff {spring : Spring} {mass : Mass} :
    spring.touches mass = true ↔
      spring.source.key = mass.key ∨ spring.destination.key = mass.key := by
  simp [Spring.touches, Mass.same]

/-- A spring that ends at two different masses joins just these. -/
theorem Spring.touches_both_iff {spring : Spring} {first second : Mass}
    (different : first.key ≠ second.key) :
    spring.touches first = true ∧ spring.touches second = true ↔
      spring.pair = s(first.key, second.key) := by
  rw [touches_iff, touches_iff, pair, Sym2.eq_iff]
  omega

namespace Graph

/-- The masses are different ones, and every spring joins two masses of the graph. -/
structure Closed (graph : Graph) : Prop where
  masses_nodup : (graph.masses.map Mass.key).Nodup
  ends_mem : ∀ spring ∈ graph.springs,
    spring.source ∈ graph.masses ∧ spring.destination ∈ graph.masses

/-- The masses are different ones, every spring joins two different masses of the graph, and no two
springs join the same two. New keys are larger than all that are in use. -/
structure Sound (graph : Graph) : Prop extends graph.Closed where
  springs_nodup : (graph.springs.map Spring.key).Nodup
  masses_fresh : ∀ mass ∈ graph.masses, mass.key < graph.nextKey
  springs_fresh : ∀ spring ∈ graph.springs, spring.key < graph.nextKey
  loopless : ∀ spring ∈ graph.springs, spring.source.key ≠ spring.destination.key
  simple : (graph.springs.map Spring.pair).Nodup

section Views

variable {graph : Graph} {x y : Float} {kind : MassKind} {source destination : Mass}

@[simp] theorem addMass_mass :
    (graph.addMass x y kind).1 = ⟨graph.nextKey, x, y, kind⟩ := rfl

@[simp] theorem addMass_masses :
    (graph.addMass x y kind).2.masses = graph.masses ++ [⟨graph.nextKey, x, y, kind⟩] := rfl

@[simp] theorem addMass_springs :
    (graph.addMass x y kind).2.springs = graph.springs := rfl

@[simp] theorem addMass_nextKey :
    (graph.addMass x y kind).2.nextKey = graph.nextKey + 1 := rfl

@[simp] theorem addSpring_masses :
    (graph.addSpring source destination).2.masses = graph.masses := rfl

@[simp] theorem addSpring_springs :
    (graph.addSpring source destination).2.springs =
      graph.springs ++ [Spring.joining graph.nextKey source destination] := rfl

@[simp] theorem addSpring_nextKey :
    (graph.addSpring source destination).2.nextKey = graph.nextKey + 1 := rfl

end Views

theorem mem_springsOf {graph : Graph} {mass : Mass} {spring : Spring} :
    spring ∈ graph.springsOf mass ↔ spring ∈ graph.springs ∧
      (spring.source.key = mass.key ∨ spring.destination.key = mass.key) := by
  rw [springsOf, List.mem_filter, Spring.touches_iff]

/-- Whether a spring joins two different masses can be read off the pairs. -/
theorem hasSpringBetween_iff {graph : Graph} {first second : Mass}
    (different : first.key ≠ second.key) :
    graph.hasSpringBetween first second = true ↔
      s(first.key, second.key) ∈ graph.springs.map Spring.pair := by
  simp only [hasSpringBetween, List.any_eq_true, springsOf, List.mem_filter, List.mem_map,
    and_assoc, Spring.touches_both_iff different]

theorem mem_networkMasses {graph : Graph} {mass : Mass} :
    mass ∈ graph.networkMasses ↔ mass ∈ graph.masses ∧ mass.kind = .network := by
  simp [networkMasses, massesOfKind]

theorem mem_inputs {graph : Graph} {mass : Mass} :
    mass ∈ graph.inputs ↔ mass ∈ graph.masses ∧ mass.kind = .input := by
  simp [inputs, massesOfKind]

/-- What is removed is a spring of the graph, and the others keep their order. -/
theorem removeSpring_eq_ok {graph after : Graph} {spring : Spring}
    (removed : graph.removeSpring spring = .ok after) :
    after = { graph with springs := graph.springs.eraseP (·.same spring) } := by
  unfold removeSpring at removed
  split at removed
  · exact (Except.ok.inj removed).symm
  · simp at removed

/-- Where springs have keys of their own, just the spring that is removed is lost. -/
theorem removeSpring_split {graph after : Graph} {spring : Spring}
    (distinct : (graph.springs.map Spring.key).Nodup) (member : spring ∈ graph.springs)
    (removed : graph.removeSpring spring = .ok after) :
    ∃ front back, graph.springs = front ++ spring :: back ∧
      after = { graph with springs := front ++ back } := by
  obtain ⟨found, front, back, -, same, split, erased⟩ :=
    List.exists_of_eraseP (p := (·.same spring)) member (beq_self_eq_true spring.key)
  have foundMember : found ∈ graph.springs := by simp [split]
  obtain rfl : found = spring :=
    List.inj_on_of_nodup_map distinct foundMember member (beq_iff_eq.mp same)
  exact ⟨front, back, split, by rw [removeSpring_eq_ok removed, erased]⟩

namespace Closed

variable {graph : Graph}

/-- A mass of a closed graph is known by its key. -/
theorem mass_ext (closed : graph.Closed) {first second : Mass} (firstMember : first ∈ graph.masses)
    (secondMember : second ∈ graph.masses) (keys : first.key = second.key) : first = second :=
  List.inj_on_of_nodup_map closed.masses_nodup firstMember secondMember keys

/-- Masses of different kinds are different ones. -/
theorem key_ne (closed : graph.Closed) {first second : Mass} (firstMember : first ∈ graph.masses)
    (secondMember : second ∈ graph.masses) (kinds : first.kind ≠ second.kind) :
    first.key ≠ second.key :=
  fun keys => kinds (congrArg Mass.kind (closed.mass_ext firstMember secondMember keys))

end Closed

namespace Sound

variable {graph : Graph}

private theorem nodup_map_concat {α β : Type} {view : α → β} {items : List α} {item : α}
    (nodup : (items.map view).Nodup) (absent : view item ∉ items.map view) :
    ((items ++ [item]).map view).Nodup := by
  rw [List.map_append, List.nodup_append]
  refine ⟨nodup, List.nodup_singleton _, ?_⟩
  rintro value present _ new rfl
  rw [List.map_singleton, List.mem_singleton] at new
  exact absent (new ▸ present)

/-- A spring of a sound graph is known by its key. -/
theorem spring_ext (sound : graph.Sound) {first second : Spring}
    (firstMember : first ∈ graph.springs) (secondMember : second ∈ graph.springs)
    (keys : first.key = second.key) : first = second :=
  List.inj_on_of_nodup_map sound.springs_nodup firstMember secondMember keys

/-- Just the spring that is removed is lost, because no other one has its key. -/
theorem mem_removeSpring (sound : graph.Sound) {after : Graph} {spring other : Spring}
    (removed : graph.removeSpring spring = .ok after) :
    other ∈ after.springs ↔ other ∈ graph.springs ∧ other.key ≠ spring.key := by
  rw [removeSpring_eq_ok removed]
  constructor
  · intro member
    refine ⟨List.mem_of_mem_eraseP member, fun same : other.key = spring.key => ?_⟩
    have absent := sound.springs_nodup.not_mem_erase (a := spring.key)
    rw [List.erase_eq_eraseP', List.eraseP_map] at absent
    have present := List.mem_map_of_mem (f := Spring.key) member
    rw [same] at present
    exact absent present
  · rintro ⟨member, different⟩
    exact (List.mem_eraseP_of_neg (by simpa [Spring.same] using different)).mpr member

theorem empty (nextKey : Nat) : (Graph.empty nextKey).Sound := by
  refine ⟨⟨?_, ?_⟩, ?_, ?_, ?_, ?_, ?_⟩ <;> simp [Graph.empty]

/-- A new mass has a key of its own and touches no spring. -/
theorem addMass (sound : graph.Sound) (x y : Float) (kind : MassKind) :
    (graph.addMass x y kind).2.Sound where
  masses_nodup := by
    apply nodup_map_concat sound.masses_nodup
    intro used
    obtain ⟨mass, member, key⟩ := List.mem_map.mp used
    exact absurd key (Nat.ne_of_lt (sound.masses_fresh mass member))
  springs_nodup := sound.springs_nodup
  masses_fresh := List.forall_mem_append.mpr
    ⟨fun mass member => Nat.lt_succ_of_lt (sound.masses_fresh mass member),
      List.forall_mem_singleton.mpr (Nat.lt_succ_self graph.nextKey)⟩
  springs_fresh := fun spring member => Nat.lt_succ_of_lt (sound.springs_fresh spring member)
  ends_mem := fun spring member =>
    ⟨List.mem_append_left _ (sound.ends_mem spring member).1,
      List.mem_append_left _ (sound.ends_mem spring member).2⟩
  loopless := sound.loopless
  simple := sound.simple

/-- A new spring between two different masses that no spring joins yet. -/
theorem addSpring (sound : graph.Sound) {source destination : Mass}
    (sourceMember : source ∈ graph.masses) (destinationMember : destination ∈ graph.masses)
    (different : source.key ≠ destination.key)
    (free : graph.hasSpringBetween source destination = false) :
    (graph.addSpring source destination).2.Sound where
  masses_nodup := sound.masses_nodup
  springs_nodup := by
    apply nodup_map_concat sound.springs_nodup
    intro used
    obtain ⟨spring, member, key⟩ := List.mem_map.mp used
    exact absurd key (Nat.ne_of_lt (sound.springs_fresh spring member))
  masses_fresh := fun mass member => Nat.lt_succ_of_lt (sound.masses_fresh mass member)
  springs_fresh := List.forall_mem_append.mpr
    ⟨fun spring member => Nat.lt_succ_of_lt (sound.springs_fresh spring member),
      List.forall_mem_singleton.mpr (Nat.lt_succ_self graph.nextKey)⟩
  ends_mem := List.forall_mem_append.mpr
    ⟨sound.ends_mem, List.forall_mem_singleton.mpr ⟨sourceMember, destinationMember⟩⟩
  loopless := List.forall_mem_append.mpr
    ⟨sound.loopless, List.forall_mem_singleton.mpr different⟩
  simple := by
    apply nodup_map_concat sound.simple
    have unjoined : s(source.key, destination.key) ∉ graph.springs.map Spring.pair := by
      rw [← hasSpringBetween_iff different, free]
      exact Bool.false_ne_true
    exact unjoined

/-- Taking out masses and springs leaves a sound graph, if no spring loses an end. -/
theorem restrict (sound : graph.Sound) {masses : List Mass} {springs : List Spring}
    (fewerMasses : masses.Sublist graph.masses) (fewerSprings : springs.Sublist graph.springs)
    (ends : ∀ spring ∈ springs, spring.source ∈ masses ∧ spring.destination ∈ masses) :
    ({ graph with masses, springs } : Graph).Sound where
  masses_nodup := sound.masses_nodup.sublist (fewerMasses.map Mass.key)
  springs_nodup := sound.springs_nodup.sublist (fewerSprings.map Spring.key)
  masses_fresh := fun mass member => sound.masses_fresh mass (fewerMasses.subset member)
  springs_fresh := fun spring member => sound.springs_fresh spring (fewerSprings.subset member)
  ends_mem := ends
  loopless := fun spring member => sound.loopless spring (fewerSprings.subset member)
  simple := sound.simple.sublist (fewerSprings.map Spring.pair)

end Sound

end Graph

end SpringArm
