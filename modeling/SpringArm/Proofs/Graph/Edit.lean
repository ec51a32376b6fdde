import Mathlib.Logic.Relation
import SpringArm.Proofs.Graph.Sound

/-!
# Edits of a graph

Everything that reading a description and growing a network do to a graph is a chain of three kinds
of edits: a mass is added, two masses are joined, or masses and springs are taken out. `Graph.Edit`
lists them with what is known when they happen. What holds of every graph that is built is shown for
one edit and follows for chains of them.

New springs join masses of certain kinds only, so every spring of a graph that is built has ends
that go together.
-/

namespace SpringArm

/-- The parts of the skeleton are its joints and the inputs. -/
def MassKind.isPart : MassKind → Bool
  | .shoulder | .elbow | .hand | .input => true
  | .armSegment | .network => false

/-- The kinds of masses that springs join, in their direction: a part of the skeleton with a
segment, two segments, or two masses that growth can reach. -/
inductive MassKind.Joins : MassKind → MassKind → Prop where
  | part {kind} (part : kind.isPart = true) : Joins kind .armSegment
  | segments : Joins .armSegment .armSegment
  | grown {source destination} (sourceReachable : source.isReachable = true)
      (destinationReachable : destination.isReachable = true) : Joins source destination

namespace Graph

/-- One edit of a graph. -/
inductive Edit : Graph → Graph → Prop where
  | addMass {graph} (x y : Float) (kind : MassKind) : Edit graph (graph.addMass x y kind).2
  | addSpring {graph} {source destination : Mass} (sourceMember : source ∈ graph.masses)
      (destinationMember : destination ∈ graph.masses)
      (different : source.key ≠ destination.key)
      (free : graph.hasSpringBetween source destination = false)
      (joins : source.kind.Joins destination.kind) :
      Edit graph (graph.addSpring source destination).2
  | restrict {graph} {masses springs} (fewerMasses : masses.Sublist graph.masses)
      (fewerSprings : springs.Sublist graph.springs)
      (ends : ∀ spring ∈ springs, spring.source ∈ masses ∧ spring.destination ∈ masses) :
      Edit graph { graph with masses, springs }

/-- Any number of edits, one after the other. -/
abbrev Edits : Graph → Graph → Prop :=
  Relation.ReflTransGen Edit

theorem Sound.edit {before after : Graph} (sound : before.Sound) (edit : Edit before after) :
    after.Sound := by
  cases edit with
  | addMass x y kind => exact sound.addMass x y kind
  | addSpring sourceMember destinationMember different free joins =>
    exact sound.addSpring sourceMember destinationMember different free
  | restrict fewerMasses fewerSprings ends => exact sound.restrict fewerMasses fewerSprings ends

/-- Edits keep a graph sound. -/
theorem Sound.edits {before after : Graph} (sound : before.Sound) (edits : Edits before after) :
    after.Sound := by
  induction edits with
  | refl => exact sound
  | tail _ edit inductionHypothesis => exact inductionHypothesis.edit edit

/-- Every spring joins masses of kinds that go together and has the connection that these kinds ask
for. -/
def Typed (graph : Graph) : Prop :=
  ∀ spring ∈ graph.springs, spring.source.kind.Joins spring.destination.kind ∧
    spring.connection = Connection.between spring.source.kind spring.destination.kind

theorem Typed.edit {before after : Graph} (typed : before.Typed) (edit : Edit before after) :
    after.Typed := by
  cases edit with
  | addMass x y kind => exact typed
  | addSpring sourceMember destinationMember different free joins =>
    exact List.forall_mem_append.mpr ⟨typed, List.forall_mem_singleton.mpr ⟨joins, rfl⟩⟩
  | restrict fewerMasses fewerSprings ends =>
    exact fun spring member => typed spring (fewerSprings.subset member)

/-- Edits keep a graph typed. -/
theorem Typed.edits {before after : Graph} (typed : before.Typed) (edits : Edits before after) :
    after.Typed := by
  induction edits with
  | refl => exact typed
  | tail _ edit inductionHypothesis => exact inductionHypothesis.edit edit

section Removal

variable {graph : Graph}

theorem Sound.removeSpring_edit (sound : graph.Sound) {spring : Spring} {after : Graph}
    (removed : graph.removeSpring spring = .ok after) : Edit graph after := by
  rw [removeSpring_eq_ok removed]
  apply Edit.restrict (List.Sublist.refl _) (List.eraseP_sublist ..)
  intro other member
  exact sound.ends_mem other (List.mem_of_mem_eraseP member)

/-- The springs that stay do not touch the network, so their ends stay too. -/
theorem Sound.removeNetwork_edit (sound : graph.Sound) : Edit graph graph.removeNetwork := by
  apply Edit.restrict List.filter_sublist List.filter_sublist
  intro spring member
  obtain ⟨old, untouched⟩ := List.mem_filter.mp member
  have ends := sound.ends_mem spring old
  simp only [Spring.touchesNetwork, Bool.not_or, Bool.and_eq_true, Bool.not_eq_true'] at untouched
  exact ⟨List.mem_filter.mpr ⟨ends.1, by simp [bne, untouched.1]⟩,
    List.mem_filter.mpr ⟨ends.2, by simp [bne, untouched.2]⟩⟩

/-- A mass without springs is the end of none. -/
theorem Sound.removeUnconnected_edit (sound : graph.Sound) :
    Edit graph graph.removeUnconnected.2 := by
  apply Edit.restrict List.filter_sublist (List.Sublist.refl _)
  intro spring member
  have ends := sound.ends_mem spring member
  have connected : ∀ mass : Mass, spring.source = mass ∨ spring.destination = mass →
      graph.isUnconnected mass = false := by
    intro mass isEnd
    have touched : spring ∈ graph.springsOf mass := by
      rw [mem_springsOf]
      exact ⟨member, isEnd.imp (congrArg Mass.key) (congrArg Mass.key)⟩
    simp [isUnconnected, List.ne_nil_of_mem touched]
  exact ⟨List.mem_filter.mpr ⟨ends.1, by simp [connected _ (.inl rfl)]⟩,
    List.mem_filter.mpr ⟨ends.2, by simp [connected _ (.inr rfl)]⟩⟩

end Removal

end Graph

end SpringArm
