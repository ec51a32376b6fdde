import SpringArm.Proofs.Graph.Joined
import SpringArm.Proofs.Growth.Moves

/-!
# One pass over dead ends

Pruning visits every network mass once. A mass that is a dead end when it is visited loses its
spring, and with it a neighbour that was visited before may become one; it is not visited again. So
what the pass leaves depends on the order of the visits, and `PrunedTo` says of the masses visited
so far how they can be left.
-/

namespace SpringArm

namespace Graph

section Degree

variable {graph after : Graph} {mass : Mass}

/-- With fewer springs fewer of them end at a mass. -/
theorem degree_le (fewer : after.springs.Sublist graph.springs) (mass : Mass) :
    after.degree mass ≤ graph.degree mass :=
  (List.Sublist.filter _ fewer).length_le

/-- A spring that is taken out is missing at its ends and nowhere else. -/
theorem degree_removeSpring {spring : Spring} {front back : List Spring}
    (split : graph.springs = front ++ spring :: back) (mass : Mass) :
    graph.degree mass = degree { graph with springs := front ++ back } mass +
      if spring.touches mass then 1 else 0 := by
  rw [degree, degree, springsOf, springsOf, split]
  simp only [List.filter_append, List.filter_cons, List.length_append]
  split
  · rw [List.length_cons, Nat.add_assoc]
  · rfl

/-- A spring of a closed graph that ends at two different masses of it joins them. -/
theorem Closed.joins_of_touches (closed : graph.Closed) {spring : Spring}
    (member : spring ∈ graph.springs) {first second : Mass} (firstMember : first ∈ graph.masses)
    (secondMember : second ∈ graph.masses) (different : first.key ≠ second.key)
    (atFirst : spring.touches first = true) (atSecond : spring.touches second = true) :
    spring.Joins first second := by
  obtain ⟨sourceMember, destinationMember⟩ := closed.ends_mem spring member
  have isSource : ∀ {mass : Mass}, mass ∈ graph.masses → spring.source.key = mass.key →
      spring.source = mass := closed.mass_ext sourceMember
  have isDestination : ∀ {mass : Mass}, mass ∈ graph.masses → spring.destination.key = mass.key →
      spring.destination = mass := closed.mass_ext destinationMember
  have ends := Sym2.eq_iff.mp ((Spring.touches_both_iff different).mp ⟨atFirst, atSecond⟩)
  rcases ends with ⟨source, destination⟩ | ⟨source, destination⟩
  · exact .inl ⟨isSource firstMember source, isDestination secondMember destination⟩
  · exact .inr ⟨isSource secondMember source, isDestination firstMember destination⟩

end Degree

/-- How a graph can be left when some of its masses have been visited in turn and the dead ends
among them have lost their springs. -/
structure PrunedTo (before : Graph) (visited : List Mass) (after : Graph) : Prop where
  masses : after.masses = before.masses
  springs : after.springs.Sublist before.springs
  /-- A spring is taken out at a visited mass, where none is left. -/
  removed : ∀ spring ∈ before.springs, spring ∉ after.springs →
    ∃ mass ∈ visited, spring.touches mass = true ∧ after.degree mass = 0
  /-- A visited mass is left with a single spring only if it lost another one to a mass that was
  visited later. -/
  folded : ∀ mass ∈ visited, after.degree mass = 1 → 2 ≤ before.degree mass ∧
    ∃ spring ∈ before.springs, spring ∉ after.springs ∧
      ∃ later, [mass, later].Sublist visited ∧ spring.Joins mass later

namespace PrunedTo

variable {before between after : Graph} {visited : List Mass} {mass : Mass}

theorem refl (graph : Graph) : PrunedTo graph [] graph :=
  ⟨rfl, List.Sublist.refl _, fun _ member gone => absurd member gone, by simp⟩

/-- A mass that is no dead end is left alone. -/
theorem pass (pruned : PrunedTo before visited between) (noDeadEnd : between.degree mass ≠ 1) :
    PrunedTo before (visited ++ [mass]) between where
  masses := pruned.masses
  springs := pruned.springs
  removed := by
    intro spring member gone
    obtain ⟨leaf, isVisited, touches, bare⟩ := pruned.removed spring member gone
    exact ⟨leaf, List.mem_append_left _ isVisited, touches, bare⟩
  folded := by
    intro other isVisited single
    rcases List.mem_append.mp isVisited with earlier | now
    · obtain ⟨two, spring, member, gone, later, order, joins⟩ := pruned.folded other earlier single
      exact ⟨two, spring, member, gone, later,
        order.trans (List.sublist_append_left _ _), joins⟩
    · rw [List.mem_singleton.mp now] at single
      exact absurd single noDeadEnd

/-- A dead end loses its spring. -/
theorem removeSpring (pruned : PrunedTo before visited between) (closed : before.Closed)
    (distinct : (before.springs.map Spring.key).Nodup)
    (visits : (visited ++ [mass]).Sublist before.masses) {spring : Spring}
    (only : between.springsOf mass = [spring]) (removed : between.removeSpring spring = .ok after) :
    PrunedTo before (visited ++ [mass]) after := by
  have ends : spring ∈ between.springsOf mass := only ▸ List.mem_singleton_self spring
  obtain ⟨member, touches⟩ := List.mem_filter.mp ends
  have betweenDistinct := distinct.sublist (pruned.springs.map Spring.key)
  obtain ⟨front, back, split, rfl⟩ := removeSpring_split betweenDistinct member removed
  have fewer : (front ++ back).Sublist between.springs := by
    rw [split]
    exact List.Sublist.append_left (List.sublist_cons_self spring back) front
  have gone : spring ∉ front ++ back := by
    rw [split] at betweenDistinct
    exact (List.nodup_cons.mp (List.nodup_middle.mp betweenDistinct.of_map)).1
  have degrees := degree_removeSpring split
  have bare : degree { between with springs := front ++ back } mass = 0 := by
    have here := degrees mass
    rw [degree, only, touches] at here
    simpa using here.symm
  refine ⟨pruned.masses, fewer.trans pruned.springs, ?_, ?_⟩
  · intro other otherMember otherGone
    by_cases earlier : other ∈ between.springs
    · have same : other = spring := by
        rw [split, List.mem_append, List.mem_cons] at earlier
        rw [List.mem_append] at otherGone
        tauto
      exact ⟨mass, List.mem_append_right _ (List.mem_singleton_self mass), same ▸ touches, bare⟩
    · obtain ⟨leaf, isVisited, atLeaf, bareLeaf⟩ := pruned.removed other otherMember earlier
      refine ⟨leaf, List.mem_append_left _ isVisited, atLeaf, ?_⟩
      exact Nat.le_zero.mp (bareLeaf ▸ degree_le fewer leaf)
  · intro other isVisited single
    rcases List.mem_append.mp isVisited with earlier | now
    · cases atOther : spring.touches other with
      | true =>
        -- The neighbour had another spring beside the one that it loses now.
        have here := degrees other
        rw [single, atOther] at here
        have two : 2 ≤ before.degree other := by
          have fewer := degree_le pruned.springs other
          rwa [here] at fewer
        have springMember := pruned.springs.subset member
        have different : other.key ≠ mass.key := by
          have keys := closed.masses_nodup.sublist (visits.map Mass.key)
          rw [List.map_append] at keys
          exact (List.nodup_append.mp keys).2.2 _ (List.mem_map_of_mem earlier) _
            (List.mem_map_of_mem (List.mem_singleton_self mass))
        have order : [other, mass].Sublist (visited ++ [mass]) :=
          (List.singleton_sublist.mpr earlier).append (List.Sublist.refl [mass])
        exact ⟨two, spring, springMember, gone, mass, order,
          closed.joins_of_touches springMember
            (visits.subset (List.mem_append_left _ earlier))
            (visits.subset (List.mem_append_right _ (List.mem_singleton_self mass))) different
            atOther touches⟩
      | false =>
        have here := degrees other
        rw [single, atOther] at here
        obtain ⟨two, found, foundMember, foundGone, later, order, joins⟩ :=
          pruned.folded other earlier here
        exact ⟨two, found, foundMember, fun kept => foundGone (fewer.subset kept), later,
          order.trans (List.sublist_append_left _ _), joins⟩
    · rw [List.mem_singleton.mp now, bare] at single
      cases single

end PrunedTo

/-- What one pass over the dead ends of the network leaves of a graph. -/
structure Pruned (before after : Graph) : Prop where
  masses : after.masses = before.masses
  springs : after.springs.Sublist before.springs
  /-- A spring is only taken out at a network mass, where none is left. -/
  removed : ∀ spring ∈ before.springs, spring ∉ after.springs →
    ∃ mass ∈ before.networkMasses, (spring.source = mass ∨ spring.destination = mass) ∧
      after.springsOf mass = []
  /-- What was a dead end has no spring any more. -/
  deadEnds : ∀ mass ∈ before.networkMasses, before.degree mass = 1 → after.springsOf mass = []
  /-- What is a dead end now was none before, and has lost a spring to a later network mass. -/
  folded : ∀ mass ∈ before.networkMasses, after.degree mass = 1 → 2 ≤ before.degree mass ∧
    ∃ spring ∈ before.springs, spring ∉ after.springs ∧
      ∃ later, [mass, later].Sublist before.networkMasses ∧ spring.Joins mass later
  /-- Springs outside the network stay. -/
  kept : ∀ spring ∈ before.springs, spring.touchesNetwork = false → spring ∈ after.springs

theorem degree_eq_zero_iff {graph : Graph} {mass : Mass} :
    graph.degree mass = 0 ↔ graph.springsOf mass = [] :=
  List.length_eq_zero_iff

/-- When all network masses have been visited the pass is over. -/
theorem PrunedTo.finish {before after : Graph} (pruned : PrunedTo before before.networkMasses after)
    (closed : before.Closed) : Pruned before after := by
  have removed : ∀ spring ∈ before.springs, spring ∉ after.springs →
      ∃ mass ∈ before.networkMasses, (spring.source = mass ∨ spring.destination = mass) ∧
        after.springsOf mass = [] := by
    intro spring member gone
    obtain ⟨mass, isVisited, touches, bare⟩ := pruned.removed spring member gone
    obtain ⟨sourceMember, destinationMember⟩ := closed.ends_mem spring member
    have massMember := (mem_networkMasses.mp isVisited).1
    refine ⟨mass, isVisited, ?_, degree_eq_zero_iff.mp bare⟩
    exact (Spring.touches_iff.mp touches).imp (closed.mass_ext sourceMember massMember)
      (closed.mass_ext destinationMember massMember)
  refine ⟨pruned.masses, pruned.springs, removed, ?_, pruned.folded, ?_⟩
  · intro mass isVisited single
    have fewer := degree_le pruned.springs mass
    by_contra some
    have left : after.degree mass = 1 := by
      have := mt degree_eq_zero_iff.mp some
      omega
    have two := (pruned.folded mass isVisited left).1
    omega
  · intro spring member untouched
    by_contra gone
    obtain ⟨mass, isVisited, ends, -⟩ := removed spring member gone
    have network := (mem_networkMasses.mp isVisited).2
    rcases ends with rfl | rfl <;> simp [Spring.touchesNetwork, network] at untouched

end Graph

namespace Growth

open SpringArm.Graph (Pruned PrunedTo)

theorem prune_prunedTo {graph : Graph} (closed : graph.Closed)
    (distinct : (graph.springs.map Spring.key).Nodup) :
    PrunedTo graph graph.networkMasses (prune graph).1 := by
  have visit : ∀ visited before mass after, visited ++ [mass] <+: graph.networkMasses →
      stepwise pruneMass graph visited = (before, none) → PrunedTo graph visited before →
      pruneMass before mass = .ok after → PrunedTo graph (visited ++ [mass]) after := by
    intro visited before mass after inOrder _ soFar visit
    have visits := inOrder.sublist.trans List.filter_sublist
    rcases pruneMass_cases visit with ⟨spring, only, removed⟩ | ⟨noDeadEnd, rfl⟩
    · exact soFar.removeSpring closed distinct visits only removed
    · exact soFar.pass noDeadEnd
  obtain ⟨visited, -, -, pruned, all⟩ := stepwise_done (PrunedTo graph) _ (.refl graph) visit
  exact all (prune_succeeds graph) ▸ pruned

/-- Counting the springs that are lost does not change what is lost, and counts all of it. -/
theorem pruneCounting_eq (graph : Graph) :
    pruneCounting graph =
      (((prune graph).1, graph.springs.length - (prune graph).1.springs.length), none) := by
  have uncounted : prune graph = ((pruneCounting graph).1.1, (pruneCounting graph).2) := by
    have visit : ∀ (state : Graph × Nat) mass, True →
        pruneMass state.1 mass = (pruneMassCounting state mass).map Prod.fst := by
      rintro ⟨reached, removed⟩ mass -
      cases outcome : pruneMass reached mass <;> simp [pruneMassCounting, outcome] <;> rfl
    have visits := stepwise_map Prod.fst id (fun _ => True) (fun _ _ _ _ _ => trivial) visit
      (graph, 0) trivial graph.networkMasses
    rwa [List.map_id] at visits
  have counted : (pruneCounting graph).1.2 + (pruneCounting graph).1.1.springs.length =
      graph.springs.length := by
    refine stepwise_invariant
      (fun state : Graph × Nat => state.2 + state.1.springs.length = graph.springs.length)
      (Nat.zero_add _) ?_
    rintro ⟨before, removed⟩ mass after - soFar counting
    obtain ⟨pruned, visit, counting⟩ := bind_eq_ok.mp counting
    cases counting
    rcases pruneMass_cases visit with ⟨spring, only, isRemoved⟩ | ⟨several, rfl⟩
    · have ends : spring ∈ before.springsOf mass := only ▸ List.mem_singleton_self spring
      have member := (List.mem_filter.mp ends).1
      have single : before.degree mass = 1 := congrArg List.length only
      have shorter := List.length_eraseP_of_mem (p := (·.same spring)) member
        (beq_self_eq_true spring.key)
      have some := List.length_pos_of_mem member
      simp only [Graph.removeSpring_eq_ok isRemoved, single, if_true]
      dsimp only at soFar
      omega
    · simpa only [if_neg several] using soFar
  have succeeds := prune_succeeds graph
  rw [uncounted] at succeeds ⊢
  have count : (pruneCounting graph).1.2 =
      graph.springs.length - (pruneCounting graph).1.1.springs.length := by omega
  rw [← count, ← succeeds]

/-- Pruning makes exactly one pass over the dead ends. The springs that are left keep their order,
and as many are counted as are gone. Each of them was taken out at a network mass, at which none is
left. What was a dead end has no spring any more; what is one now had several springs and has lost
one to a later network mass. Springs outside the network and all masses stay. -/
theorem pruneCounting_deadEnds {graph : Graph} (closed : graph.Closed)
    (distinct : (graph.springs.map Spring.key).Nodup) :
    ∃ pruned, pruneCounting graph =
        ((pruned, graph.springs.length - pruned.springs.length), none) ∧
      prune graph = (pruned, none) ∧ graph.Pruned pruned := by
  have prunes : prune graph = ((prune graph).1, none) := by
    rw [← prune_succeeds graph]
  exact ⟨(prune graph).1, pruneCounting_eq graph, prunes,
    (prune_prunedTo closed distinct).finish closed⟩

/-- An input with a chain of two network masses. -/
def chain : Graph :=
  let input : Mass := ⟨0, 0, 0, .input⟩
  let near : Mass := ⟨1, 1, 0, .network⟩
  let far : Mass := ⟨2, 2, 0, .network⟩
  ⟨[input, near, far], [.joining 3 input near, .joining 4 near far], 5⟩

/-- The far mass of the chain loses its spring. The near mass was visited before, so it is left as a
dead end. -/
theorem pruneCounting_deadEnds_chain :
    chain.Closed ∧ (chain.springs.map Spring.key).Nodup ∧
      ∃ pruned, pruneCounting chain = ((pruned, 1), none) ∧ chain.Pruned pruned ∧
        pruned.springs.map Spring.key = [3] ∧
        ∃ near ∈ chain.networkMasses, pruned.degree near = 1 ∧ 2 ≤ chain.degree near := by
  have closed : chain.Closed := ⟨by decide, by simp [chain, Spring.joining]⟩
  have distinct : (chain.springs.map Spring.key).Nodup := by decide
  obtain ⟨pruned, counts, prunes, left⟩ := pruneCounting_deadEnds closed distinct
  obtain rfl : (prune chain).1 = pruned := congrArg Prod.fst prunes
  refine ⟨closed, distinct, (prune chain).1, counts, left, rfl, ⟨1, 1, 0, .network⟩, ?_, rfl, ?_⟩
  · simp [chain, Graph.networkMasses, Graph.massesOfKind]
  · exact (left.folded _ (by simp [chain, Graph.networkMasses, Graph.massesOfKind]) rfl).1

end Growth

end SpringArm
