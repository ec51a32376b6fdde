import Mathlib.Data.Finset.Sym
import SpringArm.Proofs.Growth.Edits

/-!
# Random springs

Random springs are looked for by drawing pairs of masses, and a pair is joined if it is accepted.
`PairsDrawn` follows the draws and `SpringsAdded` what the accepted pairs leave behind. No pair is
joined twice, so there are no more random springs than pairs that were open before.
-/

namespace SpringArm.Growth

/-- The pairs that a random spring can join: a network mass and another mass of the network or an
input that no spring joins to it. -/
def openPairs (graph : Graph) : Finset (Sym2 Nat) :=
  (graph.networkMasses.flatMap fun mass =>
    (springPool graph).map fun other => s(mass.key, other.key)).toFinset.filter fun pair =>
      ¬pair.IsDiag ∧ pair ∉ graph.springs.map Spring.pair

/-- A spring between the masses of an open pair. -/
structure OpenSpring (graph : Graph) (spring : Spring) : Prop where
  source_mem : spring.source ∈ springPool graph
  destination_mem : spring.destination ∈ springPool graph
  different : spring.source.key ≠ spring.destination.key
  network : spring.source.kind = .network ∨ spring.destination.kind = .network
  connection : spring.connection = .spring
  unjoined : spring.pair ∉ graph.springs.map Spring.pair

/-- Springs between different open pairs have come behind the springs of a graph, and nothing else
has changed but the supply of keys. -/
structure SpringsAdded (before after : Graph) (added : List Spring) : Prop where
  masses : after.masses = before.masses
  springs : after.springs = before.springs ++ added
  isOpen : ∀ spring ∈ added, OpenSpring before spring
  pairs_nodup : (added.map Spring.pair).Nodup

/-- Joins the masses of a pair if they are accepted. -/
def joinAccepted (graph : Graph) (ends : Mass × Mass) : Graph :=
  if acceptsEnds graph ends.1 ends.2 then (graph.addSpring ends.1 ends.2).2 else graph

theorem isReachable_cases {kind : MassKind} (reachable : kind.isReachable = true) :
    kind = .network ∨ kind = .input := by
  simpa [MassKind.isReachable] using reachable

theorem OpenSpring.pair_mem {graph : Graph} {spring : Spring} (isOpen : OpenSpring graph spring) :
    spring.pair ∈ openPairs graph := by
  have kinds : ∀ mass ∈ springPool graph, mass.kind = .network → mass ∈ graph.networkMasses := by
    intro mass member network
    exact Graph.mem_networkMasses.mpr ⟨(mem_springPool member).1, network⟩
  rw [openPairs, Finset.mem_filter, List.mem_toFinset]
  refine ⟨?_, isOpen.different, isOpen.unjoined⟩
  simp only [List.mem_flatMap, List.mem_map]
  rcases isOpen.network with network | network
  · exact ⟨_, kinds _ isOpen.source_mem network, _, isOpen.destination_mem, rfl⟩
  · exact ⟨_, kinds _ isOpen.destination_mem network, _, isOpen.source_mem, Sym2.eq_swap⟩

namespace SpringsAdded

variable {before after : Graph} {added : List Spring}

theorem refl (graph : Graph) : SpringsAdded graph graph [] :=
  ⟨rfl, by simp, by simp, by simp⟩

/-- An accepted pair of the pool was open in the beginning and is not one of those that were joined
since. -/
theorem addSpring (adds : SpringsAdded before after added) {source destination : Mass}
    (sourceMember : source ∈ springPool before)
    (destinationMember : destination ∈ springPool before)
    (accepted : acceptsEnds after source destination = true) :
    SpringsAdded before (after.addSpring source destination).2
      (added ++ [Spring.joining after.nextKey source destination]) := by
  obtain ⟨different, notInputs, free⟩ := acceptsEnds_iff.mp accepted
  have unjoined : s(source.key, destination.key) ∉ after.springs.map Spring.pair := by
    rw [← Graph.hasSpringBetween_iff different, free]
    exact Bool.false_ne_true
  rw [adds.springs, List.map_append, List.mem_append, not_or] at unjoined
  have kinds := isReachable_cases (mem_springPool sourceMember).2
  have otherKinds := isReachable_cases (mem_springPool destinationMember).2
  refine ⟨adds.masses, by simp [adds.springs], List.forall_mem_append.mpr ⟨adds.isOpen, ?_⟩, ?_⟩
  · refine List.forall_mem_singleton.mpr ⟨sourceMember, destinationMember, different, ?_, ?_,
      unjoined.1⟩
    · simp only [Spring.joining_source, Spring.joining_destination]
      tauto
    · rcases kinds with network | input
      · simp [Spring.joining, Connection.between, Connection.fromKind, network]
      · have network := otherKinds.resolve_right fun other => notInputs ⟨input, other⟩
        simp [Spring.joining, Connection.between, Connection.fromKind, input, network]
  · rw [List.map_append, List.map_singleton, ← List.concat_eq_append]
    exact adds.pairs_nodup.concat unjoined.2

/-- There are no more new springs than open pairs. -/
theorem length_le (adds : SpringsAdded before after added) :
    added.length ≤ (openPairs before).card := by
  calc added.length = (added.map Spring.pair).toFinset.card := by
        rw [List.toFinset_card_of_nodup adds.pairs_nodup, List.length_map]
    _ ≤ (openPairs before).card := by
        apply Finset.card_le_card
        intro pair member
        obtain ⟨spring, isAdded, rfl⟩ := List.mem_map.mp (List.mem_toFinset.mp member)
        exact (adds.isOpen spring isAdded).pair_mem

end SpringsAdded

section Draws

variable {γ : Type} [Draws γ]

/-- So many pairs of ends are drawn one after the other between two sources of draws. -/
inductive PairsDrawn (inputs pool : List Mass) (inputChance : Float) :
    List (Mass × Mass) → γ → γ → Prop where
  | none (draws : γ) : PairsDrawn inputs pool inputChance [] draws draws
  | next {draws rest : γ} {pairs : List (Mass × Mass)} (nonempty : 0 < pool.length)
      (later : PairsDrawn inputs pool inputChance pairs
        (drawEnds inputs pool nonempty inputChance draws).2 rest) :
      PairsDrawn inputs pool inputChance
        ((drawEnds inputs pool nonempty inputChance draws).1 :: pairs) draws rest

/-- Whatever pairs are drawn, the accepted ones become springs. -/
theorem PairsDrawn.added {base graph : Graph} {inputChance : Float} {pairs : List (Mass × Mass)}
    {added : List Spring} {draws rest : γ}
    (drawn : PairsDrawn base.inputs (springPool base) inputChance pairs draws rest)
    (adds : SpringsAdded base graph added) :
    ∃ final, SpringsAdded base (pairs.foldl joinAccepted graph) final := by
  induction drawn generalizing graph added with
  | none => exact ⟨added, adds⟩
  | @next draws rest pairs nonempty later inductionHypothesis =>
    obtain ⟨source, destination⟩ := drawEnds_mem nonempty inputChance draws
      (List.subset_append_right base.networkMasses base.inputs)
    rw [List.foldl_cons, joinAccepted]
    split
    next accepted => exact inductionHypothesis (adds.addSpring source destination accepted)
    · exact inductionHypothesis adds

/-- The attempts draw pairs one after the other and join the accepted ones, until there are enough
springs or all attempts are used up. -/
theorem attemptSprings_drawn {inputs pool : List Mass} (nonempty : 0 < pool.length)
    (inputChance : Float) (attempts wanted : Nat) (graph : Graph) (draws : γ) :
    let result := attemptSprings inputs pool nonempty inputChance attempts wanted graph draws
    ∃ pairs, PairsDrawn inputs pool inputChance pairs draws result.2.2 ∧
      result.2.1 = pairs.foldl joinAccepted graph ∧
      result.2.1.springs.length = graph.springs.length + result.1 ∧
      result.1 ≤ wanted ∧ result.1 ≤ pairs.length ∧ pairs.length ≤ attempts ∧
      (result.1 = wanted ∨ pairs.length = attempts) := by
  induction attempts generalizing wanted graph draws with
  | zero => exact ⟨[], .none draws, rfl, rfl, Nat.zero_le _, Nat.zero_le _, le_rfl, .inr rfl⟩
  | succ attempts inductionHypothesis =>
    cases wanted with
    | zero => exact ⟨[], .none draws, rfl, rfl, le_rfl, le_rfl, Nat.zero_le _, .inl rfl⟩
    | succ wanted =>
      unfold attemptSprings
      dsimp only
      split
      next accepted =>
        obtain ⟨pairs, drawn, joined, springs, enough, made, tried, ended⟩ :=
          inductionHypothesis wanted _ (drawEnds inputs pool nonempty inputChance draws).2
        refine ⟨_, .next nonempty drawn, ?_, ?_, Nat.succ_le_succ enough, Nat.succ_le_succ made,
          Nat.succ_le_succ tried, ended.imp (congrArg (· + 1)) (congrArg (· + 1))⟩
        · rw [List.foldl_cons, joinAccepted, if_pos accepted, joined]
        · rw [springs, Graph.addSpring_springs, List.length_append, List.length_singleton]
          omega
      next rejected =>
        obtain ⟨pairs, drawn, joined, springs, enough, made, tried, ended⟩ :=
          inductionHypothesis (wanted + 1) graph
            (drawEnds inputs pool nonempty inputChance draws).2
        refine ⟨_, .next nonempty drawn, ?_, springs, enough, Nat.le_succ_of_le made,
          Nat.succ_le_succ tried, ended.imp id (congrArg (· + 1))⟩
        rw [List.foldl_cons, joinAccepted, if_neg rejected, joined]

/-- At most as many pairs are drawn as there are attempts, and the accepted ones become springs
behind those of the graph: no more than are asked for, than there are attempts, and than there are
open pairs. Short of the springs that are asked for all attempts are used up. -/
theorem addRandomSprings_bounded (blueprint : Blueprint) (limits : Limits) (draws : γ) :
    let graph := blueprint.graph
    let result := (addRandomSprings blueprint limits draws).value
    ∃ pairs added,
      PairsDrawn graph.inputs (springPool graph) limits.inputChance pairs draws result.2.2 ∧
      pairs.length ≤ limits.springAttempts.toNat ∧
      result.2.1 = { blueprint with graph := pairs.foldl joinAccepted graph } ∧
      SpringsAdded graph result.2.1.graph added ∧ added.length = result.1 ∧
      result.1 ≤ min blueprint.randomSprings.toNat limits.springAttempts.toNat ∧
      result.1 ≤ (openPairs graph).card ∧
      (graph.networkMasses = [] → result.1 = 0) ∧
      (graph.networkMasses ≠ [] → result.1 = blueprint.randomSprings.toNat ∨
        pairs.length = limits.springAttempts.toNat) := by
  intro graph result
  have none_added : SpringsAdded graph graph [] := .refl graph
  simp only [result, addRandomSprings]
  split
  next noneWanted =>
    have nothing : blueprint.randomSprings.toNat = 0 := Int.toNat_eq_zero.mpr noneWanted
    exact ⟨[], [], .none draws, Nat.zero_le _, rfl, none_added, rfl, Nat.zero_le _, Nat.zero_le _,
      fun _ => rfl, fun _ => .inl nothing.symm⟩
  split
  next network =>
    obtain ⟨pairs, drawn, joined, springs, enough, made, tried, ended⟩ :=
      attemptSprings_drawn (springPool_nonempty network) limits.inputChance
        limits.springAttempts.toNat blueprint.randomSprings.toNat graph draws
    obtain ⟨added, adds⟩ := drawn.added none_added
    rw [← joined] at adds
    rw [adds.springs, List.length_append, Nat.add_left_cancel_iff] at springs
    refine ⟨pairs, added, drawn, tried, by rw [joined], adds, springs,
      le_min enough (made.trans tried), springs ▸ adds.length_le, ?_, fun _ => ended⟩
    intro noNetwork
    exact absurd noNetwork (List.isEmpty_eq_false_iff.mp network)
  next noNetwork =>
    rw [Bool.not_eq_false, List.isEmpty_iff] at noNetwork
    exact ⟨[], [], .none draws, Nat.zero_le _, rfl, none_added, rfl, Nat.zero_le _, Nat.zero_le _,
      fun _ => rfl, fun some => absurd noNetwork some⟩

end Draws

end SpringArm.Growth
