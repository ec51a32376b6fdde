import SpringArm.Proofs.Growth.Frame
import SpringArm.Proofs.Growth.Renaming

/-!
# Growing again

A second growth drops the network of the first one, but springs that the first one led from an input
to another input touch no network mass and stay. So growing again is growing on the described
blueprint with these springs joined to it. The two graphs differ in their keys only, and growth does
not look at keys.
-/

namespace SpringArm

namespace Graph

/-- New springs between the ends of springs, in their order. -/
def rejoin (graph : Graph) (springs : List Spring) : Graph :=
  springs.foldl (fun grown spring => (grown.addSpring spring.source spring.destination).2) graph

/-- The new springs come last and have the next keys. -/
theorem rejoin_eq (graph : Graph) (springs : List Spring) :
    graph.rejoin springs =
      { graph with
        springs := graph.springs ++ (springs.zipIdx graph.nextKey).map fun (spring, key) =>
          Spring.joining key spring.source spring.destination
        nextKey := graph.nextKey + springs.length } := by
  induction springs generalizing graph with
  | nil => simp [rejoin]
  | cons spring rest inductionHypothesis =>
    rw [rejoin, List.foldl_cons, ← rejoin, inductionHypothesis]
    simp [List.zipIdx_cons]
    omega

section Renamed

variable {graph : Graph} {names : Renaming}

/-- Masses with the keys that a fresh graph has given out keep them if these keys stay. -/
theorem rename_mass_eq (older : ∀ key < graph.nextKey, names.key key = key) {mass : Mass}
    (inside : mass.key < graph.nextKey) : mass.rename names = mass := by
  rw [Mass.rename, older mass.key inside]

/-- A fresh graph stays the same if its keys stay, but for the next one. -/
theorem Fresh.rename_eq (fresh : graph.Fresh)
    (older : ∀ key < graph.nextKey, names.key key = key) :
    graph.rename names = { graph with nextKey := names.key graph.nextKey } := by
  have masses : graph.masses.map (Mass.rename names) = graph.masses :=
    (List.map_congr_left fun mass member =>
      rename_mass_eq older (fresh.masses_lt mass member)).trans (List.map_id _)
  have springs : graph.springs.map (Spring.rename names) = graph.springs := by
    refine (List.map_congr_left fun spring member => ?_).trans (List.map_id _)
    obtain ⟨source, destination⟩ := fresh.ends_lt spring member
    rw [Spring.rename, older _ (fresh.springs_lt spring member), rename_mass_eq older source,
      rename_mass_eq older destination, id]
  rw [rename, masses, springs]

/-- Springs between masses of a fresh graph are the ones that rejoining them gives, if the older
keys stay and each new key becomes that of its spring. -/
theorem Fresh.rename_rejoin (fresh : graph.Fresh)
    (older : ∀ key < graph.nextKey, names.key key = key) {springs : List Spring}
    (newer : ∀ spring key, (spring, key) ∈ springs.zipIdx graph.nextKey →
      names.key key = spring.key)
    (ends : ∀ spring ∈ springs, spring.source ∈ graph.masses ∧ spring.destination ∈ graph.masses)
    (typed : ∀ spring ∈ springs,
      spring.connection = Connection.between spring.source.kind spring.destination.kind) :
    (graph.rejoin springs).rename names =
      { graph with
        springs := graph.springs ++ springs
        nextKey := names.key (graph.nextKey + springs.length) } := by
  have renamed : ∀ numbered ∈ springs.zipIdx graph.nextKey,
      (Spring.joining numbered.2 numbered.1.source numbered.1.destination).rename names =
        numbered.1 := by
    rintro ⟨spring, key⟩ member
    have inside := List.fst_mem_of_mem_zipIdx member
    obtain ⟨source, destination⟩ := ends spring inside
    rw [Spring.rename_joining, newer spring key member,
      rename_mass_eq older (fresh.masses_lt _ source),
      rename_mass_eq older (fresh.masses_lt _ destination), Spring.joining, ← typed spring inside]
  have newSprings : ((springs.zipIdx graph.nextKey).map fun (spring, key) =>
      Spring.joining key spring.source spring.destination).map (Spring.rename names) = springs := by
    rw [List.map_map]
    exact (List.map_congr_left renamed).trans (List.zipIdx_map_fst ..)
  have same := fresh.rename_eq older
  rw [rename, Graph.mk.injEq] at same
  rw [rejoin_eq, rename]
  simp only [List.map_append, same.1, same.2.1, newSprings]

end Renamed

theorem removeNetwork_idem (graph : Graph) :
    graph.removeNetwork.removeNetwork = graph.removeNetwork := by
  simp only [removeNetwork, List.filter_filter, Bool.and_self]

/-- Without network masses, and if every spring ends at masses, there is no network to remove. -/
theorem Closed.removeNetwork_eq {graph : Graph} (closed : graph.Closed)
    (networkless : ∀ mass ∈ graph.masses, mass.kind ≠ .network) : graph.removeNetwork = graph := by
  have masses : graph.masses.filter (·.kind != .network) = graph.masses := by
    rw [List.filter_eq_self]
    exact fun mass member => by simp [networkless mass member]
  have springs : graph.springs.filter (!·.touchesNetwork) = graph.springs := by
    rw [List.filter_eq_self]
    intro spring member
    obtain ⟨source, destination⟩ := closed.ends_mem spring member
    simp [Spring.touchesNetwork, networkless _ source, networkless _ destination]
  rw [removeNetwork, masses, springs]

end Graph

/-- Springs that lead to reachable masses outside the network join inputs. -/
theorem Spring.inputs_of_joins {spring : Spring}
    (joins : spring.source.kind.Joins spring.destination.kind)
    (reachable : spring.destination.kind.isReachable = true)
    (untouched : (!spring.touchesNetwork) = true) :
    spring.source.kind = .input ∧ spring.destination.kind = .input := by
  simp only [touchesNetwork, Bool.not_or, Bool.and_eq_true, Bool.not_eq_true',
    beq_eq_false_iff_ne] at untouched
  have input : ∀ kind : MassKind, kind.isReachable = true → kind ≠ .network → kind = .input := by
    intro kind
    cases kind <;> simp [MassKind.isReachable]
  refine ⟨?_, input _ reachable untouched.2⟩
  generalize spring.source.kind = source, spring.destination.kind = destination at *
  cases joins with
  | part => cases reachable
  | segments => cases reachable
  | grown sourceReachable _ => exact input _ sourceReachable untouched.1

namespace Graph

/-- Springs between inputs are what a graph that has grown from a base still has behind the springs
of the base when its network is removed. -/
structure Leaves (base graph : Graph) (left : List Spring) : Prop where
  removeNetwork_eq : graph.removeNetwork =
    { base with springs := base.springs ++ left, nextKey := graph.nextKey }
  keys_nodup : (left.map Spring.key).Nodup
  new : ∀ spring ∈ left, base.nextKey ≤ spring.key ∧ spring.key < graph.nextKey
  inputs : ∀ spring ∈ left, spring.source.kind = .input ∧ spring.destination.kind = .input
  ends_mem : ∀ spring ∈ left, spring.source ∈ base.masses ∧ spring.destination ∈ base.masses
  typed : ∀ spring ∈ left,
    spring.connection = Connection.between spring.source.kind spring.destination.kind

/-- The springs that are left are those that do not touch the network among the added ones. -/
theorem GrownFrom.leaves {base graph : Graph} (grown : base.GrownFrom graph)
    (own : base.removeNetwork = base) (sound : graph.Sound) (typed : graph.Typed) :
    ∃ left, Leaves base graph left := by
  obtain ⟨created, masses, createdNew⟩ := grown.masses_eq
  obtain ⟨added, springs, addedNew⟩ := grown.springs_eq
  rw [removeNetwork, Graph.mk.injEq] at own
  obtain ⟨ownMasses, ownSprings, -⟩ := own
  have none : created.filter (·.kind != .network) = [] := by
    rw [List.filter_eq_nil_iff]
    exact fun mass member => by simp [(createdNew mass member).1]
  have cleared : graph.removeNetwork =
      { base with
        springs := base.springs ++ added.filter (!·.touchesNetwork)
        nextKey := graph.nextKey } := by
    rw [removeNetwork, masses, springs, List.filter_append, List.filter_append, ownMasses,
      ownSprings, none, List.append_nil]
  have fewer : (added.filter (!·.touchesNetwork)).Sublist graph.springs := by
    rw [springs]
    exact List.filter_sublist.trans (List.sublist_append_right ..)
  have inputs : ∀ spring ∈ added.filter (!·.touchesNetwork),
      spring.source.kind = .input ∧ spring.destination.kind = .input := by
    intro spring member
    obtain ⟨isAdded, untouched⟩ := List.mem_filter.mp member
    obtain ⟨joins, -⟩ := typed spring (fewer.subset member)
    exact spring.inputs_of_joins joins (addedNew spring isAdded).1 untouched
  have kept : ∀ mass ∈ graph.masses, mass.kind = .input → mass ∈ base.masses := by
    intro mass member input
    have inside : mass ∈ graph.removeNetwork.masses :=
      mem_removeNetwork_masses.mpr ⟨member, by rw [input]; decide⟩
    rw [cleared] at inside
    exact inside
  refine ⟨added.filter (!·.touchesNetwork), cleared,
    sound.springs_nodup.sublist (fewer.map Spring.key), ?_, inputs, ?_, ?_⟩
  · exact fun spring member => ⟨(addedNew spring (List.mem_filter.mp member).1).2,
      sound.springs_fresh spring (fewer.subset member)⟩
  · intro spring member
    obtain ⟨source, destination⟩ := sound.ends_mem spring (fewer.subset member)
    exact ⟨kept _ source (inputs spring member).1, kept _ destination (inputs spring member).2⟩
  · exact fun spring member => (typed spring (fewer.subset member)).2

/-- What is left of a graph is what rejoining the springs that are left gives, under other names.
The keys of the base stay, and the next key becomes that of the graph. -/
theorem Leaves.exists_renaming {base graph : Graph} {left : List Spring}
    (leaves : Leaves base graph left) (fresh : base.Fresh)
    (nextLater : base.nextKey ≤ graph.nextKey) :
    ∃ names : Renaming, names.start = (base.rejoin left).nextKey ∧
      (∀ key < base.nextKey, names.key key = key) ∧
      (base.rejoin left).rename names = graph.removeNetwork := by
  have nodup : (List.range base.nextKey ++ left.map Spring.key).Nodup := by
    rw [List.nodup_append]
    refine ⟨List.nodup_range, leaves.keys_nodup, ?_⟩
    rintro old older _ member rfl
    obtain ⟨spring, springMember, rfl⟩ := List.mem_map.mp member
    exact absurd (List.mem_range.mp older) (Nat.not_lt.mpr (leaves.new spring springMember).1)
  have bound : ∀ key ∈ List.range base.nextKey ++ left.map Spring.key, key < graph.nextKey := by
    rw [List.forall_mem_append, List.forall_mem_map]
    exact ⟨fun key older => Nat.lt_of_lt_of_le (List.mem_range.mp older) nextLater,
      fun spring member => (leaves.new spring member).2⟩
  have older : ∀ key < base.nextKey,
      (Renaming.ofKeys _ graph.nextKey nodup bound).key key = key := by
    intro key inside
    simp [Renaming.ofKeys, Renaming.listedKey, List.getElem?_append_left, inside]
  have newer : ∀ spring key, (spring, key) ∈ left.zipIdx base.nextKey →
      (Renaming.ofKeys _ graph.nextKey nodup bound).key key = spring.key := by
    intro spring key member
    obtain ⟨later, inside, isThere⟩ := List.mem_zipIdx member
    have position : key - base.nextKey < left.length := by omega
    simp [Renaming.ofKeys, Renaming.listedKey, List.getElem?_append_right, later, position, isThere]
  refine ⟨Renaming.ofKeys _ graph.nextKey nodup bound, ?_, older, ?_⟩
  · simp [rejoin_eq, Renaming.ofKeys]
  · rw [fresh.rename_rejoin older newer leaves.ends_mem leaves.typed, leaves.removeNetwork_eq]
    simp [Renaming.ofKeys, Renaming.listedKey]

end Graph

namespace Growth

theorem startInputs_rename {names : Renaming} {blueprint : Blueprint}
    (some : blueprint.inputs ≠ [])
    (same : blueprint.inputs.map (Mass.rename names) = blueprint.inputs) :
    startInputs (blueprint.rename names) = (startInputs blueprint).map (Mass.rename names) := by
  rw [startInputs_of_ne_nil blueprint some, startInputs_of_ne_nil (blueprint.rename names) some,
    same]
  rfl

/-- Growth starts by removing the network, so it does not matter if that was done before. -/
theorem develop_removeNetwork {γ : Type} [Draws γ] (limits : Limits) {blueprint : Blueprint}
    (some : blueprint.inputs ≠ []) (construction : Option (List Char)) (draws : γ) :
    develop limits { blueprint with graph := blueprint.graph.removeNetwork } construction draws =
      develop limits blueprint construction draws := by
  obtain ⟨first, others, inputs⟩ := List.exists_cons_of_ne_nil some
  have starts : startInputs blueprint = first :: others :=
    (startInputs_of_ne_nil blueprint some).trans inputs
  have clearedStarts : startInputs { blueprint with graph := blueprint.graph.removeNetwork } =
      first :: others :=
    (startInputs_of_ne_nil { blueprint with graph := blueprint.graph.removeNetwork } some).trans
      inputs
  simp only [develop, starts, clearedStarts, Graph.removeNetwork_idem]

section Again

variable {γ δ : Type} [Draws γ] [Draws δ]

/-- Of a described blueprint with an input, growing again from any graph that leaves some springs is
growing from the described graph with these springs rejoined, under other names. -/
theorem develop_of_leaves {limits : Limits} {blueprint before : Blueprint} {left : List Spring}
    (described : blueprint.Described) (some : blueprint.inputs ≠ [])
    (rest : before = { blueprint with graph := before.graph })
    (leaves : blueprint.graph.Leaves before.graph left)
    (nextLater : blueprint.graph.nextKey ≤ before.graph.nextKey)
    (construction : Option (List Char)) (draws : γ) :
    ∃ names : Renaming, develop limits before construction draws =
      (develop limits { blueprint with graph := blueprint.graph.rejoin left } construction
        draws).rename names := by
  obtain ⟨names, start, older, renamed⟩ :=
    leaves.exists_renaming described.fresh.graph nextLater
  have sameInputs : blueprint.inputs.map (Mass.rename names) = blueprint.inputs :=
    (List.map_congr_left fun input member =>
      Graph.rename_mass_eq older (described.fresh.inputs_lt input member)).trans (List.map_id _)
  have cleared : { before with graph := before.graph.removeNetwork } =
      ({ blueprint with graph := blueprint.graph.rejoin left } : Blueprint).rename names := by
    have afterwards := congrArg (fun after : Blueprint =>
      ({ after with graph := before.graph.removeNetwork } : Blueprint)) rest
    rw [Blueprint.rename, renamed]
    exact afterwards
  have beforeSome : before.inputs ≠ [] := by
    rw [rest]
    exact some
  refine ⟨names, ?_⟩
  rw [← develop_removeNetwork limits beforeSome, cleared]
  generalize rejoins : ({ blueprint with graph := blueprint.graph.rejoin left } : Blueprint) =
    rejoined
  have later : names.start ≤ rejoined.graph.nextKey := by
    rw [← rejoins]
    exact Nat.le_of_eq start
  have inputs : rejoined.inputs = blueprint.inputs := by rw [← rejoins]
  exact rename_develop names later (startInputs_rename (inputs ▸ some) (inputs ▸ sameInputs)) limits
    construction draws

/-- Growing a network again is growing it on the described blueprint to which the springs that the
earlier growth led from input to input have been joined, in their order: the outcome, the draws and
all that can be seen of the graph are the same. If the earlier growth has left no such spring, the
network is rebuilt from scratch. -/
theorem develop_again {limits : Limits} {text : Option (List Char)} {blueprint : Blueprint}
    {descriptionProblems : List Problem}
    (read : (Blueprint.read text).value = .ok (blueprint, descriptionProblems))
    {earlier : Option (List Char)} {earlierDraws : δ} {earlierProblems : List Problem}
    (came : (develop limits blueprint earlier earlierDraws).outcome = .ok earlierProblems)
    (construction : Option (List Char)) (draws : γ) :
    let before := (develop limits blueprint earlier earlierDraws).blueprint
    ∃ left : List Spring,
      before.graph.springs.filter (!·.touchesNetwork) = blueprint.graph.springs ++ left ∧
      (∀ spring ∈ left, spring.source.kind = .input ∧ spring.destination.kind = .input) ∧
      let again := develop limits before construction draws
      let afresh := develop limits { blueprint with graph := blueprint.graph.rejoin left }
        construction draws
      again.outcome = afresh.outcome ∧ again.draws = afresh.draws ∧
        again.blueprint.graph.shape = afresh.blueprint.graph.shape := by
  intro before
  have described := Blueprint.read_described read
  have own := described.sound.removeNetwork_eq described.networkless
  cases inputs : startInputs blueprint with
  | nil =>
    have unchanged : before = blueprint := by
      simp only [before, develop, inputs]
    rw [unchanged]
    exact ⟨[], (congrArg Graph.springs own).trans (List.append_nil _).symm, by simp, rfl, rfl, rfl⟩
  | cons first others =>
    have some : blueprint.inputs ≠ [] := by
      rw [described.inputs_eq, ← described.startInputs_eq, inputs]
      exact List.cons_ne_nil first others
    have grownFrom := develop_grownFrom limits described.fresh earlier earlierDraws inputs
    rw [own] at grownFrom
    have edits := (described.developed_edited (developed_of_outcome came)).edits
    obtain ⟨left, leaves⟩ := grownFrom.graph.leaves own (described.sound.edits edits)
      (described.typed.edits edits)
    obtain ⟨names, grown⟩ := develop_of_leaves described some grownFrom.rest leaves
      grownFrom.graph.nextKey_le construction draws
    refine ⟨left, congrArg Graph.springs leaves.removeNetwork_eq, leaves.inputs, ?_⟩
    intro again afresh
    have same : again = afresh.rename names := grown
    rw [same]
    exact ⟨rfl, rfl, Graph.rename_shape names _⟩

end Again

/-- Two inputs at a distance at which the letter `c` joins them. -/
def joinableInputs : List Char :=
  "input 0 1\ninput 0 4\ncreateMass m [1, 2]\ncreateSpring c [2.5, 3.5]".toList

/-- The earlier growth has joined the inputs, and the spring between them is one of the springs that
the next growth finds. -/
theorem develop_again_sample :
    ∃ blueprint problems, (Blueprint.read (some joinableInputs)).value = .ok (blueprint, problems) ∧
      let earlier := develop {} blueprint (some ['c']) (SeededDraws.ofSeed 1)
      earlier.outcome = .ok [] ∧ ∃ left, left.length = 1 ∧
        let again := develop {} earlier.blueprint (some "mc".toList) (SeededDraws.ofSeed 2)
        let afresh := develop {} { blueprint with graph := blueprint.graph.rejoin left }
          (some "mc".toList) (SeededDraws.ofSeed 2)
        again.outcome = afresh.outcome ∧ again.draws = afresh.draws ∧
          again.blueprint.graph.shape = afresh.blueprint.graph.shape := by
  obtain ⟨blueprint, problems, read, checked⟩ := Blueprint.read_checked (some joinableInputs)
    (fun blueprint =>
      let earlier := develop {} blueprint (some ['c']) (SeededDraws.ofSeed 1)
      decide (earlier.outcome = .ok []) && blueprint.graph.springs.length == 0 &&
        (earlier.blueprint.graph.springs.filter (!·.touchesNetwork)).length == 1)
    (by decide +kernel)
  simp only [Bool.and_eq_true, decide_eq_true_eq, beq_iff_eq] at checked
  obtain ⟨⟨came, springless⟩, kept⟩ := checked
  obtain ⟨left, springs, -, same⟩ :=
    develop_again read came (some "mc".toList) (SeededDraws.ofSeed 2)
  rw [springs, List.length_append, springless, Nat.zero_add] at kept
  exact ⟨blueprint, problems, read, came, left, kept, same⟩

/-- The network is not rebuilt from scratch: a spring between two inputs that one growth has made is
still there after the next one, which does not make it. -/
theorem develop_again_differs :
    ∃ blueprint problems, (Blueprint.read (some joinableInputs)).value = .ok (blueprint, problems) ∧
      let draws := SeededDraws.ofSeed 1
      let earlier := develop {} blueprint (some ['c']) draws
      let again := develop {} earlier.blueprint (some []) draws
      let afresh := develop {} blueprint (some []) draws
      earlier.outcome = .ok [] ∧ again.outcome = .ok [] ∧ afresh.outcome = .ok [] ∧
        again.blueprint.graph.shape.springs = [(some 0, some 1)] ∧
        afresh.blueprint.graph.shape.springs = [] ∧
        again.blueprint.graph.shape ≠ afresh.blueprint.graph.shape := by
  obtain ⟨blueprint, problems, read, checked⟩ := Blueprint.read_checked (some joinableInputs)
    (fun blueprint =>
      let draws := SeededDraws.ofSeed 1
      let earlier := develop {} blueprint (some ['c']) draws
      let again := develop {} earlier.blueprint (some []) draws
      let afresh := develop {} blueprint (some []) draws
      decide (earlier.outcome = .ok []) && decide (again.outcome = .ok []) &&
        decide (afresh.outcome = .ok []) &&
        decide (again.blueprint.graph.shape.springs = [(some 0, some 1)]) &&
        decide (afresh.blueprint.graph.shape.springs = []))
    (by decide +kernel)
  simp only [Bool.and_eq_true, decide_eq_true_eq, and_assoc] at checked
  obtain ⟨came, again, afresh, joined, free⟩ := checked
  refine ⟨blueprint, problems, read, came, again, afresh, joined, free, fun same => ?_⟩
  rw [same, free] at joined
  cases joined

end Growth

end SpringArm
