import SpringArm.Draws.Seeded
import SpringArm.Proofs.Growth.Overflow

/-!
# Checked growth

A growth that takes nothing for granted: every choice, position, lookup, spring and report is asked
for and may be refused. It does what a growth does, so none of them ever is. What is left to fail is
the comparison of ends that are too far apart, where springs must not cross.
-/

namespace SpringArm

/-- A fold of a step that can fail goes as far as the step that wraps its faults. -/
theorem foldlM_eq_stepwise {σ α ε φ : Type} {step : σ → α → Except ε σ}
    {wrapped : σ → α → Except φ σ} {wrap : ε → φ}
    (same : ∀ state item, wrapped state item = (step state item).mapError wrap) (state : σ)
    (items : List α) :
    items.foldlM wrapped state =
      match stepwise step state items with
      | (reached, none) => .ok reached
      | (_, some fault) => .error (wrap fault) := by
  induction items generalizing state with
  | nil => rfl
  | cons item rest inductionHypothesis =>
    rw [List.foldlM_cons, same]
    cases outcome : step state item with
    | ok next =>
      simp only [stepwise, outcome]
      exact inductionHypothesis next
    | error fault =>
      simp only [stepwise, outcome]
      rfl

namespace Growth

/-- Why a growth that checks every access stops. -/
inductive Refusal where
  /-- A step of the growth has failed. -/
  | growth (fault : GrowthFault)
  /-- There is nothing to choose from. -/
  | emptyChoice
  /-- There is nothing at a position of a list. -/
  | outOfRange (position : Nat)
  /-- A letter has no distance. -/
  | noDistance (letter : Char)
  /-- A mass is not there. -/
  | absentMass
  /-- A report is refused. -/
  | report (fault : ReportFault)

namespace Checked

/-- The item at a position. -/
def item {α : Type} (items : List α) (position : Nat) : Except Refusal α :=
  match items[position]? with
  | some item => .ok item
  | none => .error (.outOfRange position)

/-- The distance of a letter. -/
def distance (templates : Templates) (letter : Char) : Except Refusal Interval :=
  match templates.find? letter with
  | some distance => .ok distance
  | none => .error (.noDistance letter)

/-- A mass that may be absent. -/
def present : Option Mass → Except Refusal Mass
  | some mass => .ok mass
  | none => .error .absentMass

/-- A problem that can be reported. -/
def reportable (problem : Problem) : Except Refusal Problem :=
  match ProblemReport.make (some problem.position) (some problem.cause.message) with
  | .ok _ => .ok problem
  | .error fault => .error (.report fault)

/-- A new spring, if a connection leads from its source to its destination. -/
def addSpring (graph : Graph) (source destination : Mass) : Except Refusal Graph := do
  let connection ←
    (Connection.lookup (some source.kind) (some destination.kind)).mapError (.growth ∘ .graph)
  return { graph with
    springs := graph.springs ++ [⟨graph.nextKey, source, destination, connection⟩]
    nextKey := graph.nextKey + 1 }

variable {γ : Type} [Draws γ]

/-- One of the items of a list. -/
def choose {α : Type} (items : List α) (draws : γ) : Except Refusal (α × γ) :=
  if nonempty : 0 < items.length then do
    let (position, rest) := Draws.below items.length nonempty draws
    let chosen ← item items position
    return (chosen, rest)
  else
    .error .emptyChoice

/-- Joins the cursor to a candidate that is drawn. -/
def createSpring (blueprint : Blueprint) (limits : Limits) (cursor : Mass) (distance : Interval)
    (draws : γ) : Except Refusal (Mass × Blueprint × γ) := do
  let candidates ←
    (springCandidates blueprint limits cursor distance).mapError (.growth ∘ .arithmetic)
  if candidates.isEmpty then
    return (cursor, blueprint, draws)
  else
    let (target, rest) ← choose candidates draws
    let graph ← addSpring blueprint.graph cursor target
    return (target, { blueprint with graph }, rest)

/-- Reads one character of a construction text, given with its position. -/
def readLetter (limits : Limits) (trail : Trail γ) (letter : Char × Nat) :
    Except Refusal (Trail γ) :=
  if (trail.blueprint.massTemplates.find? letter.1).isSome then do
    let distance ← distance trail.blueprint.massTemplates letter.1
    let (_, blueprint, draws) := createMass trail.blueprint trail.cursor distance trail.draws
    return { trail with blueprint, draws }
  else if (trail.blueprint.springTemplates.find? letter.1).isSome then do
    let distance ← distance trail.blueprint.springTemplates letter.1
    let (cursor, blueprint, draws) ←
      createSpring trail.blueprint limits trail.cursor distance trail.draws
    return { trail with cursor, blueprint, draws }
  else do
    let problem ← reportable ⟨letter.2, .unknownConstruction letter.1⟩
    return { trail with problems := trail.problems ++ [problem] }

/-- Adds the random masses of a blueprint. -/
def addRandomMasses (blueprint : Blueprint) (cursor : Mass) (draws : γ) :
    Except Refusal (Blueprint × γ) :=
  if blueprint.randomMasses ≤ 0 then
    .ok (blueprint, draws)
  else if blueprint.shoulder.isNone || blueprint.hand.isNone then
    .ok (blueprint, draws)
  else do
    let shoulder ← present blueprint.shoulder
    let hand ← present blueprint.hand
    return repeatRandomMass cursor shoulder hand blueprint.randomMasses.toNat blueprint draws

/-- Draws the two ends of a random spring from a pool. -/
def drawEnds (inputs pool : List Mass) (inputChance : Float) (draws : γ) :
    Except Refusal ((Mass × Mass) × γ) := do
  let (source, draws) ← choose pool draws
  let (destination, draws) ← choose pool draws
  if !inputs.isEmpty && source.kind == .network && destination.kind != .input then
    let (chance, draws) := Draws.unit draws
    if chance < inputChance then
      let (input, draws) ← choose inputs draws
      return ((source, input), draws)
    else
      return ((source, destination), draws)
  else
    return ((source, destination), draws)

/-- Draws pairs of ends until enough springs are added or the attempts are used up. -/
def attemptSprings (inputs pool : List Mass) (inputChance : Float) :
    Nat → Nat → Graph → γ → Except Refusal (Graph × γ)
  | 0, _, graph, draws => .ok (graph, draws)
  | _, 0, graph, draws => .ok (graph, draws)
  | attempts + 1, wanted + 1, graph, draws => do
    let ((source, destination), rest) ← drawEnds inputs pool inputChance draws
    if acceptsEnds graph source destination then
      let grown ← addSpring graph source destination
      attemptSprings inputs pool inputChance attempts wanted grown rest
    else
      attemptSprings inputs pool inputChance attempts (wanted + 1) graph rest

/-- Adds the random springs of a blueprint. -/
def addRandomSprings (blueprint : Blueprint) (limits : Limits) (draws : γ) :
    Except Refusal (Blueprint × γ) :=
  if blueprint.randomSprings ≤ 0 || blueprint.graph.networkMasses.isEmpty then
    .ok (blueprint, draws)
  else do
    let (graph, rest) ← attemptSprings blueprint.graph.inputs (springPool blueprint.graph)
      limits.inputChance limits.springAttempts.toNat blueprint.randomSprings.toNat blueprint.graph
      draws
    return ({ blueprint with graph }, rest)

/-- Takes the only spring of a mass out of a graph. -/
def pruneMass (graph : Graph) (mass : Mass) : Except Refusal Graph :=
  if (graph.springsOf mass).length = 1 then do
    let spring ← item (graph.springsOf mass) 0
    (graph.removeSpring spring).mapError (.growth ∘ .graph)
  else
    .ok graph

/-- All that follows the reading of a construction text. The result is the blueprint, the draws that
are left and the problems of the text. -/
def finish (limits : Limits) (trail : Trail γ) : Except Refusal (Blueprint × γ × List Problem) := do
  let (blueprint, draws) ← addRandomMasses trail.blueprint trail.cursor trail.draws
  let (blueprint, draws) ← addRandomSprings blueprint limits draws
  let graph ← blueprint.graph.networkMasses.foldlM pruneMass blueprint.graph
  return ((dropUnconnected { blueprint with graph }).value, draws, trail.problems)

/-- Grows the network of a blueprint. -/
def develop (limits : Limits) (blueprint : Blueprint) (construction : Option (List Char))
    (draws : γ) : Except Refusal (Blueprint × γ × List Problem) :=
  if (startInputs blueprint).isEmpty then
    .ok (blueprint, draws, [])
  else do
    let first ← item (startInputs blueprint) 0
    let cleared := { blueprint with graph := blueprint.graph.removeNetwork }
    let trail ← (construction.getD []).zipIdx.foldlM (readLetter limits) ⟨cleared, first, draws, []⟩
    finish limits trail

section Granted

/-- Every problem can be reported: its position is not negative. -/
theorem reportable_eq (problem : Problem) : reportable problem = .ok problem := by
  have nonnegative : ¬(problem.position : Int) < 0 := by omega
  simp only [reportable, ProblemReport.make, nonnegative, if_false]

/-- A connection leads from every mass to every other one. -/
theorem addSpring_eq (graph : Graph) (source destination : Mass) :
    addSpring graph source destination = .ok (graph.addSpring source destination).2 :=
  rfl

theorem choose_eq {α : Type} {items : List α} (nonempty : 0 < items.length) (draws : γ) :
    choose items draws = .ok (Draws.choose items nonempty draws) := by
  simp only [choose, nonempty, dite_true, item, Fin.is_lt, List.getElem?_eq_getElem]
  rfl

theorem createSpring_eq (blueprint : Blueprint) (limits : Limits) (cursor : Mass)
    (distance : Interval) (draws : γ) :
    createSpring blueprint limits cursor distance draws =
      (Growth.createSpring blueprint limits cursor distance draws).mapError
        (.growth ∘ .arithmetic) := by
  unfold createSpring Growth.createSpring
  cases springCandidates blueprint limits cursor distance with
  | error fault => rfl
  | ok candidates =>
    cases candidates with
    | nil => rfl
    | cons candidate others =>
      have nonempty : 0 < (candidate :: others).length := Nat.succ_pos _
      simp only [Except.mapError, bind, Except.bind, List.isEmpty_cons, Bool.false_eq_true,
        if_false, choose_eq nonempty, addSpring_eq, nonempty, dite_true]
      rfl

theorem readLetter_eq (limits : Limits) (trail : Trail γ) (letter : Char × Nat) :
    readLetter limits trail letter =
      (Growth.readLetter limits trail letter).mapError (.growth ∘ .arithmetic) := by
  unfold readLetter Growth.readLetter
  cases massTemplate : trail.blueprint.massTemplates.find? letter.1 with
  | some found => simp only [massTemplate, distance, Option.isSome_some, if_true]; rfl
  | none =>
    cases springTemplate : trail.blueprint.springTemplates.find? letter.1 with
    | some found =>
      simp only [massTemplate, springTemplate, distance, Option.isSome_some, Option.isSome_none,
        Bool.false_eq_true, if_true, if_false, createSpring_eq, bind, Except.bind]
      cases Growth.createSpring trail.blueprint limits trail.cursor found trail.draws <;> rfl
    | none =>
      simp only [massTemplate, springTemplate, Option.isSome_none, Bool.false_eq_true, if_false,
        reportable_eq]
      rfl

theorem readConstruction_eq (limits : Limits) (blueprint : Blueprint) (cursor : Mass)
    (construction : List Char) (draws : γ) :
    construction.zipIdx.foldlM (readLetter limits) ⟨blueprint, cursor, draws, []⟩ =
      match readConstruction limits blueprint cursor construction draws with
      | (trail, none) => .ok trail
      | (_, some fault) => .error (.growth (.arithmetic fault)) := by
  rw [foldlM_eq_stepwise (readLetter_eq limits)]
  unfold readConstruction
  cases stepwise (Growth.readLetter limits) (⟨blueprint, cursor, draws, []⟩ : Trail γ)
      construction.zipIdx with
  | mk trail outcome => cases outcome <;> rfl

theorem addRandomMasses_eq (blueprint : Blueprint) (cursor : Mass) (draws : γ) :
    addRandomMasses blueprint cursor draws =
      .ok (Growth.addRandomMasses blueprint cursor draws).value.2 := by
  unfold addRandomMasses Growth.addRandomMasses
  split
  · rfl
  · cases blueprint.shoulder with
    | none => rfl
    | some shoulder =>
      cases blueprint.hand with
      | none => rfl
      | some hand => rfl

/-- Where there is a pool there is something to choose from, and inputs are chosen from only if
there are some. -/
theorem drawEnds_eq {inputs pool : List Mass} (nonempty : 0 < pool.length) (inputChance : Float)
    (draws : γ) :
    drawEnds inputs pool inputChance draws =
      .ok (Growth.drawEnds inputs pool nonempty inputChance draws) := by
  unfold drawEnds Growth.drawEnds
  simp only [choose_eq nonempty, bind, Except.bind]
  cases inputs with
  | nil => rfl
  | cons input others =>
    have someInput : 0 < (input :: others).length := Nat.succ_pos _
    simp only [choose_eq someInput, someInput, dite_true, List.isEmpty_cons, Bool.not_false,
      Bool.true_and]
    split
    · split <;> rfl
    · rfl

theorem attemptSprings_eq {inputs pool : List Mass} (nonempty : 0 < pool.length)
    (inputChance : Float) (attempts wanted : Nat) (graph : Graph) (draws : γ) :
    attemptSprings inputs pool inputChance attempts wanted graph draws =
      .ok (Growth.attemptSprings inputs pool nonempty inputChance attempts wanted graph
        draws).2 := by
  induction attempts generalizing wanted graph draws with
  | zero => rfl
  | succ attempts inductionHypothesis =>
    cases wanted with
    | zero => rfl
    | succ wanted =>
      unfold attemptSprings Growth.attemptSprings
      simp only [drawEnds_eq nonempty, bind, Except.bind, addSpring_eq]
      split
      · exact inductionHypothesis _ _ _
      · exact inductionHypothesis _ _ _

theorem addRandomSprings_eq (blueprint : Blueprint) (limits : Limits) (draws : γ) :
    addRandomSprings blueprint limits draws =
      .ok (Growth.addRandomSprings blueprint limits draws).value.2 := by
  unfold addRandomSprings Growth.addRandomSprings
  by_cases none : blueprint.randomSprings ≤ 0
  · simp [none]
  · by_cases network : blueprint.graph.networkMasses.isEmpty = false
    · simp only [none, network, attemptSprings_eq (springPool_nonempty network), decide_false,
        Bool.or_self, Bool.false_eq_true, if_false, dite_true]
      rfl
    · simp [none, network]

theorem pruneMass_eq (graph : Graph) (mass : Mass) :
    pruneMass graph mass = (Growth.pruneMass graph mass).mapError (.growth ∘ .graph) := by
  unfold pruneMass Growth.pruneMass
  match graph.springsOf mass with
  | [] => rfl
  | [spring] => rfl
  | _ :: _ :: _ => simp [Except.mapError]

/-- A spring that is taken out is one of the graph, so pruning is never stopped. -/
theorem prune_eq (graph : Graph) :
    graph.networkMasses.foldlM pruneMass graph = .ok (prune graph).1 := by
  rw [foldlM_eq_stepwise pruneMass_eq]
  have succeeds := prune_succeeds graph
  unfold prune at succeeds ⊢
  cases pruned : stepwise Growth.pruneMass graph graph.networkMasses with
  | mk reached fault =>
    rw [pruned] at succeeds
    cases succeeds
    rfl

end Granted

end Checked

/-- What a growth gives to a caller. -/
def Grown.result {γ : Type} (grown : Grown γ) : Except Refusal (Blueprint × γ × List Problem) :=
  match grown.outcome with
  | .ok problems => .ok (grown.blueprint, grown.draws, problems)
  | .error fault => .error (.growth fault)

variable {γ : Type} [Draws γ]

theorem Checked.finish_eq (limits : Limits) (trail : Trail γ) :
    Checked.finish limits trail = (Growth.finish limits trail).result := by
  simp only [Checked.finish, Checked.addRandomMasses_eq, Checked.addRandomSprings_eq,
    Checked.prune_eq, bind, Except.bind, Growth.finish]
  split
  next graph fault prunes => exact absurd (congrArg (·.2) prunes) (by simp [prune_succeeds])
  next graph prunes =>
    simp only [prunes]
    rfl

/-- Nothing that a growth asks for is refused. -/
theorem Checked.develop_eq (limits : Limits) (blueprint : Blueprint)
    (construction : Option (List Char)) (draws : γ) :
    Checked.develop limits blueprint construction draws =
      (Growth.develop limits blueprint construction draws).result := by
  cases inputs : startInputs blueprint with
  | nil =>
    simp only [Checked.develop, inputs, develop_of_no_input limits inputs]
    rfl
  | cons first others =>
    have started : Checked.item (first :: others) 0 = .ok first := rfl
    simp only [Checked.develop, inputs, List.isEmpty_cons, Bool.false_eq_true, if_false, started,
      develop_of_input limits inputs, bind, Except.bind, Checked.readConstruction_eq]
    cases readConstruction limits { blueprint with graph := blueprint.graph.removeNetwork } first
        (construction.getD []) draws with
    | mk trail outcome =>
      cases outcome with
      | some fault => rfl
      | none => exact Checked.finish_eq limits trail

/-- A growth of what was described has no failing step of its own: it does what the growth does that
checks every access. Where springs may cross it comes to its end, and where they must not only ends
that are too far apart can stop it. -/
theorem develop_faults (limits : Limits) {description : Option (List Char)} {blueprint : Blueprint}
    {problems : List Problem}
    (read : (Blueprint.read description).value = .ok (blueprint, problems))
    (construction : Option (List Char)) (draws : γ) :
    let grown := develop limits blueprint construction draws
    Checked.develop limits blueprint construction draws = grown.result ∧
      (blueprint.switches.excludeSpringCrossings = false →
        ∃ reported, grown.outcome = .ok reported) ∧
      ∀ refusal, Checked.develop limits blueprint construction draws = .error refusal →
        refusal = .growth (.arithmetic .overflow) ∧
          blueprint.switches.excludeSpringCrossings = true ∧ grown.blueprint.graph.HasFarEnd := by
  intro grown
  have described := Blueprint.read_described read
  refine ⟨Checked.develop_eq limits blueprint construction draws, ?_, ?_⟩
  · intro included
    cases outcome : grown.outcome with
    | ok reported => exact ⟨reported, rfl⟩
    | error fault =>
      obtain ⟨-, excluded, -⟩ := develop_eq_error described outcome
      rw [included] at excluded
      cases excluded
  · intro refusal refused
    rw [Checked.develop_eq, Grown.result] at refused
    split at refused
    · cases refused
    next fault outcome =>
      cases refused
      obtain ⟨rfl, excluded, far⟩ := develop_eq_error described outcome
      exact ⟨rfl, excluded, far⟩

/-- An upper arm with two inputs that are too far apart, whose springs must not cross. -/
def distantDescription : List Char :=
  "shoulder 0 0\nelbow 0 5\ninput 0 1\ninput 1".toList ++ List.replicate 155 '0' ++
    " 4\ncreateSpring s [0,9]\noptions excludeSpringCrossings".toList

/-- The first spring between the two inputs stops the growth. -/
theorem develop_faults_sample :
    ∃ blueprint problems, (Blueprint.read (some distantDescription)).value =
        .ok (blueprint, problems) ∧
      let grown := develop {} blueprint (some ['s']) (SeededDraws.ofSeed 1)
      Checked.develop {} blueprint (some ['s']) (SeededDraws.ofSeed 1) =
        .error (.growth (.arithmetic .overflow)) ∧
      grown.blueprint.graph.HasFarEnd := by
  obtain ⟨blueprint, problems, read, checked⟩ := Blueprint.read_checked (some distantDescription)
    (fun blueprint => !(develop {} blueprint (some ['s']) (SeededDraws.ofSeed 1)).outcome.toBool)
    (by decide +kernel)
  obtain ⟨granted, -, faults⟩ :=
    develop_faults {} read (some ['s']) (SeededDraws.ofSeed 1)
  cases outcome : (develop {} blueprint (some ['s']) (SeededDraws.ofSeed 1)).outcome with
  | ok reported => simp [outcome, Except.toBool] at checked
  | error fault =>
    rw [Grown.result, outcome] at granted
    obtain ⟨isOverflow, -, far⟩ := faults _ granted
    exact ⟨blueprint, problems, read, isOverflow ▸ granted, far⟩

end Growth

end SpringArm
