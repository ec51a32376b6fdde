import SpringArm.Proofs.Blueprint.Letters
import SpringArm.Proofs.Growth.Moves

/-!
# Construction texts

What a construction text does is done by the characters that the blueprint knows. Any other one is a
problem at its position and nothing else, so a growth from a text leaves the same blueprint as the
growth from its known characters.
-/

namespace SpringArm

/-- The problem of a numbered character: there is no template for it. -/
def Blueprint.problem? (blueprint : Blueprint) (letter : Char × Nat) : Option Problem :=
  if blueprint.knows letter.1 then none else some ⟨letter.2, .unknownConstruction letter.1⟩

namespace Growth

variable {γ : Type}

/-- A letter leaves the templates alone. -/
theorem LetterRead.knows_eq {limits : Limits} {trail next : Trail γ} {character : Char}
    {position : Nat} (read : LetterRead limits trail character position next) :
    next.blueprint.knows = trail.blueprint.knows := by
  cases read <;> rfl

/-- A character adds its problem, if it has one. -/
theorem LetterRead.problems_eq {limits : Limits} {trail next : Trail γ} {character : Char}
    {position : Nat} (read : LetterRead limits trail character position next) :
    next.problems = trail.problems ++ (trail.blueprint.problem? (character, position)).toList := by
  cases read with
  | mass distance point draws template =>
    simp [Blueprint.problem?, Blueprint.knows, template]
  | spring distance target draws noMass template candidate =>
    simp [Blueprint.problem?, Blueprint.knows, template]
  | stay distance noMass template => simp [Blueprint.problem?, Blueprint.knows, template]
  | problem noMass noSpring => simp [Blueprint.problem?, Blueprint.knows, noMass, noSpring]

/-- A trail without its problems. -/
def Trail.forget (trail : Trail γ) : Trail γ :=
  { trail with problems := [] }

variable [Draws γ]

/-- The problems of a construction text that was read to its end are those of its characters. -/
theorem readConstruction_problems {limits : Limits} {blueprint : Blueprint} {cursor : Mass}
    {construction : List Char} {draws : γ} {trail : Trail γ}
    (read : readConstruction limits blueprint cursor construction draws = (trail, none)) :
    trail.problems = construction.zipIdx.filterMap blueprint.problem? := by
  suffices told : trail.blueprint.knows = blueprint.knows ∧
      trail.problems = construction.zipIdx.filterMap blueprint.problem? from told.2
  apply stepwise_prefixes (fun letters (trail : Trail γ) =>
    trail.blueprint.knows = blueprint.knows ∧ trail.problems = letters.filterMap blueprint.problem?)
    ⟨rfl, rfl⟩ _ read
  rintro letters before letter after ⟨known, problems⟩ done
  have letterRead := readLetter_cases done
  have same : before.blueprint.problem? letter = blueprint.problem? letter := by
    simp only [Blueprint.problem?, known]
  refine ⟨letterRead.knows_eq.trans known, ?_⟩
  rw [letterRead.problems_eq, problems, same, List.filterMap_append]
  cases problem : blueprint.problem? letter <;> simp [problem]

/-- A character read without regard to problems. -/
def readSilently (limits : Limits) (trail : Trail γ) (character : Char) :
    Except Geometry.ArithmeticFault (Trail γ) :=
  (readLetter limits trail (character, 0)).map Trail.forget

/-- Reading a character does not depend on its position or on earlier problems. -/
theorem readSilently_forget (limits : Limits) (trail : Trail γ) (letter : Char × Nat) :
    readSilently limits trail.forget letter.1 =
      (readLetter limits trail letter).map Trail.forget := by
  obtain ⟨character, position⟩ := letter
  unfold readSilently readLetter
  simp only [Trail.forget]
  cases trail.blueprint.massTemplates.find? character with
  | some distance => rfl
  | none =>
    cases trail.blueprint.springTemplates.find? character with
    | none => rfl
    | some distance =>
      dsimp only
      cases createSpring trail.blueprint limits trail.cursor distance trail.draws <;> rfl

/-- A character without a template changes nothing but the problems. -/
theorem readSilently_of_unknown (limits : Limits) {trail : Trail γ} {character : Char}
    (forgotten : trail.forget = trail) (unknown : trail.blueprint.knows character = false) :
    readSilently limits trail character = .ok trail := by
  obtain ⟨noMass, noSpring⟩ := Blueprint.knows_eq_false_iff.mp unknown
  have read : readLetter limits trail (character, 0) = .ok
      { trail with problems := trail.problems ++ [⟨0, .unknownConstruction character⟩] } := by
    simp only [readLetter, noMass, noSpring]
  rw [readSilently, read]
  exact congrArg Except.ok forgotten

/-- Apart from the problems, a construction text does what its characters do in silence. -/
theorem readConstruction_forget (limits : Limits) (blueprint : Blueprint) (cursor : Mass)
    (construction : List Char) (draws : γ) :
    stepwise (readSilently limits) ⟨blueprint, cursor, draws, []⟩ construction =
      ((readConstruction limits blueprint cursor construction draws).1.forget,
        (readConstruction limits blueprint cursor construction draws).2) := by
  have silent : stepwise (readSilently limits) ⟨blueprint, cursor, draws, []⟩
      (construction.zipIdx.map Prod.fst) =
        ((readConstruction limits blueprint cursor construction draws).1.forget,
          (readConstruction limits blueprint cursor construction draws).2) :=
    stepwise_map Trail.forget Prod.fst (fun _ => True) (fun _ _ _ _ _ => trivial)
      (fun trail letter _ => readSilently_forget limits trail letter)
      ⟨blueprint, cursor, draws, []⟩ trivial construction.zipIdx
  rwa [List.zipIdx_map_fst] at silent

/-- Reading in silence keeps what is known. -/
theorem readSilently_knows_eq {limits : Limits} {trail next : Trail γ} {character : Char}
    (read : readSilently limits trail character = .ok next) :
    next.forget = next ∧ next.blueprint.knows = trail.blueprint.knows := by
  cases outcome : readLetter limits trail (character, 0) with
  | error fault =>
    rw [readSilently, outcome] at read
    cases read
  | ok loud =>
    rw [readSilently, outcome] at read
    cases read
    exact ⟨rfl, (readLetter_cases outcome).knows_eq⟩

/-- Apart from the problems, a construction text does what its known characters do. -/
theorem readConstruction_filter (limits : Limits) (blueprint : Blueprint) (cursor : Mass)
    (construction : List Char) (draws : γ) :
    let known :=
      readConstruction limits blueprint cursor (construction.filter blueprint.knows) draws
    let whole := readConstruction limits blueprint cursor construction draws
    known.1.forget = whole.1.forget ∧ known.2 = whole.2 := by
  have filtered : stepwise (readSilently limits) ⟨blueprint, cursor, draws, []⟩
      (construction.filter blueprint.knows) =
        stepwise (readSilently limits) ⟨blueprint, cursor, draws, []⟩ construction := by
    apply stepwise_filter fun trail : Trail γ =>
      trail.forget = trail ∧ trail.blueprint.knows = blueprint.knows
    · rintro before character after ⟨-, known⟩ read
      exact (readSilently_knows_eq read).imp_right (·.trans known)
    · rintro trail character ⟨forgotten, known⟩ unknown
      exact readSilently_of_unknown limits forgotten (known ▸ unknown)
    · exact ⟨rfl, rfl⟩
  rw [readConstruction_forget, readConstruction_forget] at filtered
  exact Prod.mk.inj filtered

/-- What follows the reading of a construction text comes to its end, and its problems are those of
the text. -/
theorem finish_outcome (limits : Limits) (trail : Trail γ) :
    (finish limits trail).outcome = .ok trail.problems := by
  simp only [finish]
  split
  next graph fault prunes => exact absurd (congrArg (·.2) prunes) (by simp [prune_succeeds])
  next graph prunes => rfl

/-- What follows the reading of a construction text does not depend on its problems. -/
theorem finish_forget (limits : Limits) (trail : Trail γ) :
    (finish limits trail.forget).blueprint = (finish limits trail).blueprint ∧
      (finish limits trail.forget).draws = (finish limits trail).draws := by
  simp only [finish, Trail.forget]
  split <;> exact ⟨rfl, rfl⟩

/-- What a growth makes of a construction text that was read. -/
def conclude (limits : Limits) : Trail γ × Option Geometry.ArithmeticFault → Grown γ
  | (trail, some fault) => ⟨trail.blueprint, trail.draws, [], .error (.arithmetic fault)⟩
  | (trail, none) => finish limits trail

/-- A growth from an input reads its construction text and concludes. -/
theorem develop_of_input (limits : Limits) {blueprint : Blueprint} {first : Mass}
    {others : List Mass} (inputs : startInputs blueprint = first :: others)
    (construction : Option (List Char)) (draws : γ) :
    develop limits blueprint construction draws =
      conclude limits (readConstruction limits
        { blueprint with graph := blueprint.graph.removeNetwork } first (construction.getD [])
        draws) := by
  simp only [develop, inputs]
  rfl

/-- The blueprint and the draws that are left do not depend on the problems of the text. -/
theorem conclude_forget (limits : Limits)
    {first second : Trail γ × Option Geometry.ArithmeticFault}
    (same : first.1.forget = second.1.forget) (faults : first.2 = second.2) :
    (conclude limits first).blueprint = (conclude limits second).blueprint ∧
      (conclude limits first).draws = (conclude limits second).draws := by
  obtain ⟨firstTrail, fault⟩ := first
  obtain ⟨secondTrail, _⟩ := second
  subst faults
  cases fault with
  | some fault =>
    have blueprints := congrArg Trail.blueprint same
    have draws := congrArg Trail.draws same
    exact ⟨blueprints, draws⟩
  | none =>
    have firstFinish := finish_forget limits firstTrail
    have secondFinish := finish_forget limits secondTrail
    rw [same] at firstFinish
    exact ⟨firstFinish.1.symm.trans secondFinish.1, firstFinish.2.symm.trans secondFinish.2⟩

/-- A growth from an input comes to its end if its construction text can be read, and its problems
are the characters without a template. -/
theorem develop_outcome (limits : Limits) {blueprint : Blueprint} {first : Mass}
    {others : List Mass} (inputs : startInputs blueprint = first :: others)
    (construction : List Char) (draws : γ) :
    (develop limits blueprint (some construction) draws).outcome =
      match (readConstruction limits { blueprint with graph := blueprint.graph.removeNetwork }
          first construction draws).2 with
      | some fault => .error (.arithmetic fault)
      | none => .ok (construction.zipIdx.filterMap blueprint.problem?) := by
  rw [develop_of_input limits inputs, Option.getD_some]
  cases read : readConstruction limits { blueprint with graph := blueprint.graph.removeNetwork }
      first construction draws with
  | mk trail fault =>
    cases fault with
    | some fault => rfl
    | none =>
      simp only [conclude, finish_outcome, readConstruction_problems read]
      rfl

/-- A growth does what the known characters of its construction text do. -/
theorem develop_filter (limits : Limits) (blueprint : Blueprint) (construction : List Char)
    (draws : γ) :
    let known := develop limits blueprint (some (construction.filter blueprint.knows)) draws
    let whole := develop limits blueprint (some construction) draws
    known.blueprint = whole.blueprint ∧ known.draws = whole.draws := by
  intro known whole
  cases inputs : startInputs blueprint with
  | nil => simp only [known, whole, develop_of_no_input limits inputs, and_self]
  | cons first others =>
    obtain ⟨same, faults⟩ := readConstruction_filter limits
      { blueprint with graph := blueprint.graph.removeNetwork } first construction draws
    simp only [known, whole, develop_of_input limits inputs, Option.getD_some]
    exact conclude_forget limits same faults

/-- A growth from a construction text without known characters comes to its end. -/
theorem develop_succeeds_of_unknown (limits : Limits) {blueprint : Blueprint}
    {construction : List Char} (unknown : construction.filter blueprint.knows = []) (draws : γ) :
    ∃ problems, (develop limits blueprint (some construction) draws).outcome = .ok problems := by
  cases inputs : startInputs blueprint with
  | nil => exact ⟨[], by rw [develop_of_no_input limits inputs]⟩
  | cons first others =>
    obtain ⟨-, faults⟩ := readConstruction_filter limits
      { blueprint with graph := blueprint.graph.removeNetwork } first construction draws
    have reads : (readConstruction limits
        { blueprint with graph := blueprint.graph.removeNetwork } first construction draws).2 =
          none := by
      rw [← faults]
      exact congrArg (fun known => (readConstruction limits
        { blueprint with graph := blueprint.graph.removeNetwork } first known draws).2) unknown
    exact ⟨construction.zipIdx.filterMap blueprint.problem?, by
      rw [develop_outcome limits inputs, reads]⟩

end Growth

end SpringArm
