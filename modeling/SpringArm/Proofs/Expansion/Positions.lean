import SpringArm.Proofs.Expansion.Counts
import SpringArm.Proofs.Expansion.Limit
import SpringArm.Proofs.Expansion.OnePass

/-!
# Positions of unknown symbols

The position of a problem is counted in the text as it is when the problem is met. What was written
or taken out in front of it is counted as well, so this is the position in the seed only if the text
has kept its length. Behind the cursor nothing has been touched: counted from the end, a character
that is read for the first time stands where it stands in the seed. A character that a loop reads
again has no such place; it may have been written by a rule.
-/

namespace SpringArm

/-- The wordings of the causes have different lengths, so the wording of an unknown symbol tells the
symbol. -/
theorem ProblemCause.message_eq_unknownSymbol_iff {cause : ProblemCause} {symbol : Char} :
    cause.message = "Could not understand the symbol: " ++ String.singleton symbol ↔
      cause = .unknownSymbol symbol := by
  constructor
  · intro same
    have length := congrArg String.length same
    rw [String.length_append, String.length_singleton] at length
    cases cause with
    | unknownSymbol other =>
      dsimp only [message] at same
      rw [String.append_right_inj, String.singleton_inj] at same
      rw [same]
    | unknownLine => exact absurd length (by decide +kernel)
    | unexpectedLoopEnd => exact absurd length (by decide +kernel)
    | unclosedLoop => exact absurd length (by decide +kernel)
    | unknownConstruction other =>
      dsimp only [message] at length
      rw [String.length_append, String.length_singleton] at length
      exact absurd length (by decide +kernel)
  · rintro rfl
    rfl

namespace Expansion

/-- Rules that close no loops. -/
def ClosesNoLoop (rules : List Rule) : Prop :=
  ∀ rule ∈ rules, '}' ∉ rule.replacement

theorem closesNoLoop_of_spelt {rules : List Rule} (spelt : ∀ rule ∈ rules, rule.Spelt) :
    ClosesNoLoop rules := by
  intro rule member closing
  exact absurd ((spelt rule member).2 '}' closing) (by decide)

/-- What is still to be read is the end of the seed, behind what an open loop reads again. No
closing brace is read again. -/
def Ahead (seed : List Char) (frames : List Frame) (rest : List Char) : Prop :=
  ∃ again unread, rest = again ++ unread ∧ unread <:+ seed ∧ '}' ∉ again ∧
    (frames = [] → again = [])

/-- No closing brace has been passed since the outermost loop was entered. -/
def Braceless : List Frame → List Char → Prop
  | [], _ => True
  | frame :: outer, passed => '}' ∉ passed ∧ Braceless outer frame.outer

section Ahead

variable {seed rest behind : List Char} {frames : List Frame}

theorem Ahead.of_suffix (suffix : rest <:+ seed) : Ahead seed frames rest :=
  ⟨[], rest, rfl, suffix, List.not_mem_nil, fun _ => rfl⟩

theorem Ahead.suffix (ahead : Ahead seed frames rest) (later : behind <:+ rest) :
    Ahead seed frames behind := by
  obtain ⟨again, unread, rfl, suffix, noBrace, outermost⟩ := ahead
  rcases List.suffix_or_suffix_of_suffix later (List.suffix_append again unread) with
    within | ⟨left, rfl⟩
  · exact .of_suffix (within.trans suffix)
  · obtain ⟨done, parts⟩ := later
    rw [← List.append_assoc, List.append_cancel_right_eq] at parts
    subst parts
    refine ⟨left, unread, rfl, suffix, fun brace => noBrace (List.mem_append_right _ brace), ?_⟩
    intro none
    exact (List.append_eq_nil_iff.mp (outermost none)).2

/-- A closing brace is read for the first time. -/
theorem Ahead.closing (ahead : Ahead seed frames ('}' :: rest)) : '}' :: rest <:+ seed := by
  obtain ⟨again, unread, parts, suffix, noBrace, -⟩ := ahead
  cases again with
  | nil => exact parts ▸ suffix
  | cons first others =>
    cases parts
    exact absurd List.mem_cons_self noBrace

/-- Outside of loops everything is read for the first time. -/
theorem Ahead.outermost (ahead : Ahead seed [] rest) : rest <:+ seed := by
  obtain ⟨again, unread, rfl, suffix, -, outermost⟩ := ahead
  rwa [outermost rfl, List.nil_append]

theorem Ahead.inLoop (ahead : Ahead seed frames rest) (frame : Frame) (outer : List Frame) :
    Ahead seed (frame :: outer) rest := by
  obtain ⟨again, unread, parts, suffix, noBrace, -⟩ := ahead
  exact ⟨again, unread, parts, suffix, noBrace, fun none => by cases none⟩

theorem Braceless.append {passed more : List Char} (braceless : Braceless frames passed)
    (noBrace : '}' ∉ more) : Braceless frames (more ++ passed) := by
  cases frames with
  | nil => trivial
  | cons frame outer =>
    refine ⟨fun brace => ?_, braceless.2⟩
    exact (List.mem_append.mp brace).elim noBrace braceless.1

end Ahead

namespace Scan

/-- A state whose text still ends as the seed does. -/
structure Following (seed : List Char) (scan : Scan) : Prop where
  ahead : Ahead seed scan.frames scan.rest
  braceless : Braceless scan.frames scan.passed

variable {rules : List Rule} {seed : List Char} {scan next : Scan}

theorem start_following (deepest loopsLeft : Nat) (seed : List Char) :
    (start deepest loopsLeft seed).Following seed :=
  ⟨.of_suffix (List.suffix_refl seed), trivial⟩

theorem Following.moved (following : scan.Following seed) (closesNoLoop : ClosesNoLoop rules)
    (moved : Moved rules scan next) : next.Following seed := by
  have ⟨ahead, braceless⟩ := following
  cases moved with
  | @letter character rest unread symbol =>
    have noBrace : '}' ∉ (replacement rules character).reverse := by
      rw [List.mem_reverse]
      intro brace
      have written : rewriteCharacter rules character = replacement rules character := if_pos symbol
      rcases rewriteCharacter_cases rules character with ⟨rule, member, same⟩ | same
      · exact closesNoLoop rule member (same ▸ written ▸ brace)
      · rw [← written, same, List.mem_singleton] at brace
        subst brace
        cases symbol
    exact ⟨ahead.suffix (unread ▸ List.suffix_cons _ _), braceless.append noBrace⟩
  | @unknown character rest unread noSymbol noHead noClosing =>
    refine ⟨ahead.suffix (unread ▸ List.suffix_cons _ _), braceless.append ?_⟩
    simpa using noClosing.symm
  | @unopened rest unread frames =>
    refine ⟨ahead.suffix (unread ▸ List.suffix_cons _ _), ?_⟩
    simp only [passProblem, note, replaceNext, frames]
    trivial
  | @cut digits body count loopsLeft head value room loops never =>
    obtain ⟨spelling, -, -⟩ := loopHead?_eq_some head
    unfold cutLoop
    split
    next rest closed =>
      refine ⟨ahead.suffix ((afterLoop?_suffix closed).trans ?_), braceless⟩
      exact ⟨'(' :: (digits ++ [')', '\x7b']), by simp [spelling]⟩
    · exact ⟨.of_suffix List.nil_suffix, braceless⟩
  | @enter digits body count loopsLeft passesLeft head value room loops again =>
    obtain ⟨spelling, -, -⟩ := loopHead?_eq_some head
    have bodyAhead : Ahead seed scan.frames body :=
      ahead.suffix ⟨'(' :: (digits ++ [')', '\x7b']), by simp [spelling]⟩
    exact ⟨bodyAhead.inLoop _ _, List.not_mem_nil, braceless⟩
  | @again frame outerFrames passesLeft unread frames passes =>
    rw [frames] at braceless
    -- What follows the pass has not been read: a brace that ends it was never passed in a loop.
    have first : scan.rest <:+ seed := by
      rcases unread with none | ⟨rest, brace⟩
      · exact none ▸ List.nil_suffix
      · rw [brace] at ahead ⊢
        exact ahead.closing
    refine ⟨⟨scan.passed.reverse, scan.rest, rfl, first, ?_, fun none => by cases none⟩,
      List.not_mem_nil, braceless.2⟩
    rw [List.mem_reverse]
    exact braceless.1
  | @leave rest frame outerFrames unread frames last =>
    rw [frames] at braceless
    rw [unread] at ahead
    exact ⟨.of_suffix ((List.suffix_cons _ _).trans ahead.closing), braceless.2.append braceless.1⟩
  | @unclosed frame outerFrames unread frames last =>
    rw [frames] at braceless
    exact ⟨.of_suffix List.nil_suffix, braceless.2.append braceless.1⟩

/-- A move that reports an unknown symbol has it next, at the position of the cursor. -/
theorem Moved.unknown_mem (moved : Moved rules scan next) {position : Nat} {symbol : Char}
    (member : ⟨position, .unknownSymbol symbol⟩ ∈ next.problems) :
    ⟨position, .unknownSymbol symbol⟩ ∈ scan.problems ∨
      scan.cursor = position ∧ ∃ rest, scan.rest = symbol :: rest := by
  cases moved with
  | letter unread isLetter => exact .inl member
  | @unknown character rest unread noSymbol noHead noClosing =>
    rcases List.mem_cons.mp member with same | old
    · cases same
      exact .inr ⟨rfl, rest, unread⟩
    · exact .inl old
  | unopened unread frames =>
    rcases List.mem_cons.mp member with same | old
    · cases same
    · exact .inl old
  | cut head value room loops never =>
    unfold cutLoop at member
    split at member
    · exact .inl member
    · rcases List.mem_cons.mp member with same | old
      · cases same
      · exact .inl old
  | enter head value room loops again => exact .inl member
  | again unread frames passes => exact .inl member
  | leave unread frames last => exact .inl member
  | unclosed unread frames last =>
    rcases List.mem_cons.mp member with same | old
    · cases same
    · exact .inl old

section Reaching

variable {limit : Option Int} {last state : Scan}

theorem Following.reaches (following : scan.Following seed) (closesNoLoop : ClosesNoLoop rules)
    (reaches : Reaches rules limit scan state) : state.Following seed :=
  reaches_invariant (Following seed) following
    (fun _ _ before moved => before.moved closesNoLoop moved) reaches

theorem Sourced.reaches (sourced : scan.Sourced rules seed)
    (reaches : Reaches rules limit scan state) : state.Sourced rules seed :=
  reaches_invariant (Sourced rules seed) sourced
    (fun _ _ before moved => before.moved moved) reaches

/-- Every unknown symbol that is reported was next in a state on the way. -/
theorem exists_unknown_next (none : scan.problems = []) (reaches : Reaches rules limit scan last)
    {position : Nat} {symbol : Char}
    (member : ⟨position, .unknownSymbol symbol⟩ ∈ last.problems) :
    ∃ state rest, Reaches rules limit scan state ∧ state.cursor = position ∧
      state.rest = symbol :: rest := by
  induction reaches with
  | refl =>
    rw [none] at member
    cases member
  | @tail before after earlier moved inductionHypothesis =>
    rcases (step_moved moved).unknown_mem member with old | ⟨cursor, rest, unread⟩
    · exact inductionHypothesis old
    · exact ⟨before, rest, earlier, cursor, unread⟩

/-- What is next stands in the text at the position of the cursor. -/
theorem Measured.text_cursor (measured : scan.Measured) :
    scan.text[scan.cursor]? = scan.rest[0]? := by
  rw [text, ← List.append_assoc, measured.cursor, List.getElem?_append_right (by simp)]
  simp

/-- Counted from the end of the text, what is read for the first time stands where it stands in the
seed. -/
theorem Measured.origin (measured : scan.Measured) {symbol : Char} {rest : List Char}
    (unread : scan.rest = symbol :: rest) (first : scan.rest <:+ seed) :
    ∃ origin, seed[origin]? = some symbol ∧
      scan.cursor + seed.length = origin + scan.text.length := by
  obtain ⟨front, rfl⟩ := first
  refine ⟨front.length, by simp [unread], ?_⟩
  rw [measured.length_text, measured.length, List.length_append]
  omega

/-- No loop is open, and what was read of the seed has been rewritten. -/
structure Straight (rules : List Rule) (seed : List Char) (scan : Scan) : Prop where
  frames : scan.frames = []
  written : ∃ front, seed = front ++ scan.rest ∧ scan.passed.reverse = rewrite rules front

/-- One more character has been rewritten. -/
theorem Straight.pass (straight : scan.Straight rules seed) {character : Char} {rest : List Char}
    (unread : scan.rest = character :: rest) :
    ∃ front, seed = front ++ rest ∧
      scan.passed.reverse ++ rewriteCharacter rules character = rewrite rules front := by
  obtain ⟨-, front, parts, written⟩ := straight
  refine ⟨front ++ [character], by simp [parts, unread], ?_⟩
  simp [rewrite, written]

/-- Where no loop head stands in the seed no loop is entered. -/
theorem Straight.moved (straight : scan.Straight rules seed) (headless : Headless seed)
    (moved : Moved rules scan next) : next.Straight rules seed := by
  have ⟨outermost, read, parts, _⟩ := straight
  have noHead : loopHead? scan.rest = none :=
    headless_iff.mp headless _ ((List.mem_tails _ _).mpr ⟨read, parts.symm⟩)
  cases moved with
  | @letter character rest unread symbol =>
    obtain ⟨front, frontParts, written⟩ := straight.pass unread
    rw [rewriteCharacter, if_pos symbol] at written
    exact ⟨outermost, front, frontParts, by simpa [replaceNext] using written⟩
  | @unknown character rest unread noSymbol noHead noClosing =>
    obtain ⟨front, frontParts, written⟩ := straight.pass unread
    rw [rewriteCharacter, if_neg (Bool.not_eq_true _ ▸ noSymbol)] at written
    exact ⟨outermost, front, frontParts, by simpa [passProblem, note, replaceNext] using written⟩
  | @unopened rest unread frames =>
    obtain ⟨front, frontParts, written⟩ := straight.pass unread
    have kept : rewriteCharacter rules '}' = ['}'] := rfl
    rw [kept] at written
    exact ⟨outermost, front, frontParts, by simpa [passProblem, note, replaceNext] using written⟩
  | cut head value room loops never =>
    rw [noHead] at head
    cases head
  | enter head value room loops again =>
    rw [noHead] at head
    cases head
  | again unread frames passes =>
    rw [outermost] at frames
    cases frames
  | leave unread frames last =>
    rw [outermost] at frames
    cases frames
  | unclosed unread frames last =>
    rw [outermost] at frames
    cases frames

/-- A seed without loop heads is read straight to its end. -/
theorem reaches_straight {deepest loopsLeft : Nat} (headless : Headless seed)
    (reaches : Reaches rules limit (start deepest loopsLeft seed) state) :
    state.Straight rules seed :=
  reaches_invariant (Straight rules seed) ⟨rfl, [], rfl, rfl⟩
    (fun _ _ before moved => before.moved headless moved) reaches

end Reaching

end Scan

/-- The problems of an expansion are those of a state that is reached. -/
theorem exists_last {rules : List Rule} {limits : Limits} {seed : List Char} {expanded : Expanded}
    (expands : (expand rules limits (some seed)).value = .ok expanded) :
    ∃ last, Scan.Reaches rules (some limits.longestExpansion)
        (Scan.start limits.deepestNesting (loopAllowance rules seed) seed) last ∧
      expanded.problems = last.problems.reverse := by
  obtain ⟨last, reaches, stopped⟩ := Scan.exists_stopped rules (some limits.longestExpansion)
    (Scan.start limits.deepestNesting (loopAllowance rules seed) seed)
  refine ⟨last, reaches, ?_⟩
  simp only [expand, Option.getD_some, ending] at expands
  generalize (Scan.start limits.deepestNesting (loopAllowance rules seed) seed).run rules
    (some limits.longestExpansion) = ends at expands stopped
  cases stopped with
  | complete unread frames =>
    cases expands
    rfl
  | overlong tooLong =>
    cases expands
    rfl
  | badCount fits head noNumber => cases expands
  | endless head loops => cases expands
  | tooDeep head full => cases expands

/-- Every unknown symbol that an expansion reports was next in a state on the way. -/
theorem exists_unknown_met {rules : List Rule} {limits : Limits} {seed : List Char}
    {expanded : Expanded} (expands : (expand rules limits (some seed)).value = .ok expanded)
    {problem : Problem} (member : problem ∈ expanded.problems) {symbol : Char}
    (told : problem.cause.message =
      "Could not understand the symbol: " ++ String.singleton symbol) :
    ∃ state rest, Scan.Reaches rules (some limits.longestExpansion)
        (Scan.start limits.deepestNesting (loopAllowance rules seed) seed) state ∧
      state.cursor = problem.position ∧ state.rest = symbol :: rest := by
  obtain ⟨last, reaches, problems⟩ := exists_last expands
  obtain ⟨position, cause⟩ := problem
  obtain rfl := ProblemCause.message_eq_unknownSymbol_iff.mp told
  rw [problems, List.mem_reverse] at member
  exact Scan.exists_unknown_next rfl reaches member

/-- Where every character becomes one character, a text keeps its length. -/
theorem length_rewrite_of_single {rules : List Rule} {text : List Char}
    (single : ∀ character ∈ text, (rewriteCharacter rules character).length = 1) :
    (rewrite rules text).length = text.length := by
  rw [rewrite, List.length_flatMap, List.map_congr_left single]
  simp

/-- Where an unknown symbol is reported. It stands at this position in a text of the expansion. When
it is read for the first time it is a character of the seed, and the position is that in the seed if
both are counted from the end. Only in a loop can it be read again, and then it may have been
written by a rule. In a seed without loop heads the position is behind what was written for the
characters in front; so if each of these becomes one character, it is the position in the seed. -/
theorem expand_unknownSymbols {rules : List Rule} (spelt : ∀ rule ∈ rules, rule.Spelt)
    {limits : Limits} {seed : List Char} {expanded : Expanded}
    (expands : (expand rules limits (some seed)).value = .ok expanded) {problem : Problem}
    (member : problem ∈ expanded.problems) {symbol : Char}
    (told : problem.cause.message =
      "Could not understand the symbol: " ++ String.singleton symbol) :
    (∃ state, Scan.Reaches rules (some limits.longestExpansion)
        (Scan.start limits.deepestNesting (loopAllowance rules seed) seed) state ∧
      state.cursor = problem.position ∧ state.text[problem.position]? = some symbol ∧
      ((∃ origin, seed[origin]? = some symbol ∧
          problem.position + seed.length = origin + state.text.length) ∨
        state.frames ≠ [] ∧ (symbol ∈ seed ∨ ∃ rule ∈ rules, symbol ∈ rule.replacement))) ∧
    (Headless seed → ∃ origin, seed[origin]? = some symbol ∧
      problem.position = (rewrite rules (seed.take origin)).length ∧
      ((∀ character ∈ seed.take origin, (rewriteCharacter rules character).length = 1) →
        problem.position < seed.length ∧ seed[problem.position]? = some symbol)) := by
  obtain ⟨state, rest, reaches, cursor, unread⟩ := exists_unknown_met expands member told
  have measured := (Scan.start_measured _ (loopAllowance rules seed) seed).reaches reaches
  constructor
  · have inText : state.text[problem.position]? = some symbol := by
      rw [← cursor, measured.text_cursor, unread]
      rfl
    refine ⟨state, reaches, cursor, inText, ?_⟩
    by_cases first : state.rest <:+ seed
    · left
      rw [← cursor]
      exact measured.origin unread first
    · right
      have ⟨ahead, _⟩ := (Scan.start_following _ (loopAllowance rules seed) seed).reaches
        (closesNoLoop_of_spelt spelt) reaches
      have sourced := (Scan.start_sourced rules _ _ seed).reaches reaches
      refine ⟨fun outermost => first ?_, sourced symbol (List.mem_of_getElem? inText)⟩
      rw [outermost] at ahead
      exact ahead.outermost
  · intro headless
    obtain ⟨outermost, front, parts, written⟩ := Scan.reaches_straight headless reaches
    have inSeed : seed[front.length]? = some symbol := by simp [parts, unread]
    have taken : seed.take front.length = front := by simp [parts]
    have position : problem.position = (rewrite rules front).length := by
      rw [← cursor, measured.cursor, outermost, ← written]
      simp [outerText]
    refine ⟨front.length, inSeed, taken.symm ▸ position, fun single => ?_⟩
    rw [taken] at single
    rw [position, length_rewrite_of_single single]
    exact ⟨(List.getElem?_eq_some_iff.mp inSeed).1, inSeed⟩

/-- A letter that becomes another one, as in the seeds that test single characters. -/
def renamingRules : List Rule :=
  [⟨['A'], ['a']⟩]

/-- Where letters keep their length the position is that in the seed. -/
theorem expand_unknownSymbols_renaming :
    (∀ rule ∈ renamingRules, rule.Spelt) ∧ Headless "A1B".toList ∧
      ∃ expanded, (expand renamingRules {} (some "A1B".toList)).value = .ok expanded ∧
        expanded.problems.map Problem.report = [⟨1, "Could not understand the symbol: 1"⟩] ∧
        "A1B".toList[1]? = some '1' := by
  have spelt : ∀ rule ∈ renamingRules, rule.Spelt := by
    intro rule member
    rw [List.mem_singleton.mp member]
    exact ⟨by decide, List.forall_mem_singleton.mpr rfl⟩
  have ends : ending renamingRules 498 (some 1000) "A1B".toList =
      .complete "a1B".toList [⟨1, .unknownSymbol '1'⟩] := by
    unfold ending
    iterate 3 rw [Scan.run_of_step_ok rfl]
    exact Scan.run_of_step_error rfl
  have expands : (expand renamingRules {} (some "A1B".toList)).value =
      .ok ⟨"a1B".toList, [⟨1, .unknownSymbol '1'⟩]⟩ := by
    rw [expand_of_complete {} _ ends]
  have headless : Headless "A1B".toList := by decide
  obtain ⟨-, placed⟩ := expand_unknownSymbols spelt expands
    (List.mem_singleton_self (⟨1, .unknownSymbol '1'⟩ : Problem)) rfl
  obtain ⟨origin, -, -, samePlace⟩ := placed headless
  have single : "A1B".toList.all
      (fun character => (rewriteCharacter renamingRules character).length == 1) = true := rfl
  refine ⟨spelt, headless, _, expands, rfl, (samePlace fun character member => ?_).2⟩
  exact beq_iff_eq.mp (List.all_eq_true.mp single character (List.mem_of_mem_take member))

/-- The digit is the second character of the seed and is reported as the third one, because the
letter in front of it has become two. -/
theorem expand_unknownSymbols_misplaced :
    ∃ blueprint problems, (Blueprint.read (some "productionRules B->bb".toList)).value =
        .ok (blueprint, problems) ∧
      ∃ expanded, (expand blueprint.rules {} (some "B1".toList)).value = .ok expanded ∧
        expanded.problems.map Problem.report = [⟨2, "Could not understand the symbol: 1"⟩] ∧
        ¬ ∀ problem ∈ expanded.problems, ∀ symbol,
          problem.cause.message = "Could not understand the symbol: " ++ String.singleton symbol →
          ∃ inside : problem.position < "B1".toList.length,
            "B1".toList[problem.position] = symbol := by
  obtain ⟨blueprint, problems, read, checked⟩ :=
    Blueprint.read_checked (some "productionRules B->bb".toList)
      (fun blueprint => decide (blueprint.rules = [⟨['B'], ['b', 'b']⟩])) (by decide +kernel)
  have rules := of_decide_eq_true checked
  have ends : ending blueprint.rules 498 (some 1000) "B1".toList =
      .complete "bb1".toList [⟨2, .unknownSymbol '1'⟩] := by
    rw [rules]
    unfold ending
    iterate 2 rw [Scan.run_of_step_ok rfl]
    exact Scan.run_of_step_error rfl
  have expands : (expand blueprint.rules {} (some "B1".toList)).value =
      .ok ⟨"bb1".toList, [⟨2, .unknownSymbol '1'⟩]⟩ := by
    rw [expand_of_complete {} _ ends]
  refine ⟨blueprint, problems, read, _, expands, rfl, fun placed => ?_⟩
  obtain ⟨inside, -⟩ := placed ⟨2, .unknownSymbol '1'⟩ (List.mem_singleton_self _) '1' rfl
  exact absurd inside (by decide)

end Expansion

end SpringArm
