import SpringArm.Proofs.Expansion.Program

/-!
# Moves of an expansion

A run goes on with the state after its first move, or ends with the ending of this move. As the
length of the text is checked before every character, a run that reads something either leads to the
state behind it or finds the text too long; `Scan.Leads` says this together with a bound that the
text has not gone beyond, and `Scan.Overflows` says it of a run that finds loops too deep in each
other.
-/

namespace SpringArm.Expansion.Scan

section Run

variable {rules : List Rule} {limit : Option Int}

theorem run_of_step_ok {scan next : Scan} (moved : scan.step rules limit = .ok next) :
    scan.run rules limit = next.run rules limit := by
  rw [run]
  split
  next ending stopped =>
    rw [moved] at stopped
    cases stopped
  next later movedLater =>
    rw [moved] at movedLater
    cases movedLater
    rfl

theorem run_of_step_error {scan : Scan} {ending : Ending}
    (stopped : scan.step rules limit = .error ending) : scan.run rules limit = ending := by
  rw [run]
  split
  next other stoppedToo =>
    rw [stopped] at stoppedToo
    cases stoppedToo
    rfl
  next later moved =>
    rw [stopped] at moved
    cases moved

end Run

/-- The length of the whole text is what lies before and behind the cursor. -/
def Aligned (scan : Scan) : Prop :=
  scan.length = scan.cursor + scan.rest.length

/-- The state behind a text that was written in the place of what was read. -/
def passOver (scan : Scan) (written rest : List Char) (problems : List Problem)
    (loopsLeft : Nat) : Scan :=
  { scan with
    passed := written.reverse ++ scan.passed
    rest
    cursor := scan.cursor + written.length
    length := scan.cursor + written.length + rest.length
    problems
    loopsLeft }

/-- The state at the start of a pass over the body of a loop that is met in a state. -/
def inLoop (scan : Scan) (passesLeft : Nat) (rest : List Char) (problems : List Problem)
    (loopsLeft : Nat) : Scan :=
  { frames := ⟨scan.passed, scan.cursor, passesLeft⟩ :: scan.frames
    passed := []
    rest
    cursor := scan.cursor
    length := scan.cursor + rest.length
    problems
    loopsLeft
    deepest := scan.deepest }

/-- A run goes on from another state, unless the text has become too long before. If it has, the
bound is above the limit as well. -/
def Leads (rules : List Rule) (longest : Int) (bound : Nat) (scan next : Scan) : Prop :=
  scan.run rules (some longest) = next.run rules (some longest) ∨
    longest < bound ∧ ∃ problems, scan.run rules (some longest) = .overlong problems

/-- A run finds loops too deep in each other, unless the text has become too long before. If it has,
the bound is above the limit as well. -/
def Overflows (rules : List Rule) (longest : Int) (bound : Nat) (scan : Scan) : Prop :=
  scan.run rules (some longest) = .tooDeep ∨
    longest < bound ∧ ∃ problems, scan.run rules (some longest) = .overlong problems

section Views

variable (scan : Scan) (written rest : List Char) (problems : List Problem) (loopsLeft : Nat)

theorem passOver_aligned : (scan.passOver written rest problems loopsLeft).Aligned := rfl

theorem inLoop_aligned (passesLeft : Nat) :
    (scan.inLoop passesLeft rest problems loopsLeft).Aligned := rfl

/-- Two texts that are written one after the other. -/
theorem passOver_passOver (more later : List Char) (newProblems : List Problem) (fewer : Nat) :
    (scan.passOver written rest problems loopsLeft).passOver more later newProblems fewer =
      scan.passOver (written ++ more) later newProblems fewer := by
  simp [passOver, Nat.add_assoc]

theorem Aligned.passOver_nil {scan : Scan} (aligned : scan.Aligned) :
    scan.passOver [] scan.rest scan.problems scan.loopsLeft = scan := by
  cases scan
  simp_all [passOver, Aligned]

end Views

section Leads

variable {rules : List Rule} {longest : Int} {scan next last : Scan}

theorem Leads.refl (bound : Nat) (scan : Scan) : Leads rules longest bound scan scan :=
  .inl rfl

theorem Leads.mono {bound larger : Nat} (leads : Leads rules longest bound scan next)
    (le : bound ≤ larger) : Leads rules longest larger scan next := by
  rcases leads with same | ⟨above, overlong⟩
  · exact .inl same
  · exact .inr ⟨by omega, overlong⟩

theorem Leads.trans {bound : Nat} (left : Leads rules longest bound scan next)
    (right : Leads rules longest bound next last) : Leads rules longest bound scan last := by
  rcases left with same | overlong
  · rcases right with sameAgain | ⟨above, problems, overlong⟩
    · exact .inl (same.trans sameAgain)
    · exact .inr ⟨above, problems, same.trans overlong⟩
  · exact .inr overlong

theorem Overflows.mono {bound larger : Nat} (overflows : Overflows rules longest bound scan)
    (le : bound ≤ larger) : Overflows rules longest larger scan := by
  rcases overflows with tooDeep | ⟨above, overlong⟩
  · exact .inl tooDeep
  · exact .inr ⟨by omega, overlong⟩

theorem Leads.overflows {bound : Nat} (leads : Leads rules longest bound scan next)
    (ahead : Overflows rules longest bound next) : Overflows rules longest bound scan := by
  rcases leads with same | overlong
  · rcases ahead with tooDeep | ⟨above, problems, overlong⟩
    · exact .inl (same.trans tooDeep)
    · exact .inr ⟨above, problems, same.trans overlong⟩
  · exact .inr overlong

end Leads

section Reading

variable (longest : Int) {rules : List Rule} {scan next : Scan}

/-- Reading a character of a text that is not too long. -/
theorem leads_of_readCharacter {character : Char} {rest : List Char}
    (unread : scan.rest = character :: rest)
    (moved : (scan.length : Int) ≤ longest → scan.readCharacter rules character rest = .ok next) :
    Leads rules longest scan.length scan next := by
  by_cases tooLong : longest < (scan.length : Int)
  · refine .inr ⟨tooLong, scan.problems.reverse, run_of_step_error ?_⟩
    simp [step, unread, isOverlong, tooLong]
  · refine .inl (run_of_step_ok ?_)
    simp only [step, unread, isOverlong, Option.any_some, tooLong, decide_false,
      Bool.false_eq_true, if_false]
    exact moved (Int.not_lt.mp tooLong)

theorem loopHead?_of_ne {character : Char} (noOpening : character ≠ '(') (rest : List Char) :
    loopHead? (character :: rest) = none := by
  unfold loopHead?
  split
  next same =>
    cases same
    exact absurd rfl noOpening
  · rfl

/-- A closing brace ends a pass over a loop. -/
theorem readCharacter_brace (rules : List Rule) (scan : Scan) (rest : List Char) :
    scan.readCharacter rules '}' rest = .ok (scan.readLoopEnd rest) := by
  have noSymbol : isSymbol '}' = false := rfl
  simp only [readCharacter, noSymbol, Bool.false_eq_true, if_false,
    loopHead?_of_ne (show '}' ≠ '(' by decide), if_true]

theorem Aligned.length_eq (aligned : scan.Aligned) {character : Char} {rest : List Char}
    (unread : scan.rest = character :: rest) : scan.length = scan.cursor + rest.length + 1 := by
  rw [aligned, unread, List.length_cons]
  omega

/-- A character that opens or closes no loop is rewritten or stays with a problem. -/
theorem Aligned.leads_character (rules : List Rule) (aligned : scan.Aligned) {character : Char}
    {rest : List Char} (unread : scan.rest = character :: rest) (noOpening : character ≠ '(')
    (noClosing : character ≠ '}') :
    ∃ problems, Leads rules longest scan.length scan
      (scan.passOver (rewriteCharacter rules character) rest problems scan.loopsLeft) := by
  have length := aligned.length_eq unread
  by_cases symbol : isSymbol character = true
  · refine ⟨scan.problems, leads_of_readCharacter longest unread fun _ => ?_⟩
    simp only [readCharacter, rewriteCharacter, symbol, if_true, replaceNext, passOver,
      Except.ok.injEq, mk.injEq, true_and, and_true]
    omega
  · refine ⟨⟨scan.cursor, .unknownSymbol character⟩ :: scan.problems,
      leads_of_readCharacter longest unread fun _ => ?_⟩
    simp only [readCharacter, rewriteCharacter, symbol, Bool.false_eq_true, if_false,
      loopHead?_of_ne noOpening, noClosing, passProblem, note, replaceNext, passOver,
      Except.ok.injEq, mk.injEq, true_and, and_true, List.length_singleton]
    omega

/-- A pass over a text without loops rewrites it. -/
theorem Aligned.leads_plain (plainRules : PlainRules rules) (aligned : scan.Aligned)
    {text tail : List Char} (plain : Plain text) (unread : scan.rest = text ++ tail) :
    ∃ problems, Leads rules longest (scan.cursor + (rewrite rules text).length + tail.length) scan
      (scan.passOver (rewrite rules text) tail problems scan.loopsLeft) := by
  induction text generalizing scan with
  | nil =>
    have same := aligned.passOver_nil
    rw [unread] at same
    refine ⟨scan.problems, ?_⟩
    rw [rewrite, List.flatMap_nil, ← List.nil_append tail, same]
    exact .refl _ _
  | cons character rest inductionHypothesis =>
    obtain ⟨first, others⟩ := List.forall_mem_cons.mp plain
    simp only [List.mem_cons, List.not_mem_nil, or_false, not_or] at first
    rw [List.cons_append] at unread
    obtain ⟨problems, head⟩ := aligned.leads_character longest rules unread first.1 first.2.2.2
    obtain ⟨later, tailLeads⟩ := inductionHypothesis
      (passOver_aligned scan (rewriteCharacter rules character) (rest ++ tail) problems
        scan.loopsLeft) others rfl
    rw [passOver_passOver] at tailLeads
    refine ⟨later, (head.mono ?_).trans (tailLeads.mono ?_)⟩
    · have longer := length_le_rewrite plainRules.writing (character :: rest)
      rw [aligned, unread]
      simp only [List.length_cons, List.length_append] at longer ⊢
      omega
    · simp only [passOver, rewrite, List.flatMap_cons, List.length_append]
      omega

end Reading

section Heads

variable (longest : Int) {scan : Scan} {count : LoopCount} {body : List Char} {loopsLeft : Nat}

/-- A loop head in a text that is not longer than a count may be is read as a head. -/
theorem Aligned.readCharacter_loopHead (rules : List Rule) (aligned : scan.Aligned)
    (within : longest ≤ (Decimal.integerDigitLimit : Int))
    (unread : scan.rest = '(' :: (count.digits ++ ')' :: '{' :: body))
    (fits : (scan.length : Int) ≤ longest) :
    scan.readCharacter rules '(' (count.digits ++ ')' :: '{' :: body) =
        scan.readLoop count.digits body ∧
      Decimal.integerOfDigits false count.digits = .ok (count.value : Int) := by
  have length := aligned.length_eq unread
  simp only [List.length_append, List.length_cons] at length
  have noSymbol : isSymbol '(' = false := rfl
  constructor
  · simp only [readCharacter, noSymbol, Bool.false_eq_true, if_false, count.loopHead?_eq]
  · exact Decimal.integerOfDigits_plain count.plain (by omega)

/-- Where there is room for one more loop, it is cut out or entered. -/
theorem Aligned.leads_loopHead (rules : List Rule) (aligned : scan.Aligned)
    (within : longest ≤ (Decimal.integerDigitLimit : Int))
    (unread : scan.rest = '(' :: (count.digits ++ ')' :: '{' :: body))
    (room : scan.frames.length < scan.deepest) (loops : scan.loopsLeft = loopsLeft + 1) :
    Leads rules longest scan.length scan (match count.value with
      | 0 => scan.cutLoop body loopsLeft
      | more + 1 => scan.enterLoop more body (count.digits.length + 3) loopsLeft) := by
  refine leads_of_readCharacter longest unread fun fits => ?_
  obtain ⟨head, number⟩ := aligned.readCharacter_loopHead longest rules within unread fits
  simp only [head, readLoop, number, room, if_true, loops, Int.toNat_natCast]
  cases count.value <;> rfl

/-- Where there is no room for one more loop, its head ends the run. -/
theorem Aligned.overflows_loopHead (rules : List Rule) (aligned : scan.Aligned)
    (within : longest ≤ (Decimal.integerDigitLimit : Int))
    (unread : scan.rest = '(' :: (count.digits ++ ')' :: '{' :: body))
    (full : scan.deepest ≤ scan.frames.length) : Overflows rules longest scan.length scan := by
  by_cases tooLong : longest < (scan.length : Int)
  · refine .inr ⟨tooLong, scan.problems.reverse, run_of_step_error ?_⟩
    simp [step, unread, isOverlong, tooLong]
  · obtain ⟨head, number⟩ :=
      aligned.readCharacter_loopHead longest rules within unread (Int.not_lt.mp tooLong)
    refine .inl (run_of_step_error ?_)
    simp only [step, unread, isOverlong, Option.any_some, tooLong, decide_false,
      Bool.false_eq_true, if_false, head, readLoop, number, Nat.not_lt.mpr full]

/-- A loop that is read zero times is cut out up to its closing brace. -/
theorem Aligned.leads_cutLoop (rules : List Rule) (aligned : scan.Aligned)
    (within : longest ≤ (Decimal.integerDigitLimit : Int))
    (unread : scan.rest = '(' :: (count.digits ++ ')' :: '{' :: body))
    (room : scan.frames.length < scan.deepest) (loops : scan.loopsLeft = loopsLeft + 1)
    (never : count.value = 0) {after : List Char} (closed : afterLoop? 0 body = some after) :
    Leads rules longest scan.length scan (scan.passOver [] after scan.problems loopsLeft) := by
  have head := aligned.leads_loopHead longest rules within unread room loops
  rw [never] at head
  simpa [cutLoop, closed, passOver] using head

/-- Any other loop is entered. -/
theorem Aligned.leads_enterLoop (rules : List Rule) (aligned : scan.Aligned)
    (within : longest ≤ (Decimal.integerDigitLimit : Int))
    (unread : scan.rest = '(' :: (count.digits ++ ')' :: '{' :: body))
    (room : scan.frames.length < scan.deepest) (loops : scan.loopsLeft = loopsLeft + 1)
    {more : Nat} (again : count.value = more + 1) :
    Leads rules longest scan.length scan (scan.inLoop more body scan.problems loopsLeft) := by
  have head := aligned.leads_loopHead longest rules within unread room loops
  have length := aligned.length_eq unread
  simp only [List.length_append, List.length_cons] at length
  have entered : scan.enterLoop more body (count.digits.length + 3) loopsLeft =
      scan.inLoop more body scan.problems loopsLeft := by
    simp only [enterLoop, inLoop, mk.injEq, true_and, and_true]
    omega
  rw [again] at head
  exact entered ▸ head

end Heads

section Loops

variable (longest : Int) (scan : Scan)

/-- The state at the closing brace of a loop that is met in a state, behind a body. -/
def atLoopEnd (passesLeft : Nat) (body after : List Char) (problems : List Problem)
    (loopsLeft : Nat) : Scan :=
  (scan.inLoop passesLeft [] problems loopsLeft).passOver body ('}' :: after) problems loopsLeft

/-- Behind its last pass a loop is left. -/
theorem leads_leaveLoop (rules : List Rule) (body after : List Char) (problems : List Problem)
    (loopsLeft : Nat) :
    Leads rules longest (scan.cursor + body.length + after.length + 1)
      (scan.atLoopEnd 0 body after problems loopsLeft)
      (scan.passOver body after problems loopsLeft) := by
  refine leads_of_readCharacter longest rfl fun _ => ?_
  rw [readCharacter_brace]
  simp only [readLoopEnd, leaveLoop, atLoopEnd, inLoop, passOver, List.append_nil,
    List.length_cons, Except.ok.injEq, mk.injEq, true_and, and_true]
  omega

/-- Behind any other pass the next one starts. -/
theorem leads_nextPass (rules : List Rule) (passesLeft : Nat) (body after : List Char)
    (problems : List Problem) (loopsLeft : Nat) :
    Leads rules longest (scan.cursor + body.length + after.length + 1)
      (scan.atLoopEnd (passesLeft + 1) body after problems loopsLeft)
      (scan.inLoop passesLeft (body ++ '}' :: after) problems loopsLeft) := by
  refine leads_of_readCharacter longest rfl fun _ => ?_
  rw [readCharacter_brace]
  simp only [readLoopEnd, nextPass, atLoopEnd, inLoop, passOver, List.append_nil,
    List.reverse_reverse, List.length_append, List.length_cons, Except.ok.injEq, mk.injEq,
    true_and, and_true]
  omega

/-- All passes over a loop whose body is without loops by now rewrite it so many times. -/
theorem leads_passes {rules : List Rule} (plainRules : PlainRules rules) {body : List Char}
    (plain : Plain body) (passesLeft : Nat) (after : List Char) (problems : List Problem)
    (loopsLeft : Nat) :
    ∃ laterProblems, Leads rules longest
      (scan.cursor + ((rewrite rules)^[passesLeft] body).length + after.length + 1)
      (scan.atLoopEnd passesLeft body after problems loopsLeft)
      (scan.passOver ((rewrite rules)^[passesLeft] body) after laterProblems loopsLeft) := by
  induction passesLeft generalizing body problems with
  | zero => exact ⟨problems, leads_leaveLoop longest scan rules body after problems loopsLeft⟩
  | succ more inductionHypothesis =>
    have again := leads_nextPass longest scan rules more body after problems loopsLeft
    obtain ⟨passProblems, pass⟩ :=
      (inLoop_aligned scan (body ++ '}' :: after) problems loopsLeft more).leads_plain longest
        plainRules plain rfl
    obtain ⟨laterProblems, others⟩ := inductionHypothesis (plain.rewrite plainRules) passProblems
    have longer := length_le_rewrite plainRules.writing body
    have evenLonger := length_le_iterate plainRules.writing more (rewrite rules body)
    rw [Function.iterate_succ_apply]
    refine ⟨laterProblems, (again.mono ?_).trans ((pass.mono ?_).trans others)⟩
    · omega
    · simp only [inLoop, List.length_cons]
      omega

end Loops

end SpringArm.Expansion.Scan
