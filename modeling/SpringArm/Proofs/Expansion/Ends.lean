import SpringArm.Expansion.Basic
import SpringArm.Proofs.Blueprint.Rules
import SpringArm.Proofs.Expansion.Meaning
import SpringArm.Proofs.Expansion.Step

/-!
# Expansions come to an end

A run may enter only a given number of loops, and this is why it ends. Where no rule writes an
opening parenthesis the bound is never felt: every loop that is entered takes one out of the text.
So a run that may enter any number of loops, `Scan.Finishes`, ends as well and in the same way,
without help from a limit on the length. It also bounds how many loops can be open at once: a run
that finds loops too deep in each other has entered as many as may be open.
-/

namespace SpringArm.Expansion

/-- Rules that never write an opening parenthesis. -/
def OpensNoLoop (rules : List Rule) : Prop :=
  ∀ rule ∈ rules, '(' ∉ rule.replacement

namespace Scan

/-- The same state with another number of loops that may still be entered. -/
def withLoops (scan : Scan) (loopsLeft : Nat) : Scan :=
  { scan with loopsLeft }

/-- How many loops the next move enters: one before the head of a loop, and otherwise none. -/
def entered (scan : Scan) : Nat :=
  if (loopHead? scan.rest).isSome then 1 else 0

/-- A run that may enter any number of loops comes to its end after so many moves, in which it has
entered so many loops. There is always one more loop that may be entered. -/
inductive Finishes (rules : List Rule) (limit : Option Int) : Scan → Nat → Nat → Ending → Prop where
  | ends {scan : Scan} {ending : Ending}
      (stopped : (scan.withLoops 1).step rules limit = .error ending) :
      Finishes rules limit scan 0 0 ending
  | moves {scan next : Scan} {moves loops : Nat} {ending : Ending}
      (moved : (scan.withLoops 1).step rules limit = .ok next)
      (finishes : Finishes rules limit next moves loops ending) :
      Finishes rules limit scan (moves + 1) (scan.entered + loops) ending

theorem Finishes.withLoops {rules : List Rule} {limit : Option Int} {scan : Scan}
    {moves loops : Nat} {ending : Ending} (finishes : Finishes rules limit scan moves loops ending)
    (loopsLeft : Nat) : Finishes rules limit (scan.withLoops loopsLeft) moves loops ending := by
  cases finishes with
  | ends stopped => exact .ends stopped
  | moves moved finishes =>
    have sameMove : ((scan.withLoops loopsLeft).withLoops 1).step rules limit = .ok _ := moved
    exact .moves sameMove finishes

section Moves

variable {rules : List Rule} {limit : Option Int} {scan next : Scan}

private theorem readEnd_withLoops (loopsLeft : Nat) :
    (scan.withLoops loopsLeft).readEnd limit =
      (scan.readEnd limit).map (·.withLoops loopsLeft) := by
  have sameFrames : (scan.withLoops loopsLeft).frames = scan.frames := rfl
  have sameLength : (scan.withLoops loopsLeft).isOverlong limit = scan.isOverlong limit := rfl
  simp only [readEnd, sameFrames, sameLength]
  split
  · split <;> rfl
  · split <;> rfl

private theorem readLoop_withLoops {digits body : List Char}
    (possible : scan.readLoop digits body ≠ .error .endless) (others : Nat) :
    (scan.withLoops (others + 1)).readLoop digits body =
      (scan.readLoop digits body).map (·.withLoops others) := by
  cases value : Decimal.integerOfDigits false digits with
  | error fault =>
    simp only [readLoop, value, Except.map]
  | ok count =>
    by_cases room : scan.frames.length < scan.deepest
    · cases loops : scan.loopsLeft with
      | zero => simp [readLoop, value, room, loops] at possible
      | succ loopsLeft =>
        simp only [readLoop, value, loops, withLoops, room, if_true]
        cases count.toNat with
        | zero =>
          simp only [cutLoop, Except.map]
          cases afterLoop? 0 body <;> rfl
        | succ passesLeft => rfl
    · simp only [readLoop, value, withLoops, room, if_false, Except.map]

private theorem readLoopEnd_withLoops (rest : List Char) (loopsLeft : Nat) :
    (scan.withLoops loopsLeft).readLoopEnd rest =
      (scan.readLoopEnd rest).withLoops loopsLeft := by
  have sameFrames : (scan.withLoops loopsLeft).frames = scan.frames := rfl
  simp only [readLoopEnd, sameFrames]
  split
  · rfl
  · split <;> rfl

private theorem readCharacter_withLoops {character : Char} {rest : List Char}
    (unread : scan.rest = character :: rest)
    (possible : scan.readCharacter rules character rest ≠ .error .endless) :
    (scan.withLoops 1).readCharacter rules character rest =
      (scan.readCharacter rules character rest).map (·.withLoops (1 - scan.entered)) := by
  unfold readCharacter at possible ⊢
  cases symbol : isSymbol character with
  | true =>
    have noOpening : character ≠ '(' := by
      rintro rfl
      cases symbol
    have none : scan.entered = 0 := by
      simp [entered, unread, loopHead?_of_ne noOpening]
    rw [none]
    rfl
  | false =>
    rw [symbol] at possible
    simp only [Bool.false_eq_true, if_false] at possible ⊢
    cases head : loopHead? (character :: rest) with
    | some found =>
      have one : scan.entered = 1 := by simp [entered, unread, head]
      rw [head] at possible
      rw [one]
      exact readLoop_withLoops possible 0
    | none =>
      have none : scan.entered = 0 := by simp [entered, unread, head]
      rw [none]
      dsimp only
      split
      · rw [readLoopEnd_withLoops]
        rfl
      · rfl

/-- As long as there is a loop left to be entered, their number makes no difference to a move. -/
theorem step_withLoops (possible : scan.step rules limit ≠ .error .endless) :
    (scan.withLoops 1).step rules limit =
      (scan.step rules limit).map (·.withLoops (1 - scan.entered)) := by
  cases unread : scan.rest with
  | nil =>
    have none : scan.entered = 0 := by simp [entered, unread, loopHead?]
    have ended : ∀ state : Scan, state.rest = [] →
        state.step rules limit = state.readEnd limit := by
      intro state nothing
      simp only [step, nothing]
    rw [ended scan unread, ended (scan.withLoops 1) unread, none, readEnd_withLoops]
  | cons character rest =>
    have begun : ∀ state : Scan, state.rest = character :: rest →
        state.step rules limit = if state.isOverlong limit
          then .error (.overlong state.problems.reverse)
          else state.readCharacter rules character rest := by
      intro state some
      simp only [step, some]
    rw [begun scan unread] at possible ⊢
    rw [begun (scan.withLoops 1) unread]
    by_cases tooLong : scan.isOverlong limit = true
    · have same : (scan.withLoops 1).isOverlong limit = true := tooLong
      simp only [tooLong, same, if_true]
      rfl
    · have same : ¬(scan.withLoops 1).isOverlong limit = true := tooLong
      simp only [tooLong, same] at possible ⊢
      exact readCharacter_withLoops unread possible

/-- A move uses up as many loops as it enters. -/
theorem Moved.loops (moved : Moved rules scan next) :
    next.loopsLeft + scan.entered = scan.loopsLeft := by
  cases moved with
  | @letter character rest unread symbol =>
    have noOpening : character ≠ '(' := by
      rintro rfl
      cases symbol
    simp [entered, unread, loopHead?_of_ne noOpening, replaceNext]
  | unknown unread noSymbol noHead noClosing =>
    simp [entered, unread, noHead, passProblem, note, replaceNext]
  | unopened unread frames =>
    simp [entered, unread, loopHead?, passProblem, note, replaceNext]
  | cut head value room loops never =>
    simp only [entered, head, Option.isSome_some, if_true, loops, cutLoop]
    split <;> rfl
  | enter head value room loops again =>
    simp [entered, head, loops, enterLoop]
  | again unread frames passes =>
    rcases unread with unread | ⟨rest, unread⟩ <;> simp [entered, unread, loopHead?, nextPass]
  | leave unread frames last =>
    simp [entered, unread, loopHead?, leaveLoop]
  | unclosed unread frames last =>
    simp [entered, unread, loopHead?, leaveLoop, note]

theorem count_rewriteCharacter_le {bracket : Char}
    (unwritten : ∀ rule ∈ rules, bracket ∉ rule.replacement) (character : Char) :
    (rewriteCharacter rules character).count bracket ≤ [character].count bracket := by
  rcases rewriteCharacter_cases rules character with ⟨rule, member, written⟩ | written
  · rw [written, List.count_eq_zero.mpr (unwritten rule member)]
    exact Nat.zero_le _
  · rw [written]

/-- Every loop that is entered takes one of each bracket of its head out of the text, and a bracket
that no rule writes is never put in. -/
theorem Moved.brackets_le {bracket : Char} (isBracket : bracket ∈ headBrackets)
    (unwritten : ∀ rule ∈ rules, bracket ∉ rule.replacement) (moved : Moved rules scan next) :
    scan.entered + next.text.count bracket ≤ scan.text.count bracket := by
  have used := moved.loops
  cases moved.textChange with
  | kept text loops =>
    rw [text]
    omega
  | replaced front character tail before after loops =>
    have written := count_rewriteCharacter_le unwritten character
    rw [before, after, ← List.singleton_append]
    simp only [List.count_append]
    omega
  | removed front gone tail before after loops =>
    rw [before, after]
    simp only [List.count_append]
    rcases loops with same | ⟨one, brackets⟩
    · omega
    · have some := List.count_pos_iff.mpr (brackets bracket isBracket)
      omega

theorem Moved.openings_le (opensNoLoop : OpensNoLoop rules) (moved : Moved rules scan next) :
    scan.entered + next.text.count '(' ≤ scan.text.count '(' :=
  moved.brackets_le List.mem_cons_self opensNoLoop

/-- Before the head of a loop all its brackets are in the text. -/
theorem count_pos_of_head {bracket : Char} (isBracket : bracket ∈ headBrackets)
    {digits body : List Char} (head : loopHead? scan.rest = some (digits, body)) :
    0 < scan.text.count bracket := by
  obtain ⟨spelt, -, -⟩ := loopHead?_eq_some head
  apply List.count_pos_iff.mpr
  rw [text, spelt]
  exact List.mem_append_right _ (List.mem_append_right _ (mem_head isBracket digits body))

/-- Before the head of a loop there is an opening parenthesis in the text. -/
theorem Stopped.not_endless {ending : Ending} (stopped : Stopped limit scan ending)
    (enough : scan.text.count '(' ≤ scan.loopsLeft) : ending ≠ .endless := by
  rintro rfl
  cases stopped with
  | endless head loops =>
    have some : 0 < scan.text.count '(' := count_pos_of_head List.mem_cons_self head
    omega

/-- A run finds loops too deep in each other only if each bracket of a head, where no rule writes
it, was in its text more often than loops may be open. -/
theorem deepest_lt_of_run {bracket : Char} (isBracket : bracket ∈ headBrackets)
    (unwritten : ∀ rule ∈ rules, bracket ∉ rule.replacement)
    (tooDeep : scan.run rules limit = .tooDeep) :
    scan.deepest < scan.frames.length + scan.text.count bracket := by
  obtain ⟨last, ⟨sameDeepest, fewer⟩, stopped⟩ := run_invariant rules limit
    (fun reached : Scan => reached.deepest = scan.deepest ∧
      reached.frames.length + reached.text.count bracket ≤
        scan.frames.length + scan.text.count bracket)
    ⟨rfl, Nat.le_refl _⟩ fun before after ⟨same, less⟩ moved => by
      have brackets := moved.brackets_le isBracket unwritten
      have used := moved.loops
      have opened := moved.frames_le
      exact ⟨moved.deepest_eq.trans same, by omega⟩
  rw [tooDeep] at stopped
  cases stopped with
  | tooDeep head full =>
    have some := count_pos_of_head isBracket head
    omega

/-- A run that may enter as many loops as there are opening parentheses enters no more than these,
and goes on as if it might enter any number of loops. If it finds loops too deep in each other, it
has entered as many as may be open, and one opening parenthesis is left. -/
theorem run_finishes (opensNoLoop : OpensNoLoop rules) (limit : Option Int)
    (enough : scan.text.count '(' ≤ scan.loopsLeft) :
    scan.run rules limit ≠ .endless ∧ ∃ moves loops,
      Finishes rules limit scan moves loops (scan.run rules limit) ∧
        loops ≤ scan.text.count '(' ∧
        (scan.run rules limit = .tooDeep →
          scan.deepest ≤ scan.frames.length + loops ∧ loops < scan.text.count '(') := by
  induction scan using run.induct rules limit with
  | case1 scan ending stopped =>
    have possible := (step_stopped stopped).not_endless enough
    rw [run_of_step_error stopped]
    refine ⟨possible, 0, 0, .ends ?_, Nat.zero_le _, ?_⟩
    · rw [step_withLoops (by simpa [stopped] using possible), stopped]
      rfl
    · rintro rfl
      cases step_stopped stopped with
      | tooDeep head full => exact ⟨full, count_pos_of_head List.mem_cons_self head⟩
  | case2 scan next moved _ inductionHypothesis =>
    have openings := (step_moved moved).openings_le opensNoLoop
    have used := (step_moved moved).loops
    have opened := (step_moved moved).frames_le
    have sameDeepest := (step_moved moved).deepest_eq
    obtain ⟨possible, moves, loops, finishes, bound, deep⟩ := inductionHypothesis (by omega)
    have unbounded : (scan.withLoops 1).step rules limit =
        .ok (next.withLoops (1 - scan.entered)) := by
      rw [step_withLoops (by simp [moved]), moved]
      rfl
    rw [run_of_step_ok moved]
    refine ⟨possible, moves + 1, scan.entered + loops,
      .moves unbounded (finishes.withLoops _), by omega, fun tooDeep => ?_⟩
    have ahead := deep tooDeep
    omega

end Moves

end Scan

/-- No rule of a description writes a bracket of the head of a loop. -/
theorem bracket_not_mem {rules : List Rule} (spelt : ∀ rule ∈ rules, rule.Spelt) {bracket : Char}
    (isBracket : bracket ∈ headBrackets) : ∀ rule ∈ rules, bracket ∉ rule.replacement := by
  intro rule member inside
  have written := (spelt rule member).2 bracket inside
  simp only [headBrackets, List.mem_cons, List.not_mem_nil, or_false] at isBracket
  rcases isBracket with rfl | rfl | rfl <;> exact absurd written (by decide)

theorem opensNoLoop_of_spelt {rules : List Rule} (spelt : ∀ rule ∈ rules, rule.Spelt) :
    OpensNoLoop rules :=
  bracket_not_mem spelt List.mem_cons_self

theorem count_le_loopAllowance (rules : List Rule) (seed : List Char) :
    seed.count '(' ≤ loopAllowance rules seed :=
  Nat.le_add_right _ _

/-- An expansion finds loops too deep in each other only if each bracket of a head, where no rule
writes it, is in the seed more often than loops may be open. -/
theorem deepest_lt_count {rules : List Rule} {bracket : Char} (isBracket : bracket ∈ headBrackets)
    (unwritten : ∀ rule ∈ rules, bracket ∉ rule.replacement) {deepest : Nat} {limit : Option Int}
    {seed : List Char} (tooDeep : ending rules deepest limit seed = .tooDeep) :
    deepest < seed.count bracket := by
  have more := Scan.deepest_lt_of_run isBracket unwritten tooDeep
  rw [Scan.start_text] at more
  simpa [Scan.start] using more

end SpringArm.Expansion
