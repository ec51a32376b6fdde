import Mathlib.Data.List.Infix
import SpringArm.Expansion.Basic
import SpringArm.Proofs.Expansion.Step

/-!
# Seeds without loops

A seed in which no loop head stands is read once, from its first character to its last. What the
rules write lies behind the cursor and is never read, whether or not it looks like a loop head or a
closing brace.
-/

namespace SpringArm.Expansion

/-- A text in which no head of a loop stands. -/
def Headless (text : List Char) : Prop :=
  ∀ front digits behind, digits ≠ [] → (∀ digit ∈ digits, Text.isDigitLike digit = true) →
    text ≠ front ++ '(' :: (digits ++ ')' :: '{' :: behind)

theorem headless_iff {text : List Char} :
    Headless text ↔ ∀ behind ∈ text.tails, loopHead? behind = none := by
  constructor
  · intro headless behind member
    obtain ⟨front, rfl⟩ := (List.mem_tails _ _).mp member
    rw [Option.eq_none_iff_forall_not_mem]
    rintro ⟨digits, body⟩ found
    obtain ⟨spelt, nonempty, allDigits⟩ := loopHead?_eq_some found
    exact headless front digits body nonempty allDigits (by rw [spelt])
  · rintro none front digits behind nonempty allDigits rfl
    have found := loopHead?_head nonempty allDigits behind
    rw [none _ ((List.mem_tails _ _).mpr (List.suffix_append _ _))] at found
    cases found

instance (text : List Char) : Decidable (Headless text) :=
  decidable_of_iff _ headless_iff.symm

/-- What is reported of a character at a position of the expanded text, unless it is a letter. -/
def strayReport? (position : Nat) (character : Char) : Option ProblemReport :=
  if isSymbol character then none
  else if character = '}' then some ⟨position, "Unexpected end of loop: \x7d"⟩
  else some ⟨position, "Could not understand the symbol: " ++ String.singleton character⟩

/-- Why a character that is no letter is reported. -/
def strayCause (character : Char) : ProblemCause :=
  if character = '}' then .unexpectedLoopEnd else .unknownSymbol character

theorem strayReport?_of_symbol {character : Char} (symbol : isSymbol character = true)
    (position : Nat) : strayReport? position character = none :=
  if_pos symbol

theorem strayReport?_of_noSymbol {character : Char} (noSymbol : isSymbol character = false)
    (position : Nat) :
    strayReport? position character = some (Problem.report ⟨position, strayCause character⟩) := by
  simp only [strayReport?, strayCause, noSymbol, Bool.false_eq_true, if_false]
  split <;> rfl

/-- What is reported of a seed without loop heads: each character stands behind what has been
written for those in front of it. -/
def strayReports (rules : List Rule) (seed : List Char) : List ProblemReport :=
  seed.zipIdx.filterMap fun entry =>
    strayReport? (rewrite rules (seed.take entry.2)).length entry.1

/-- One more character is reported behind all others. -/
theorem strayReports_append_singleton (rules : List Rule) (front : List Char) (character : Char) :
    strayReports rules (front ++ [character]) =
      strayReports rules front ++ (strayReport? (rewrite rules front).length character).toList := by
  unfold strayReports
  rw [List.zipIdx_append, List.filterMap_append]
  congr 1
  · refine List.filterMap_congr fun entry member => ?_
    have inside : entry.2 ≤ front.length := by
      have bound := List.snd_lt_of_mem_zipIdx member
      omega
    rw [List.take_append_of_le_length inside]
  · cases report : strayReport? (rewrite rules front).length character with
    | none => simp [report]
    | some found => simp [report]

namespace Scan

section Reading

variable (longest : Int) {rules : List Rule} {scan : Scan}

/-- Outside of loops a character at which no loop starts is rewritten, and reported unless it is a
letter. -/
theorem Aligned.leads_outermost (rules : List Rule) (aligned : scan.Aligned) {character : Char}
    {rest : List Char} (unread : scan.rest = character :: rest)
    (noHead : loopHead? (character :: rest) = none) (outermost : scan.frames = []) :
    ∃ problems, problems.reverse.map Problem.report = scan.problems.reverse.map Problem.report ++
        (strayReport? scan.cursor character).toList ∧
      Leads rules longest scan.length scan
        (scan.passOver (rewriteCharacter rules character) rest problems scan.loopsLeft) := by
  have length := aligned.length_eq unread
  cases symbol : isSymbol character with
  | true =>
    refine ⟨scan.problems, by simp [strayReport?_of_symbol symbol],
      leads_of_readCharacter longest unread fun _ => ?_⟩
    simp only [readCharacter, rewriteCharacter, symbol, if_true, replaceNext, passOver,
      Except.ok.injEq, mk.injEq, true_and, and_true]
    omega
  | false =>
    have read : scan.readCharacter rules character rest =
        .ok (scan.passProblem (strayCause character) character rest) := by
      simp only [readCharacter, symbol, noHead, strayCause, Bool.false_eq_true, if_false]
      split
      next closing => simp only [readLoopEnd, outermost, closing]
      · rfl
    refine ⟨⟨scan.cursor, strayCause character⟩ :: scan.problems,
      by simp [strayReport?_of_noSymbol symbol], leads_of_readCharacter longest unread fun _ => ?_⟩
    rw [read]
    simp only [rewriteCharacter, symbol, Bool.false_eq_true, if_false, passProblem, note,
      replaceNext, passOver, Except.ok.injEq, mk.injEq, true_and, and_true, List.length_singleton]
    omega

/-- A seed without loop heads is read to its end. -/
theorem leads_headless (writing : WritingRules rules) (deepest loopsLeft : Nat)
    (front rest : List Char) (headless : Headless (front ++ rest)) (problems : List Problem)
    (reported : problems.reverse.map Problem.report = strayReports rules front) :
    ∃ later, later.reverse.map Problem.report = strayReports rules (front ++ rest) ∧
      Leads rules longest (rewrite rules (front ++ rest)).length
        ((start deepest loopsLeft []).passOver (rewrite rules front) rest problems loopsLeft)
        ((start deepest loopsLeft []).passOver (rewrite rules (front ++ rest)) [] later
          loopsLeft) := by
  -- The induction is on what is still to be read: what was written for the characters in front lies
  -- behind the cursor and plays no part any more.
  induction rest generalizing front problems with
  | nil =>
    rw [List.append_nil]
    exact ⟨problems, reported, .refl _ _⟩
  | cons character rest inductionHypothesis =>
    have noHead : loopHead? (character :: rest) = none :=
      headless_iff.mp headless _ ((List.mem_tails _ _).mpr (List.suffix_append _ _))
    obtain ⟨next, nextReported, head⟩ := (passOver_aligned (start deepest loopsLeft [])
      (rewrite rules front) (character :: rest) problems loopsLeft).leads_outermost longest rules
      rfl noHead rfl
    have split : front ++ character :: rest = (front ++ [character]) ++ rest := by simp
    have written : rewrite rules front ++ rewriteCharacter rules character =
        rewrite rules (front ++ [character]) := by
      simp [rewrite]
    rw [passOver_passOver, written] at head
    rw [split] at headless ⊢
    obtain ⟨later, laterReported, others⟩ := inductionHypothesis (front ++ [character]) headless
      next (by
        rw [nextReported, strayReports_append_singleton, ← reported]
        simp [passOver, start])
    refine ⟨later, laterReported, (head.mono ?_).trans others⟩
    have longer := length_le_rewrite writing (character :: rest)
    simp only [passOver, start, rewrite, List.flatMap_append, List.flatMap_cons, List.flatMap_nil,
      List.length_append, List.length_cons, List.append_nil, List.length_nil] at longer ⊢
    omega

end Reading

end Scan

/-- A seed without loop heads is rewritten character by character, once, however its rules read. The
text is the rewritten seed if this is within the limit, with one report for each character that is
no letter, and otherwise the text that stands for an overlong one. -/
theorem expand_headless {rules : List Rule} (writing : WritingRules rules) {seed : List Char}
    (headless : Headless seed) (limits : Limits) :
    (((rewrite rules seed).length : Int) ≤ limits.longestExpansion →
      ∃ problems, problems.map Problem.report = strayReports rules seed ∧
        expand rules limits (some seed) = ⟨.ok ⟨rewrite rules seed, problems⟩, []⟩) ∧
    (limits.longestExpansion < (rewrite rules seed).length →
      ∃ problems, expand rules limits (some seed) =
        ⟨.ok ⟨limits.overlongText.toList, problems⟩,
          [.expansionStopped limits.longestExpansion]⟩) := by
  obtain ⟨problems, reported, leads⟩ := Scan.leads_headless limits.longestExpansion writing
    limits.deepestNesting (loopAllowance rules seed) [] seed headless [] rfl
  have begins : (Scan.start limits.deepestNesting (loopAllowance rules seed) []).passOver
      (rewrite rules []) seed [] (loopAllowance rules seed) =
      Scan.start limits.deepestNesting (loopAllowance rules seed) seed := by
    simp [Scan.passOver, Scan.start, rewrite]
  rw [List.nil_append, begins] at leads
  constructor
  · intro fits
    rcases leads with same | ⟨tooLong, -⟩
    · have complete : ending rules limits.deepestNesting (some limits.longestExpansion) seed =
          .complete (rewrite rules seed) problems.reverse := by
        refine same.trans (Scan.run_of_step_error ?_)
        simp [Scan.step, Scan.readEnd, Scan.passOver, Scan.start, Scan.isOverlong, fits]
      refine ⟨problems.reverse, reported, ?_⟩
      exact expand_of_complete limits (some seed) complete
    · omega
  · intro tooLong
    suffices stops : ∃ found, ending rules limits.deepestNesting (some limits.longestExpansion)
        seed = .overlong found by
      obtain ⟨found, overlong⟩ := stops
      exact ⟨found, expand_of_overlong limits (some seed) overlong⟩
    rcases leads with same | ⟨-, stops⟩
    · refine ⟨problems.reverse, same.trans (Scan.run_of_step_error ?_)⟩
      simp [Scan.step, Scan.readEnd, Scan.passOver, Scan.start, Scan.isOverlong, tooLong]
    · exact stops

/-- Rules that write a digit and a closing brace. -/
def markRules : List Rule :=
  [⟨['A'], ['2']⟩, ⟨['B'], ['}']⟩]

/-- What is written for the sample looks like a loop. -/
theorem expand_headless_sample :
    (∃ problems, problems.map Problem.report =
        [⟨0, "Could not understand the symbol: ("⟩, ⟨2, "Could not understand the symbol: )"⟩,
          ⟨3, "Could not understand the symbol: \x7b"⟩, ⟨5, "Unexpected end of loop: \x7d"⟩] ∧
      expand markRules {} (some "(A)\x7bB\x7d".toList) =
        ⟨.ok ⟨"(2)\x7b\x7d\x7d".toList, problems⟩, []⟩) ∧
    ∃ problems, expand markRules { longestExpansion := 5 } (some "(A)\x7bB\x7d".toList) =
      ⟨.ok ⟨"The output gets too long!".toList, problems⟩, [.expansionStopped 5]⟩ := by
  have writing : WritingRules markRules := by decide
  have headless : Headless "(A)\x7bB\x7d".toList := by decide
  exact ⟨(expand_headless writing headless {}).1 (by decide),
    (expand_headless writing headless { longestExpansion := 5 }).2 (by decide)⟩

end SpringArm.Expansion
