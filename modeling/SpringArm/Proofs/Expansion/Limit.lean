import Mathlib.Logic.Relation
import Mathlib.Order.Bounds.Basic
import SpringArm.Proofs.Expansion.Ends

/-!
# Expansions under a limit

The length of the text is checked only before a character is read and at the very end. That is
enough: where a text that is too long is not checked the next move leaves its length as it is, so it
is still too long when the check comes. A limit therefore stops an expansion exactly if the text is
too long at some moment of the expansion without a limit, and changes nothing otherwise.
-/

namespace SpringArm.Expansion

namespace Scan

/-- One state comes after another one, zero or more moves later. -/
abbrev Reaches (rules : List Rule) (limit : Option Int) : Scan → Scan → Prop :=
  Relation.ReflTransGen fun before after => before.step rules limit = .ok after

section Reaching

variable {rules : List Rule} {limit : Option Int} {scan next state : Scan}

/-- From a state that moves on, itself and what the next state reaches are reached. -/
theorem reaches_iff_of_step_ok (moved : scan.step rules limit = .ok next) :
    Reaches rules limit scan state ↔ state = scan ∨ Reaches rules limit next state := by
  constructor
  · intro reaches
    rcases Relation.ReflTransGen.cases_head reaches with same | ⟨other, first, rest⟩
    · exact .inl same.symm
    · rw [moved] at first
      cases first
      exact .inr rest
  · rintro (rfl | rest)
    · exact .refl
    · exact .head moved rest

/-- From a state that makes no move only itself is reached. -/
theorem reaches_iff_of_step_error {ending : Ending}
    (stopped : scan.step rules limit = .error ending) :
    Reaches rules limit scan state ↔ state = scan := by
  constructor
  · intro reaches
    rcases Relation.ReflTransGen.cases_head reaches with same | ⟨other, first, -⟩
    · exact same.symm
    · rw [stopped] at first
      cases first
  · rintro rfl
    exact .refl

/-- Whatever every move keeps holds of every state that is reached. -/
theorem reaches_invariant (holds : Scan → Prop) (start : holds scan)
    (kept : ∀ before after, holds before → Moved rules before after → holds after)
    (reaches : Reaches rules limit scan state) : holds state := by
  induction reaches with
  | refl => exact start
  | tail _ moved inductionHypothesis => exact kept _ _ inductionHypothesis (step_moved moved)

/-- The positions and lengths of every state that is reached are those of its text. -/
theorem Measured.reaches (measured : scan.Measured) (reaches : Reaches rules limit scan state) :
    state.Measured :=
  reaches_invariant Measured measured (fun _ _ before moved => before.moved moved) reaches

/-- A run stops in a state that it reaches. -/
theorem exists_stopped (rules : List Rule) (limit : Option Int) (scan : Scan) :
    ∃ last, Reaches rules limit scan last ∧ Stopped limit last (scan.run rules limit) := by
  induction scan using run.induct rules limit with
  | case1 scan ending stopped =>
    rw [run_of_step_error stopped]
    exact ⟨scan, .refl, step_stopped stopped⟩
  | case2 scan next moved _ inductionHypothesis =>
    obtain ⟨last, reaches, stopped⟩ := inductionHypothesis
    rw [run_of_step_ok moved]
    exact ⟨last, .head moved reaches, stopped⟩

/-- The length that a state counts is that of its text. -/
theorem Measured.length_text (measured : scan.Measured) : scan.text.length = scan.length := by
  rw [measured.length, measured.cursor]
  simp only [text, List.length_append, List.length_reverse]
  omega

/-- One of the states that are reached has the longest text. -/
theorem exists_longest (rules : List Rule) (limit : Option Int) (scan : Scan) :
    ∃ longest, IsGreatest {length | ∃ state, Reaches rules limit scan state ∧
      state.text.length = length} longest := by
  induction scan using run.induct rules limit with
  | case1 scan ending stopped =>
    refine ⟨scan.text.length, ⟨scan, .refl, rfl⟩, ?_⟩
    rintro length ⟨state, reaches, rfl⟩
    rw [reaches_iff_of_step_error stopped] at reaches
    rw [reaches]
  | case2 scan next moved _ inductionHypothesis =>
    obtain ⟨later, ⟨state, reaches, rfl⟩, most⟩ := inductionHypothesis
    refine ⟨max scan.text.length state.text.length, ?_, ?_⟩
    · rcases Nat.le_total scan.text.length state.text.length with less | more
      · exact ⟨state, .head moved reaches, (Nat.max_eq_right less).symm⟩
      · exact ⟨scan, .refl, (Nat.max_eq_left more).symm⟩
    · rintro length ⟨other, otherReaches, rfl⟩
      rcases (reaches_iff_of_step_ok moved).mp otherReaches with rfl | rest
      · exact Nat.le_max_left _ _
      · exact (most ⟨other, rest, rfl⟩).trans (Nat.le_max_right _ _)

end Reaching

section Checks

variable {rules : List Rule} {longest : Int} {scan next : Scan}

/-- While the text is within the limit, the limit makes no difference to a move. -/
theorem step_of_fits (fits : (scan.length : Int) ≤ longest) :
    scan.step rules (some longest) = scan.step rules none := by
  have short : scan.isOverlong (some longest) = false := decide_eq_false (Int.not_lt.mpr fits)
  have unlimited : scan.isOverlong none = false := rfl
  simp only [step, readEnd, short, unlimited]

/-- A text that is too long is found so, or it keeps its length in the same move as without a
limit. -/
theorem step_of_tooLong (rules : List Rule) (tooLong : longest < (scan.length : Int)) :
    scan.step rules (some longest) = .error (.overlong scan.problems.reverse) ∨
      ∃ next, scan.step rules (some longest) = .ok next ∧ scan.step rules none = .ok next ∧
        next.length = scan.length := by
  have long : scan.isOverlong (some longest) = true := decide_eq_true tooLong
  cases unread : scan.rest with
  | cons character rest =>
    left
    simp only [step, unread, long, if_true]
  | nil =>
    -- Only at the end of the text in an open loop is there a move without a check.
    cases frames : scan.frames with
    | nil =>
      left
      simp only [step, unread, readEnd, frames, long, if_true]
    | cons frame outerFrames =>
      right
      simp only [step, unread, readEnd, frames]
      cases frame.passesLeft with
      | zero => exact ⟨_, rfl, rfl, rfl⟩
      | succ passesLeft => exact ⟨_, rfl, rfl, rfl⟩

/-- If every text without a limit is within the limit, the limit makes no difference. -/
theorem run_of_fits
    (fits : ∀ state, Reaches rules none scan state → (state.length : Int) ≤ longest) :
    scan.run rules (some longest) = scan.run rules none := by
  induction scan using run.induct rules none with
  | case1 scan ending stopped =>
    have stoppedToo := (step_of_fits (fits scan .refl)).trans stopped
    rw [run_of_step_error stopped, run_of_step_error stoppedToo]
  | case2 scan next moved _ inductionHypothesis =>
    have movedToo := (step_of_fits (fits scan .refl)).trans moved
    rw [run_of_step_ok moved, run_of_step_ok movedToo]
    exact inductionHypothesis fun state reaches => fits state (.head moved reaches)

/-- If some text without a limit is too long, the expansion is stopped, with the problems of a state
that is reached without a limit, too. -/
theorem run_of_tooLong {state : Scan} (reaches : Reaches rules none scan state)
    (tooLong : longest < (state.length : Int)) :
    ∃ last, Reaches rules none scan last ∧
      scan.run rules (some longest) = .overlong last.problems.reverse := by
  induction scan using run.induct rules none generalizing state with
  | case1 scan ending stopped =>
    rw [reaches_iff_of_step_error stopped] at reaches
    subst reaches
    rcases step_of_tooLong rules tooLong with stops | ⟨next, -, moved, -⟩
    · exact ⟨state, .refl, run_of_step_error stops⟩
    · rw [stopped] at moved
      cases moved
  | case2 scan next moved _ inductionHypothesis =>
    suffices ahead : scan.step rules (some longest) = .error (.overlong scan.problems.reverse) ∨
        scan.step rules (some longest) = .ok next ∧
          ∃ later, Reaches rules none next later ∧ longest < (later.length : Int) by
      rcases ahead with stops | ⟨goesOn, later, laterReaches, laterTooLong⟩
      · exact ⟨scan, .refl, run_of_step_error stops⟩
      · obtain ⟨last, lastReaches, stops⟩ := inductionHypothesis laterReaches laterTooLong
        exact ⟨last, .head moved lastReaches, (run_of_step_ok goesOn).trans stops⟩
    by_cases here : longest < (scan.length : Int)
    · refine (step_of_tooLong rules here).imp_right ?_
      rintro ⟨other, goesOn, same, length⟩
      rw [moved] at same
      cases same
      exact ⟨goesOn, next, .refl, length.symm ▸ here⟩
    · have fits : (scan.length : Int) ≤ longest := Int.not_lt.mp here
      rcases (reaches_iff_of_step_ok moved).mp reaches with rfl | later
      · exact absurd tooLong here
      · exact .inr ⟨(step_of_fits fits).trans moved, state, later, tooLong⟩

end Checks

section Problems

variable {rules : List Rule} {limit : Option Int} {scan state : Scan}

/-- A run goes on from every state that it reaches. -/
theorem run_of_reaches (reaches : Reaches rules limit scan state) :
    scan.run rules limit = state.run rules limit := by
  induction reaches with
  | refl => rfl
  | tail _ moved inductionHypothesis => rw [inductionHypothesis, run_of_step_ok moved]

/-- The problems of an expansion start with those of each state on its way. -/
theorem problems_prefix {text : List Char} {problems : List Problem}
    (reaches : Reaches rules limit scan state)
    (complete : scan.run rules limit = .complete text problems) :
    state.problems.reverse <+: problems := by
  obtain ⟨last, found, stopped⟩ := run_invariant rules limit
    (fun later : Scan => state.problems <:+ later.problems) (List.suffix_refl _)
    fun _ _ found moved => found.trans moved.problems_suffix
  rw [← run_of_reaches reaches, complete] at stopped
  cases stopped with
  | complete unread frames => exact List.reverse_prefix.mpr found

end Problems

end Scan

section Lengths

/-- The length of the longest right side of a rule, and at least one. -/
def widest (rules : List Rule) : Nat :=
  rules.foldr (fun rule width => max rule.replacement.length width) 1

theorem one_le_widest (rules : List Rule) : 1 ≤ widest rules := by
  induction rules with
  | nil => exact Nat.le_refl 1
  | cons rule rest inductionHypothesis => exact inductionHypothesis.trans (Nat.le_max_right _ _)

theorem length_le_widest {rules : List Rule} {rule : Rule} (member : rule ∈ rules) :
    rule.replacement.length ≤ widest rules := by
  induction rules with
  | nil => cases member
  | cons first rest inductionHypothesis =>
    rcases List.mem_cons.mp member with rfl | later
    · exact Nat.le_max_left _ _
    · exact (inductionHypothesis later).trans (Nat.le_max_right _ _)

theorem length_rewriteCharacter_le (rules : List Rule) (character : Char) :
    (rewriteCharacter rules character).length ≤ widest rules := by
  rcases rewriteCharacter_cases rules character with ⟨rule, member, written⟩ | written
  · exact written ▸ length_le_widest member
  · exact written ▸ one_le_widest rules

namespace Scan

variable {rules : List Rule} {longest : Int} {scan next state : Scan}

/-- A move makes a text longer only by a right side in the place of a letter. -/
theorem Moved.length_lt (moved : Moved rules scan next) :
    next.text.length < scan.text.length + widest rules := by
  have wide := one_le_widest rules
  cases moved.textChange with
  | kept text loops =>
    rw [text]
    omega
  | replaced front character tail before after loops =>
    have written := length_rewriteCharacter_le rules character
    rw [before, after]
    simp only [List.length_append, List.length_cons]
    omega
  | removed front gone tail before after loops =>
    rw [before, after]
    simp only [List.length_append]
    omega

/-- Under a limit a text gets longer than it was at the start only by the last move that found it
within the limit. -/
theorem length_le_of_reaches (measured : scan.Measured)
    (reaches : Reaches rules (some longest) scan state) :
    (state.text.length : Int) ≤ max (scan.text.length : Int) (longest + widest rules - 1) := by
  induction reaches with
  | refl => exact Int.le_max_left _ _
  | @tail before after earlier moved inductionHypothesis =>
    have beforeLength := (measured.reaches earlier).length_text
    have afterLength := (measured.reaches (earlier.tail moved)).length_text
    by_cases fits : (before.length : Int) ≤ longest
    · have longer := (step_moved moved).length_lt
      omega
    · rcases step_of_tooLong rules (Int.not_le.mp fits) with stops | ⟨other, same, -, length⟩
      · rw [stops] at moved
        cases moved
      · rw [same] at moved
        cases moved
        omega

end Scan

/-- The lengths that the text of an expansion has from the seed on until the expansion ends. -/
def lengths (rules : List Rule) (deepest : Nat) (limit : Option Int) (seed : List Char) : Set Nat :=
  {length | ∃ state,
    Scan.Reaches rules limit (Scan.start deepest (loopAllowance rules seed) seed) state ∧
      state.text.length = length}

end Lengths

/-- With rules that open no loops an expansion without a limit gives a text, unless it meets a count
that is no number or loops too deep in each other. -/
theorem exists_complete {rules : List Rule} (opensNoLoop : OpensNoLoop rules) {deepest : Nat}
    {seed : List Char} (numbers : ∀ fault, ending rules deepest none seed ≠ .badCount fault)
    (shallow : ending rules deepest none seed ≠ .tooDeep) :
    ∃ text problems, ending rules deepest none seed = .complete text problems := by
  have enough := count_le_loopAllowance rules seed
  have possible : ending rules deepest none seed ≠ .endless :=
    (Scan.run_finishes opensNoLoop none (by rwa [Scan.start_text])).1
  have stops : ∃ last, True ∧ Scan.Stopped none last (ending rules deepest none seed) :=
    Scan.run_invariant rules none (fun _ => True) trivial fun _ _ _ _ => trivial
  obtain ⟨last, -, stopped⟩ := stops
  cases ends : ending rules deepest none seed with
  | complete text problems => exact ⟨text, problems, rfl⟩
  | overlong problems =>
    rw [ends] at stopped
    cases stopped with
    | overlong tooLong => cases tooLong
  | badCount fault => exact absurd ends (numbers fault)
  | endless => exact absurd ends possible
  | tooDeep => exact absurd ends shallow

/-- If no text on the way of an unlimited expansion is longer than the limit, the limited one is the
same, and otherwise it is stopped with the problems found until then. -/
theorem expand_of_longest {rules : List Rule} {seed : List Char} {limits : Limits} {longest : Nat}
    (greatest : IsGreatest (lengths rules limits.deepestNesting none seed) longest)
    {text : List Char} {problems : List Problem}
    (complete : ending rules limits.deepestNesting none seed = .complete text problems) :
    ((longest : Int) ≤ limits.longestExpansion →
      expand rules limits (some seed) = ⟨.ok ⟨text, problems⟩, []⟩) ∧
    (limits.longestExpansion < longest → ∃ found, found <+: problems ∧
      expand rules limits (some seed) = ⟨.ok ⟨limits.overlongText.toList, found⟩,
        [.expansionStopped limits.longestExpansion]⟩) := by
  have measured := Scan.start_measured limits.deepestNesting (loopAllowance rules seed) seed
  obtain ⟨⟨state, reaches, length⟩, most⟩ := greatest
  constructor
  · intro fits
    have same : ending rules limits.deepestNesting (some limits.longestExpansion) seed =
        ending rules limits.deepestNesting none seed := by
      refine Scan.run_of_fits fun later laterReaches => ?_
      have within := most ⟨later, laterReaches, rfl⟩
      rw [(measured.reaches laterReaches).length_text] at within
      omega
    exact expand_of_complete limits (some seed) (same.trans complete)
  · intro tooLong
    rw [← length, (measured.reaches reaches).length_text] at tooLong
    obtain ⟨last, lastReaches, stops⟩ := Scan.run_of_tooLong reaches tooLong
    have overlong : ending rules limits.deepestNesting (some limits.longestExpansion) seed =
        .overlong last.problems.reverse := stops
    exact ⟨last.problems.reverse, Scan.problems_prefix lastReaches complete,
      expand_of_overlong limits (some seed) overlong⟩

/-- With rules that open no loops a limited expansion is the unlimited one, cut exactly at the
limit. Where the unlimited expansion meets no count that is no number and no loops too deep in each
other, it gives a text. The limited one gives the same text with the same problems if no text on the
way is longer than the limit, and otherwise the text that stands for an overlong one. And in a
limited expansion no text is longer than the seed or, if this is more, than the limit with the
longest right side in the place of one letter. -/
theorem expand_cut {rules : List Rule} (opensNoLoop : OpensNoLoop rules) (deepest : Nat)
    (seed : List Char) :
    ∃ longest, IsGreatest (lengths rules deepest none seed) longest ∧
      ((∀ fault, ending rules deepest none seed ≠ .badCount fault) →
        ending rules deepest none seed ≠ .tooDeep →
        ∃ text problems, ending rules deepest none seed = .complete text problems ∧
          ∀ limits : Limits, limits.deepestNesting = deepest →
            ((longest : Int) ≤ limits.longestExpansion →
              expand rules limits (some seed) = ⟨.ok ⟨text, problems⟩, []⟩) ∧
            (limits.longestExpansion < longest → ∃ found, found <+: problems ∧
              expand rules limits (some seed) = ⟨.ok ⟨limits.overlongText.toList, found⟩,
                [.expansionStopped limits.longestExpansion]⟩)) ∧
      ∀ limits : Limits,
        ∀ length ∈ lengths rules deepest (some limits.longestExpansion) seed,
          (length : Int) ≤
            max (seed.length : Int) (limits.longestExpansion + widest rules - 1) := by
  have measured := Scan.start_measured deepest (loopAllowance rules seed) seed
  obtain ⟨longest, greatest⟩ :=
    Scan.exists_longest rules none (Scan.start deepest (loopAllowance rules seed) seed)
  refine ⟨longest, greatest, ?_, ?_⟩
  · intro numbers shallow
    obtain ⟨text, problems, complete⟩ := exists_complete opensNoLoop numbers shallow
    refine ⟨text, problems, complete, ?_⟩
    rintro limits rfl
    exact expand_of_longest greatest complete
  · rintro limits reached ⟨later, laterReaches, rfl⟩
    have bound := Scan.length_le_of_reaches measured laterReaches
    rwa [Scan.start_text] at bound

/-- A letter that divides in two. -/
def divisionRules : List Rule :=
  [⟨['B'], ['B', 'B']⟩]

/-- Three divisions. -/
def divisionSeed : List Char :=
  "(3)\x7bB\x7d".toList

/-- The brace behind the eight letters of the sample counts, too. -/
theorem expand_cut_sample :
    IsGreatest (lengths divisionRules 498 none divisionSeed) 9 ∧
      (∃ found, expand divisionRules { longestExpansion := 8 } (some divisionSeed) =
        ⟨.ok ⟨"The output gets too long!".toList, found⟩, [.expansionStopped 8]⟩) ∧
      expand divisionRules { longestExpansion := 9 } (some divisionSeed) =
        ⟨.ok ⟨"BBBBBBBB".toList, []⟩, []⟩ := by
  have unlimited : ending divisionRules 498 none divisionSeed = .complete "BBBBBBBB".toList [] := by
    unfold ending
    iterate 11 rw [Scan.run_of_step_ok rfl]
    exact Scan.run_of_step_error rfl
  have eight : ending divisionRules 498 (some 8) divisionSeed = .overlong [] := by
    unfold ending
    iterate 10 rw [Scan.run_of_step_ok rfl]
    exact Scan.run_of_step_error rfl
  have nine : ending divisionRules 498 (some 9) divisionSeed = .complete "BBBBBBBB".toList [] := by
    unfold ending
    iterate 11 rw [Scan.run_of_step_ok rfl]
    exact Scan.run_of_step_error rfl
  have opensNoLoop : OpensNoLoop divisionRules := by
    intro rule member
    rw [List.mem_singleton.mp member]
    decide
  obtain ⟨longest, greatest, cut, -⟩ := expand_cut opensNoLoop 498 divisionSeed
  obtain ⟨text, problems, complete, cutAt⟩ := cut (by simp [unlimited]) (by simp [unlimited])
  rw [unlimited] at complete
  cases complete
  have cutAtEight := cutAt { longestExpansion := 8 } rfl
  have cutAtNine := cutAt { longestExpansion := 9 } rfl
  have more : (8 : Int) < longest := by
    by_contra fits
    have same := cutAtEight.1 (Int.not_lt.mp fits)
    simp [expand, eight] at same
  have within : (longest : Int) ≤ 9 := by
    by_contra tooLong
    obtain ⟨found, -, same⟩ := cutAtNine.2 (Int.not_le.mp tooLong)
    simp [expand, nine] at same
  obtain rfl : longest = 9 := by omega
  obtain ⟨found, -, stopped⟩ := cutAtEight.2 more
  exact ⟨greatest, ⟨found, stopped⟩, cutAtNine.1 within⟩

end SpringArm.Expansion
