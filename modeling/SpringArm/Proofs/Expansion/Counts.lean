import SpringArm.Proofs.Expansion.Problems

/-!
# Counts that cannot be read

The head of a loop is recognised by characters that look like digits, and some of them have no
decimal value. With rules from a description this is all that can keep a seed from being expanded: a
text within the limit has no room for a count with too many digits or for as many loop heads as
would be too deep in each other, no rule writes a character that looks like a digit and is none, and
no rule opens a loop.
-/

namespace SpringArm

namespace Text

/-- A character looks like a digit and has no decimal value. -/
def IsMisleading (character : Char) : Prop :=
  isDigitLike character = true ∧ digitValue? character = none

/-- A text that spells no number has a character without a decimal value. -/
theorem exists_of_natOfDigits?_eq_none {digits : List Char} (unread : natOfDigits? digits = none) :
    ∃ digit ∈ digits, digitValue? digit = none := by
  by_contra every
  push Not at every
  have read : ∀ number, (digits.foldl
      (fun number character => do return (← number) * 10 + (← digitValue? character))
      (some number)).isSome = true := by
    clear unread
    induction digits with
    | nil => exact fun number => rfl
    | cons digit rest inductionHypothesis =>
      obtain ⟨first, others⟩ := List.forall_mem_cons.mp every
      obtain ⟨value, known⟩ := Option.ne_none_iff_exists'.mp first
      intro number
      rw [List.foldl_cons, known]
      exact inductionHypothesis others (number * 10 + value)
  have some := read 0
  rw [natOfDigits?] at unread
  rw [unread] at some
  cases some

end Text

/-- Digits that are not too many spell no integer only if one of them has no decimal value. -/
theorem Decimal.integerOfDigits_eq_error {negative : Bool} {digits : List Char}
    {fault : IntegerFault} (few : digits.length ≤ integerDigitLimit)
    (failed : integerOfDigits negative digits = .error fault) :
    fault = .notDecimal digits ∧ ∃ digit ∈ digits, Text.digitValue? digit = none := by
  have short : (digits.takeWhile fun digit => (Text.digitValue? digit).isSome).length ≤
      integerDigitLimit := (List.takeWhile_prefix _).length_le.trans few
  rw [integerOfDigits, if_neg (Nat.not_lt.mpr short)] at failed
  split at failed
  next unread =>
    cases failed
    exact ⟨rfl, Text.exists_of_natOfDigits?_eq_none unread⟩
  · cases failed

namespace Expansion

/-- No character on the right side of a rule is misleading. -/
theorem not_misleading_of_replacement {character : Char}
    (written : Statement.isReplacementCharacter character = true) :
    ¬ Text.IsMisleading character := by
  rintro ⟨digitLike, noValue⟩
  have ascii : character.toNat < 128 := by
    simp only [Statement.isReplacementCharacter, Statement.isSearchCharacter, Char.isAlphanum,
      Bool.or_eq_true, beq_iff_eq] at written
    rcases written with ((letter | digit) | rfl) | rfl
    · exact toNat_lt_of_isSymbol letter
    · have bounds := Text.isDigit_iff.mp digit
      omega
    · decide
    · decide
  rw [Text.digitValue?_plain (isDigit_of_isDigitLike ascii digitLike)] at noValue
  cases noValue

namespace Scan

/-- Every character of the text is one of the seed or was written by a rule. -/
def Sourced (rules : List Rule) (seed : List Char) (scan : Scan) : Prop :=
  ∀ character ∈ scan.text, character ∈ seed ∨ ∃ rule ∈ rules, character ∈ rule.replacement

variable {rules : List Rule} {seed : List Char} {scan next : Scan}

theorem start_sourced (rules : List Rule) (deepest loopsLeft : Nat) (seed : List Char) :
    (start deepest loopsLeft seed).Sourced rules seed :=
  fun _ member => .inl (start_text deepest loopsLeft seed ▸ member)

theorem Sourced.moved (sourced : scan.Sourced rules seed) (moved : Moved rules scan next) :
    next.Sourced rules seed := by
  cases moved.textChange with
  | kept text loops => simpa only [Sourced, text] using sourced
  | replaced front character tail before after loops =>
    rw [Sourced, before] at sourced
    obtain ⟨frontSourced, others⟩ := List.forall_mem_append.mp sourced
    obtain ⟨characterSourced, tailSourced⟩ := List.forall_mem_cons.mp others
    rw [Sourced, after]
    refine List.forall_mem_append.mpr ⟨frontSourced, List.forall_mem_append.mpr ⟨?_, tailSourced⟩⟩
    rcases rewriteCharacter_cases rules character with ⟨rule, member, written⟩ | written
    · rw [written]
      exact fun letter inside => .inr ⟨rule, member, inside⟩
    · rw [written]
      exact List.forall_mem_singleton.mpr characterSourced
  | removed front gone tail before after loops =>
    rw [Sourced, before] at sourced
    obtain ⟨frontSourced, others⟩ := List.forall_mem_append.mp sourced
    rw [Sourced, after]
    exact List.forall_mem_append.mpr ⟨frontSourced, (List.forall_mem_append.mp others).2⟩

/-- The head of a loop is not longer than a text within the limit. -/
theorem Measured.head_length_le (measured : scan.Measured) {longest : Int}
    (fits : scan.isOverlong (some longest) = false) {digits body : List Char}
    (spelling : scan.rest = '(' :: (digits ++ ')' :: '\x7b' :: body)) :
    (digits.length : Int) ≤ longest := by
  have within : ¬ longest < scan.length := of_decide_eq_false fits
  have length := measured.length
  simp only [spelling, List.length_cons, List.length_append] at length
  omega

end Scan

theorem count_brackets_le (text : List Char) :
    text.count '(' + text.count ')' + text.count '\x7b' ≤ text.length := by
  induction text with
  | nil => exact Nat.le_refl 0
  | cons character rest inductionHypothesis =>
    have atMostOne : (if character = '(' then 1 else 0) + (if character = ')' then 1 else 0) +
        (if character = '\x7b' then 1 else 0) ≤ 1 := by
      by_cases opening : character = '('
      · simp [opening]
      · by_cases closing : character = ')'
        · simp [closing]
        · rw [if_neg opening, if_neg closing]
          split <;> decide
    simp only [List.count_cons, List.length_cons, beq_iff_eq]
    omega

/-- With rules from a description a seed that is not too long from the start has no room for more
loops in each other than fit into it. -/
theorem ending_ne_tooDeep {rules : List Rule} (spelt : ∀ rule ∈ rules, rule.Spelt) {deepest : Nat}
    {longest : Int} (room : longest < 3 * (deepest + 1)) (seed : List Char) :
    ending rules deepest (some longest) seed ≠ .tooDeep := by
  intro tooDeep
  have heads : ∀ bracket ∈ headBrackets, deepest < seed.count bracket :=
    fun bracket isBracket => deepest_lt_count isBracket (bracket_not_mem spelt isBracket) tooDeep
  have opening := heads '(' (by decide)
  have closing := heads ')' (by decide)
  have brace := heads '\x7b' (by decide)
  have brackets := count_brackets_le seed
  have nonempty : seed ≠ [] := by
    rintro rfl
    exact absurd opening (Nat.not_lt_zero _)
  rw [ending_of_long nonempty (by omega)] at tooDeep
  cases tooDeep

/-- With rules from a description and a limit below that of counts, which has no room for as many
loop heads as would be too deep in each other, an expansion fails only at a count with a misleading
character, which it has from the seed. -/
theorem ending_cases {rules : List Rule} (spelt : ∀ rule ∈ rules, rule.Spelt) {deepest : Nat}
    {longest : Int} (short : longest ≤ Decimal.integerDigitLimit)
    (room : longest < 3 * (deepest + 1)) (seed : List Char) :
    (∃ text problems, ending rules deepest (some longest) seed = .complete text problems) ∨
      (∃ problems, ending rules deepest (some longest) seed = .overlong problems) ∨
      ∃ digits misread,
        ending rules deepest (some longest) seed = .badCount (.notDecimal digits) ∧
          misread ∈ digits ∧ misread ∈ seed ∧ Text.IsMisleading misread := by
  have enough := count_le_loopAllowance rules seed
  rw [← Scan.start_text deepest (loopAllowance rules seed) seed] at enough
  have kept : ∀ before after : Scan,
      before.Measured ∧ before.Sourced rules seed ∧ before.text.count '(' ≤ before.loopsLeft →
      Scan.Moved rules before after →
      after.Measured ∧ after.Sourced rules seed ∧ after.text.count '(' ≤ after.loopsLeft := by
    rintro before after ⟨measured, sourced, enough⟩ moved
    have openings := moved.openings_le (opensNoLoop_of_spelt spelt)
    have used := moved.loops
    exact ⟨measured.moved moved, sourced.moved moved, by omega⟩
  obtain ⟨last, ⟨measured, sourced, enough⟩, stopped⟩ := Scan.run_invariant rules (some longest) _
    ⟨Scan.start_measured deepest _ seed, Scan.start_sourced rules deepest _ seed, enough⟩ kept
  have possible := stopped.not_endless enough
  change Scan.Stopped (some longest) last (ending rules deepest (some longest) seed) at stopped
  cases reached : ending rules deepest (some longest) seed with
  | complete text problems => exact .inl ⟨text, problems, rfl⟩
  | overlong problems => exact .inr (.inl ⟨problems, rfl⟩)
  | endless => exact absurd reached possible
  | tooDeep => exact absurd reached (ending_ne_tooDeep spelt room seed)
  | badCount fault =>
    rw [reached] at stopped
    cases stopped with
    | @badCount digits body _ fits head noNumber =>
      obtain ⟨spelling, -, digitLike⟩ := loopHead?_eq_some head
      have few := measured.head_length_le fits spelling
      obtain ⟨rfl, misread, member, noValue⟩ :=
        Decimal.integerOfDigits_eq_error (Int.ofNat_le.mp (few.trans short)) noNumber
      have misleading : Text.IsMisleading misread := ⟨digitLike misread member, noValue⟩
      have inside : misread ∈ last.text := by
        simp [Scan.text, spelling, member]
      have notWritten : ¬ ∃ rule ∈ rules, misread ∈ rule.replacement := by
        rintro ⟨rule, known, written⟩
        exact not_misleading_of_replacement ((spelt rule known).2 misread written) misleading
      have inSeed := (sourced misread inside).resolve_right notWritten
      exact .inr (.inr ⟨digits, misread, rfl, member, inSeed, misleading⟩)

end Expansion

end SpringArm
