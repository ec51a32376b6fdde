import SpringArm.Proofs.Blueprint.Counts
import SpringArm.Proofs.Build.Overlong
import SpringArm.Proofs.Expansion.Counts

/-!
# Problems are collected

What is wrong with a description or a seed is a problem of the result and keeps neither from being
read, with two exceptions. A description fails at a count with too many digits, and a seed at the
count of a loop with a character that looks like a digit and has no decimal value.
-/

namespace SpringArm

/-- A description is read, with its problems, exactly if no count in it has more digits than are
read. With its rules every seed is expanded, with its problems, unless the expansion comes to a
count that has from the seed a character that looks like a digit and has no decimal value. -/
theorem read_expand_collected (text : List Char) (seed : Option (List Char)) :
    ((∃ blueprint problems, (Blueprint.read (some text)).value = .ok (blueprint, problems)) ↔
      ∀ product count, Statement.random product count ∈ Reading.statements text →
        count.digits.length ≤ Decimal.integerDigitLimit) ∧
    ∀ blueprint problems, (Blueprint.read (some text)).value = .ok (blueprint, problems) →
      (∃ expanded, (Expansion.expand blueprint.rules {} seed).value = .ok expanded) ∨
      ∃ digits misread, (Expansion.expand blueprint.rules {} seed).value =
          .error (.badCount (.notDecimal digits)) ∧
        misread ∈ digits ∧ misread ∈ seed.getD [] ∧ Text.IsMisleading misread := by
  refine ⟨Blueprint.read_succeeds_iff text, ?_⟩
  intro blueprint problems read
  rcases Expansion.ending_cases (Blueprint.read_rulesSpelt read)
      (show (1000 : Int) ≤ Decimal.integerDigitLimit by decide)
      (show (1000 : Int) < 3 * ((498 : Nat) + 1) by decide) (seed.getD []) with
    ⟨expanded, found, ending⟩ | ⟨found, ending⟩ | ⟨digits, misread, ending, misreads⟩
  · exact .inl ⟨_, congrArg Logged.value (Expansion.expand_of_complete {} seed ending)⟩
  · exact .inl ⟨_, congrArg Logged.value (Expansion.expand_of_overlong {} seed ending)⟩
  · have failed := congrArg Logged.value (Expansion.expand_of_badCount {} seed ending)
    exact .inr ⟨digits, misread, failed, misreads⟩

/-- A count of one digit more than are read, and a loop whose count is a superscript. -/
theorem read_expand_collected_fails :
    (Blueprint.read (some ("randomMasses ".toList ++ List.replicate 4301 '9'))).value =
        .error (.tooManyDigits 4301) ∧
      (Expansion.expand [] {} (some "(²)\x7bA\x7d".toList)).value =
        .error (.badCount (.notDecimal ['²'])) := by
  constructor
  · have plain : Digits (List.replicate 4301 '9') := by
      intro character member
      rw [List.eq_of_mem_replicate member]
      rfl
    have length : (List.replicate 4301 '9').length = 4301 := List.length_replicate
    have failed := Blueprint.read_of_manyDigits plain (by rw [length]; decide)
    rwa [length] at failed
  · have ending : Expansion.ending [] 498 (some 1000) "(²)\x7bA\x7d".toList =
        .badCount (.notDecimal ['²']) := Expansion.Scan.run_of_step_error rfl
    exact congrArg Logged.value
      (Expansion.expand_of_badCount {} (some "(²)\x7bA\x7d".toList) ending)

end SpringArm
