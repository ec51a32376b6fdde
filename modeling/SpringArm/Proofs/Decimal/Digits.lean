import Mathlib.Data.List.TakeWhile
import SpringArm.Decimal.Reading

/-!
# Plain digits

The ten ASCII digits among the digits of all scripts: they have their usual values, so a text of
them spells the number that `natOfPlain` reads, as long as it is not too long.
-/

namespace SpringArm

namespace Text

theorem isDigit_iff {character : Char} :
    character.isDigit = true ↔ 48 ≤ character.toNat ∧ character.toNat ≤ 57 := by
  simp only [Char.isDigit, Bool.and_eq_true, decide_eq_true_eq, ge_iff_le, UInt32.le_iff_toNat_le]
  rfl

/-- A plain digit has its distance from zero as its value. -/
theorem digitValue?_plain {digit : Char} (plain : digit.isDigit = true) :
    digitValue? digit = some (digit.toNat - 48) := by
  obtain ⟨low, high⟩ := isDigit_iff.mp plain
  have first : (scriptZeros.find? fun first => first ≤ digit.toNat && digit.toNat < first + 10) =
      some 48 := by
    rw [scriptZeros, List.find?_cons_of_pos]
    simp only [Bool.and_eq_true, decide_eq_true_eq]
    omega
  rw [digitValue?, first]
  rfl

theorem isDigitLike_plain {digit : Char} (plain : digit.isDigit = true) :
    isDigitLike digit = true := by
  simp [isDigitLike, digitValue?_plain plain]

/-- The number of a text of plain digits. -/
theorem natOfDigits?_plain {digits : List Char}
    (plain : ∀ digit ∈ digits, digit.isDigit = true) :
    natOfDigits? digits = some (Decimal.natOfPlain digits) := by
  have folded : ∀ number, digits.foldl
      (fun number character => do return (← number) * 10 + (← digitValue? character))
        (some number) =
      some (digits.foldl (fun number digit => number * 10 + (digit.toNat - 48)) number) := by
    induction digits with
    | nil => exact fun number => rfl
    | cons digit rest inductionHypothesis =>
      obtain ⟨first, others⟩ := List.forall_mem_cons.mp plain
      intro number
      rw [List.foldl_cons, List.foldl_cons, ← inductionHypothesis others, digitValue?_plain first]
      rfl
  exact folded 0

end Text

namespace Decimal

/-- A text of plain digits behind a sign is read unless it is too long. -/
theorem integerOfDigits_of_signed (negative : Bool) {digits : List Char}
    (plain : ∀ digit ∈ digits, digit.isDigit = true) :
    integerOfDigits negative digits = if integerDigitLimit < digits.length
      then .error (.tooManyDigits digits.length)
      else .ok (if negative then -(natOfPlain digits : Int) else natOfPlain digits) := by
  have all : digits.takeWhile (fun digit => (Text.digitValue? digit).isSome) = digits := by
    rw [List.takeWhile_eq_self_iff]
    intro digit member
    rw [Text.digitValue?_plain (plain digit member)]
    rfl
  simp only [integerOfDigits, all, Text.natOfDigits?_plain plain]

/-- A text of plain digits is read unless it is too long. -/
theorem integerOfDigits_of_plain {digits : List Char}
    (plain : ∀ digit ∈ digits, digit.isDigit = true) :
    integerOfDigits false digits = if integerDigitLimit < digits.length
      then .error (.tooManyDigits digits.length) else .ok (natOfPlain digits : Int) := by
  rw [integerOfDigits_of_signed false plain]
  rfl

theorem integerOfDigits_plain {digits : List Char}
    (plain : ∀ digit ∈ digits, digit.isDigit = true) (short : digits.length ≤ integerDigitLimit) :
    integerOfDigits false digits = .ok (natOfPlain digits : Int) := by
  rw [integerOfDigits_of_plain plain, if_neg (Nat.not_lt.mpr short)]

end Decimal

end SpringArm
