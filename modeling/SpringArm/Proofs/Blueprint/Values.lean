import SpringArm.Proofs.Blueprint.Items
import SpringArm.Proofs.Decimal.Texts

/-!
# Values of numbers

The double that a number of a statement stands for is worked out from its digits. It is the one that
the text of the number spells wherever doubles are read from texts.
-/

namespace SpringArm

namespace Decimal

/-- No digit has an upper case. -/
theorem toLower_of_isDigit {digit : Char} (plain : digit.isDigit = true) :
    digit.toLower = digit := by
  have checked : ∀ code < 58, 48 ≤ code → (Char.ofNat code).toLower = Char.ofNat code := by decide
  obtain ⟨low, high⟩ := Text.isDigit_iff.mp plain
  have same := checked digit.toNat (by omega) low
  rwa [Char.ofNat_toNat] at same

/-- A text that starts with a digit is no word for infinity or the undefined value. -/
theorem readWord?_digit {digit : Char} (plain : digit.isDigit = true) (rest : List Char) :
    readWord? (digit :: rest) = none := by
  have noWord : ∀ first : Char, first.isDigit = false → ∀ more,
      String.ofList ((digit :: rest).map Char.toLower) ≠ String.ofList (first :: more) := by
    intro first other more same
    have letters := String.ofList_injective same
    rw [List.map_cons, toLower_of_isDigit plain, List.cons.injEq] at letters
    rw [letters.1, other] at plain
    cases plain
  have noInfinity : String.ofList ((digit :: rest).map Char.toLower) ≠ "inf" ∧
      String.ofList ((digit :: rest).map Char.toLower) ≠ "infinity" :=
    ⟨noWord 'i' rfl ['n', 'f'], noWord 'i' rfl ['n', 'f', 'i', 'n', 'i', 't', 'y']⟩
  have noNan : String.ofList ((digit :: rest).map Char.toLower) ≠ "nan" :=
    noWord 'n' rfl ['a', 'n']
  simp only [readWord?, noInfinity, noNan, decide_false, Bool.or_self, Bool.false_eq_true, if_false]

end Decimal

namespace Numeral

open Decimal

variable {numeral : Numeral}

theorem text_marks (legal : numeral.Legal) : ∀ character ∈ numeral.text, IsMark character := by
  have digits : ∀ {text : List Char}, Digits text → ∀ character ∈ text, IsMark character :=
    fun plain character member => .inl (plain character member)
  refine List.forall_mem_append.mpr ⟨?_, List.forall_mem_append.mpr ⟨digits legal.whole, ?_⟩⟩
  · cases numeral.negative with
    | true => exact marks_of_all rfl
    | false => exact nofun
  · cases fraction : numeral.fraction with
    | none => exact nofun
    | some behindPoint =>
      exact List.forall_mem_cons.mpr ⟨by decide, digits (legal.fraction behindPoint fraction)⟩

/-- A number without its sign. -/
theorem readUnsigned?_text (legal : numeral.Legal) :
    readUnsigned? (numeral.whole ++ numeral.fraction.elim [] ('.' :: ·)) =
      some (nearest (natOfPlain (numeral.whole ++ numeral.fraction.getD []))
        (-((numeral.fraction.getD []).length : Int))) := by
  obtain ⟨negative, whole, fraction⟩ := numeral
  obtain ⟨nonempty, wholeDigits, fractionDigits⟩ := legal
  dsimp only at nonempty wholeDigits fractionDigits ⊢
  have ends : ∀ {run : List Char}, Digits run →
      run.takeWhile Char.isDigit = run ∧ run.dropWhile Char.isDigit = [] := by
    intro run inside
    exact ⟨List.takeWhile_eq_self_iff.mpr inside, List.dropWhile_eq_nil_iff.mpr inside⟩
  cases fraction with
  | none =>
    simp [readUnsigned?, (ends wholeDigits).1, (ends wholeDigits).2, nonempty, readExponent?]
  | some digits =>
    have point : Stops Char.isDigit ('.' :: digits) := stops_cons rfl
    obtain ⟨taken, dropped⟩ := ends (fractionDigits digits rfl)
    simp [readUnsigned?, takeWhile_run wholeDigits point, dropWhile_run wholeDigits point, taken,
      dropped, nonempty, readExponent?]

/-- The value of a number is the double that its text spells. -/
theorem readFloat?_text (legal : numeral.Legal) : readFloat? numeral.text = some numeral.value := by
  have marks := text_marks legal
  have trimmed : Text.trimNumber numeral.text = numeral.text :=
    Text.trimNumber_solid fun character member => (marks character member).plain.1
  obtain ⟨digit, more, whole⟩ := List.exists_cons_of_ne_nil legal.nonempty
  have plain := legal.whole digit (whole ▸ List.mem_cons_self)
  have signed : splitSign numeral.text =
      (numeral.negative, numeral.whole ++ numeral.fraction.elim [] ('.' :: ·)) := by
    rw [text, whole]
    cases numeral.negative with
    | true => rfl
    | false => exact splitSign_digit plain _
  have noWord : readWord? (numeral.whole ++ numeral.fraction.elim [] ('.' :: ·)) = none := by
    rw [whole]
    exact readWord?_digit plain _
  simp only [readFloat?, trimmed, plainDigits_marks marks, withoutSeparators?_marks marks, signed,
    noWord, readUnsigned?_text legal, Option.bind_eq_bind, Option.bind_some,
    Option.orElse_eq_orElse, Option.orElse_none, Option.pure_def]
  rfl

end Numeral

end SpringArm
