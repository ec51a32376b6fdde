import SpringArm.Decimal.Layout
import SpringArm.Proofs.Decimal.Digits
import SpringArm.Proofs.Text.Lines

/-!
# Texts of numbers

A natural number is spelt with plain digits and read back from them, unless it has more digits than
are read. The text of a double has only digits and a few marks, so it can stand in a table as it
is. -/

namespace SpringArm.Decimal

open Text (isBlank)

/-- The characters that the text of a number can have. -/
def IsMark (character : Char) : Prop :=
  character.isDigit = true ∨ character ∈ ['+', '-', '.', 'a', 'e', 'f', 'i', 'n']

instance : DecidablePred IsMark := fun character =>
  inferInstanceAs (Decidable (character.isDigit = true ∨
    character ∈ ['+', '-', '.', 'a', 'e', 'f', 'i', 'n']))

/-- A text of marks can be checked mark by mark. -/
theorem marks_of_all {text : List Char} (marks : text.all (decide <| IsMark ·) = true) :
    ∀ character ∈ text, IsMark character := by
  simpa using marks

/-- No mark is blank, and none has a meaning in a table. -/
theorem IsMark.plain {character : Char} (mark : IsMark character) :
    isBlank character = false ∧ character ∉ [',', '"', '#'] := by
  rcases mark with digit | special
  · obtain ⟨low, high⟩ := Text.isDigit_iff.mp digit
    constructor
    · simp only [isBlank, Text.blankRanges, List.any_cons, List.any_nil, Bool.or_eq_false_iff,
        Bool.and_eq_false_iff, decide_eq_false_iff_not, and_true]
      omega
    · intro member
      simp only [List.mem_cons, List.not_mem_nil, or_false] at member
      rcases member with rfl | rfl | rfl <;> exact absurd digit (by decide)
  · simp only [List.mem_cons, List.not_mem_nil, or_false] at special
    rcases special with rfl | rfl | rfl | rfl | rfl | rfl | rfl | rfl <;>
      exact ⟨rfl, by decide⟩

section Naturals

theorem natDigits_plain (number : Nat) : ∀ digit ∈ natDigits number, digit.isDigit = true :=
  fun _ member => Nat.isDigit_of_mem_toDigits (by decide) (by decide) member

/-- The digits of a number spell it. -/
theorem natOfPlain_natDigits (number : Nat) : natOfPlain (natDigits number) = number := by
  rw [natDigits, natOfPlain]
  conv => rhs; rw [← Nat.ofDigitChars_ten_toDigits (n := number), Nat.ofDigitChars_eq_foldl]
  simp only [Nat.mul_comm 10]
  rfl

theorem natDigits_marks (number : Nat) : ∀ digit ∈ natDigits number, IsMark digit :=
  fun digit member => .inl (natDigits_plain number digit member)

/-- A text of marks has no digits of other scripts. -/
theorem plainDigits_marks {text : List Char} (marks : ∀ character ∈ text, IsMark character) :
    plainDigits text = text := by
  rw [plainDigits, List.map_congr_left (g := id), List.map_id]
  intro character member
  rcases marks character member with digit | special
  · obtain ⟨low, high⟩ := Text.isDigit_iff.mp digit
    simp only [Text.digitValue?_plain digit, id]
    rw [show 48 + (character.toNat - 48) = character.toNat by omega, Char.ofNat_toNat]
  · have noDigit : Text.digitValue? character = none := by
      simp only [List.mem_cons, List.not_mem_nil, or_false] at special
      rcases special with rfl | rfl | rfl | rfl | rfl | rfl | rfl | rfl <;> rfl
    simp only [noDigit, id]

/-- A text of marks has no separators. -/
theorem withoutSeparators?_marks {text : List Char}
    (marks : ∀ character ∈ text, IsMark character) : withoutSeparators? text = some text := by
  have noSeparator : ∀ character ∈ text, character ≠ '_' := by
    rintro character member rfl
    exact absurd (marks _ member) (by decide)
  have separated : ∀ previous, previous ≠ some '_' →
      underscoresSeparateDigits previous text = true := by
    clear marks
    induction text with
    | nil => intro previous noUnderscore; simpa [underscoresSeparateDigits] using noUnderscore
    | cons character rest inductionHypothesis =>
      obtain ⟨first, others⟩ := List.forall_mem_cons.mp noSeparator
      intro previous noUnderscore
      rw [underscoresSeparateDigits]
      · simp only [Bool.and_eq_true, Bool.or_eq_true, bne_iff_ne, ne_eq]
        refine ⟨.inl noUnderscore, ?_⟩
        exact inductionHypothesis others _ (by simpa using first)
      · exact first
  rw [withoutSeparators?, separated none (by simp), if_pos rfl, List.filter_eq_self.mpr]
  intro character member
  simpa using noSeparator character member

theorem splitSign_digit {digit : Char} (plain : digit.isDigit = true) (rest : List Char) :
    splitSign (digit :: rest) = (false, digit :: rest) := by
  unfold splitSign
  split
  next same =>
    cases same
    cases plain
  next same =>
    cases same
    cases plain
  · rfl

theorem splitSign_plain {digits : List Char} (plain : ∀ digit ∈ digits, digit.isDigit = true) :
    splitSign digits = (false, digits) := by
  cases digits with
  | nil => rfl
  | cons digit rest => exact splitSign_digit (plain digit List.mem_cons_self) rest

/-- A natural number is read back from its digits, unless there are too many. -/
theorem readInteger?_natDigits {number : Nat}
    (fits : (natDigits number).length ≤ integerDigitLimit) :
    readInteger? (natDigits number) = some (number : Int) := by
  have plain := natDigits_plain number
  have marks := natDigits_marks number
  have nonempty : natDigits number ≠ [] := Nat.toDigits_ne_nil
  have untrimmed : Text.trimNumber (natDigits number) = natDigits number :=
    Text.trimNumber_solid fun digit member => (marks digit member).plain.1
  have digits : ((natDigits number).isEmpty || !(natDigits number).all Char.isDigit) = false := by
    simpa [nonempty] using plain
  simp only [readInteger?, untrimmed, plainDigits_marks marks, withoutSeparators?_marks marks,
    Option.bind_eq_bind, Option.bind_some, splitSign_plain plain, digits, Bool.false_eq_true,
    if_false, integerOfDigits_plain plain fits, natOfPlain_natDigits]
  rfl

end Naturals

section Doubles

variable {digits : List Char}

theorem zeros_marks (count : Nat) : ∀ zero ∈ List.replicate count '0', IsMark zero := by
  intro zero member
  rw [List.eq_of_mem_replicate member]
  decide

theorem positional_marks (marks : ∀ digit ∈ digits, IsMark digit) (leading : Int) :
    ∀ character ∈ positional digits leading, IsMark character := by
  have point : IsMark '.' := by decide
  have zero : IsMark '0' := by decide
  unfold positional
  split
  · exact List.forall_mem_append.mpr ⟨List.forall_mem_cons.mpr ⟨zero,
      List.forall_mem_cons.mpr ⟨point, zeros_marks _⟩⟩, marks⟩
  · dsimp only
    split
    · refine List.forall_mem_append.mpr ⟨List.forall_mem_append.mpr ⟨marks, zeros_marks _⟩, ?_⟩
      exact List.forall_mem_cons.mpr ⟨point, List.forall_mem_singleton.mpr zero⟩
    · refine List.forall_mem_append.mpr ⟨?_, List.forall_mem_cons.mpr ⟨point, ?_⟩⟩
      · exact fun digit member => marks digit (List.mem_of_mem_take member)
      · exact fun digit member => marks digit (List.mem_of_mem_drop member)

theorem exponentText_marks (exponent : Int) :
    ∀ character ∈ exponentText exponent, IsMark character := by
  unfold exponentText
  dsimp only
  have sign : IsMark (if exponent < 0 then '-' else '+') := by
    split <;> decide
  exact List.forall_mem_append.mpr ⟨List.forall_mem_cons.mpr ⟨by decide,
    List.forall_mem_cons.mpr ⟨sign, zeros_marks _⟩⟩, natDigits_marks _⟩

theorem scientific_marks (marks : ∀ digit ∈ digits, IsMark digit) (leading : Int) :
    ∀ character ∈ scientific digits leading, IsMark character := by
  have exponent := exponentText_marks leading
  unfold scientific
  split
  · exact exponent
  · exact List.forall_mem_cons.mpr ⟨marks _ List.mem_cons_self, exponent⟩
  next digit more _ =>
    obtain ⟨first, others⟩ := List.forall_mem_cons.mp marks
    exact List.forall_mem_append.mpr ⟨List.forall_mem_cons.mpr ⟨first,
      List.forall_mem_cons.mpr ⟨by decide, others⟩⟩, exponent⟩

/-- The text of a double has only marks of numbers. -/
theorem floatText_marks (value : Float) : ∀ character ∈ floatText value, IsMark character := by
  have number : ∀ decimal : Number, ∀ character ∈ decimal.text, IsMark character := by
    intro decimal
    unfold Number.text
    dsimp only
    split
    · exact positional_marks (natDigits_marks _) _
    · exact scientific_marks (natDigits_marks _) _
  have unsigned : ∀ character ∈ if value.isInf then ['i', 'n', 'f'] else magnitudeText value,
      IsMark character := by
    split
    · exact marks_of_all rfl
    · unfold magnitudeText
      dsimp only
      split
      · exact marks_of_all rfl
      · exact number _
  unfold floatText
  dsimp only
  split
  · exact marks_of_all rfl
  · split
    · exact List.forall_mem_cons.mpr ⟨by decide, unsigned⟩
    · exact unsigned

end Doubles

end SpringArm.Decimal
