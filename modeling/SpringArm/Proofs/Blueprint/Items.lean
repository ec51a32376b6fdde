import SpringArm.Proofs.Blueprint.Spelling

/-!
# Items at the start of a text

Every reader of an item reads what spells it and leaves the rest of the text. Readers take as many
characters of a kind as there are, so an item is read as it was written if the rest does not start
with a character that could still belong to it. `Stops` says so; it holds of blanks and of what
stands behind them, since blanks belong to no item.
-/

namespace SpringArm

open Statement

/-- No character of a kind stands at the start of a text. -/
def Stops (test : Char → Bool) (text : List Char) : Prop :=
  ∀ first ∈ text.head?, test first = false

section Runs

variable {test : Char → Bool} {run rest : List Char}

theorem stops_nil (test : Char → Bool) : Stops test [] := nofun

theorem stops_cons {first : Char} (other : test first = false) : Stops test (first :: rest) := by
  rintro _ ⟨⟩
  exact other

theorem stops_dropWhile (test : Char → Bool) (text : List Char) :
    Stops test (text.dropWhile test) := by
  intro first starts
  have stops := List.head?_dropWhile_not test text
  rw [Option.mem_def.mp starts] at stops
  exact stops

/-- The characters of a kind at the start of a text end where none of them follows. -/
theorem takeWhile_run (inside : ∀ character ∈ run, test character = true)
    (stops : Stops test rest) : (run ++ rest).takeWhile test = run := by
  rw [List.takeWhile_append_of_pos inside]
  cases rest with
  | nil => simp
  | cons first more => rw [List.takeWhile_cons_of_neg (by simp [stops first rfl]), List.append_nil]

theorem dropWhile_run (inside : ∀ character ∈ run, test character = true)
    (stops : Stops test rest) : (run ++ rest).dropWhile test = rest := by
  rw [List.dropWhile_append_of_pos inside]
  cases rest with
  | nil => rfl
  | cons first more => rw [List.dropWhile_cons_of_neg (by simp [stops first rfl])]

end Runs

section Blanks

theorem isGap_cases {character : Char} (blank : isGap character = true) :
    character = ' ' ∨ character = '\t' := by
  simpa [isGap] using blank

variable (test : Char → Bool) (space : test ' ' = false) (tab : test '\t' = false)

include space tab

/-- A blank is no character of a kind to which the blanks do not belong. -/
theorem other_of_isGap {character : Char} (blank : isGap character = true) :
    test character = false := by
  rcases isGap_cases blank with rfl | rfl
  · exact space
  · exact tab

theorem solid_of_test {character : Char} (passes : test character = true) :
    isGap character = false := by
  by_contra blank
  rw [Bool.not_eq_false] at blank
  rw [other_of_isGap test space tab blank] at passes
  cases passes

/-- What follows an item is no character of a kind to which the blanks do not belong. -/
theorem stops_of_endsItem {text : List Char} (ends : endsItem text = true) : Stops test text := by
  intro first starts
  rw [endsItem, Option.mem_def.mp starts, Option.all_some] at ends
  exact other_of_isGap test space tab ends

theorem Gaps.stops {gaps rest : List Char} (blank : Gaps gaps) (stops : Stops test rest) :
    Stops test (gaps ++ rest) := by
  cases gaps with
  | nil => exact stops
  | cons gap more => exact stops_cons (other_of_isGap test space tab (blank gap List.mem_cons_self))

end Blanks

theorem endsItem_of_stops {text : List Char} (stops : Stops (!isGap ·) text) :
    endsItem text = true := by
  cases text with
  | nil => rfl
  | cons first more => simpa [endsItem] using stops first rfl

theorem endsItem_gaps {gaps : List Char} (blank : Gaps gaps) : endsItem gaps = true := by
  cases gaps with
  | nil => rfl
  | cons first more => exact blank first List.mem_cons_self

/-- A text of blanks is skipped in front of a text that does not start with one. -/
theorem Gaps.skipGaps {gaps rest : List Char} (blank : Gaps gaps) (stops : Stops isGap rest) :
    skipGaps (gaps ++ rest) = rest :=
  dropWhile_run blank stops

theorem Gaps.skipGaps_self {gaps : List Char} (blank : Gaps gaps) : Statement.skipGaps gaps = [] :=
  List.dropWhile_eq_nil_iff.mpr blank

/-- What is skipped at the start of a text are blanks. -/
theorem exists_gaps (text : List Char) :
    ∃ gaps, Gaps gaps ∧ text = gaps ++ skipGaps text ∧ Stops isGap (skipGaps text) :=
  ⟨text.takeWhile isGap, fun _ member => List.mem_takeWhile_imp member,
    List.takeWhile_append_dropWhile.symm, stops_dropWhile isGap text⟩

theorem expect_eq_some_iff {expected : Char} {text rest : List Char} :
    expect expected text = some rest ↔ text = expected :: rest := by
  cases text with
  | nil => simp [expect]
  | cons first more =>
    simp only [expect, List.cons.injEq]
    split
    next same => simp [same]
    next different => simp [different]

/-- A minus sign belongs to what it stands in front of. -/
theorem splitMinus_eq {text : List Char} {negative : Bool} {unsigned : List Char} :
    splitMinus text = (negative, unsigned) →
      text = minusSign negative ++ unsigned := by
  unfold splitMinus
  split
  · rintro ⟨⟩
    rfl
  · rintro ⟨⟩
    rfl

theorem splitMinus_minusSign {unsigned : List Char} (negative : Bool)
    (noSign : unsigned.head? ≠ some '-') :
    splitMinus (minusSign negative ++ unsigned) = (negative, unsigned) := by
  cases negative with
  | true => rfl
  | false =>
    simp only [minusSign, Bool.false_eq_true, if_false, List.nil_append]
    unfold splitMinus
    split
    · exact absurd rfl noSign
    · rfl

/-- A number reaches as far as it can: no digit follows it, and no point if it has none. -/
def Numeral.EndsBefore (numeral : Numeral) (rest : List Char) : Prop :=
  Stops Char.isDigit rest ∧ (numeral.fraction = none → Stops (· == '.') rest)

/-- A number is read from a text that starts with it. -/
theorem readNumeral_text {numeral : Numeral} (legal : numeral.Legal) {rest : List Char}
    (ends : numeral.EndsBefore rest) :
    readNumeral (numeral.text ++ rest) = some (numeral, rest) := by
  obtain ⟨negative, whole, fraction⟩ := numeral
  obtain ⟨nonempty, wholeDigits, fractionDigits⟩ := legal
  obtain ⟨stops, noPoint⟩ := ends
  dsimp only at nonempty wholeDigits fractionDigits noPoint
  have isEmpty : whole.isEmpty = false := by simpa using nonempty
  have noSign : ∀ behind, (whole ++ behind).head? ≠ some '-' := by
    intro behind
    obtain ⟨first, more, rfl⟩ := List.exists_cons_of_ne_nil nonempty
    rintro ⟨⟩
    exact absurd (wholeDigits _ List.mem_cons_self) (by decide)
  simp only [Numeral.text, List.append_assoc]
  cases fraction with
  | none =>
    simp only [Option.elim_none, List.nil_append, readNumeral, splitMinus_minusSign _ (noSign _),
      takeWhile_run wholeDigits stops, dropWhile_run wholeDigits stops, isEmpty,
      Bool.false_eq_true, if_false]
    split
    next behindPoint => exact absurd (noPoint rfl '.' rfl) (by decide)
    · rfl
  | some digits =>
    have point : Stops Char.isDigit ('.' :: (digits ++ rest)) := stops_cons rfl
    simp only [Option.elim_some, List.cons_append, readNumeral,
      splitMinus_minusSign _ (noSign _), takeWhile_run wholeDigits point,
      dropWhile_run wholeDigits point, isEmpty, Bool.false_eq_true, if_false,
      takeWhile_run (fractionDigits digits rfl) stops,
      dropWhile_run (fractionDigits digits rfl) stops]

/-- What is read as a number is the number at the start of the text. -/
theorem eq_text_of_readNumeral {text rest : List Char} {numeral : Numeral}
    (found : readNumeral text = some (numeral, rest)) :
    numeral.Legal ∧ text = numeral.text ++ rest ∧ numeral.EndsBefore rest := by
  unfold readNumeral at found
  cases split : splitMinus text with
  | mk negative unsigned =>
    have whole : Digits (unsigned.takeWhile Char.isDigit) := fun _ => List.mem_takeWhile_imp
    have parts := List.takeWhile_append_dropWhile (p := Char.isDigit) (l := unsigned)
    have stops := stops_dropWhile Char.isDigit unsigned
    rw [splitMinus_eq split]
    simp only [split] at found
    split at found
    · cases found
    next nonempty =>
      rw [List.isEmpty_iff] at nonempty
      split at found
      next behindPoint point =>
        cases found
        refine ⟨⟨nonempty, whole, ?_⟩, ?_, stops_dropWhile _ _, nofun⟩
        · rintro _ ⟨⟩
          exact fun _ => List.mem_takeWhile_imp
        · rw [point] at parts
          simp [Numeral.text, parts]
      next noPoint =>
        cases found
        refine ⟨⟨nonempty, whole, nofun⟩, ?_, stops, fun _ first starts => ?_⟩
        · simp [Numeral.text, parts]
        · rw [beq_eq_false_iff_ne]
          rintro rfl
          obtain ⟨more, behind⟩ := List.head?_eq_some_iff.mp starts
          exact noPoint more behind

theorem numeralOfWord?_eq_some_iff {word : List Char} {numeral : Numeral} :
    numeralOfWord? word = some numeral ↔ numeral.Spells word := by
  constructor
  · intro found
    unfold numeralOfWord? at found
    split at found
    next spelt read =>
      cases found
      obtain ⟨legal, text, -⟩ := eq_text_of_readNumeral read
      exact ⟨legal, text.trans (List.append_nil _)⟩
    · cases found
  · rintro ⟨legal, rfl⟩
    have read := readNumeral_text legal ⟨stops_nil _, fun _ => stops_nil _⟩
    rw [List.append_nil] at read
    simp only [numeralOfWord?, read]

theorem countOfWord?_eq_some_iff {word : List Char} {count : Count} :
    countOfWord? word = some count ↔ count.Spells word := by
  obtain ⟨negative, digits⟩ := count
  constructor
  · intro found
    unfold countOfWord? at found
    cases split : splitMinus word with
    | mk sign unsigned =>
      simp only [split] at found
      split at found
      next legal =>
        cases found
        simp only [Bool.and_eq_true, Bool.not_eq_true', List.isEmpty_eq_false_iff,
          List.all_eq_true] at legal
        exact ⟨legal.1, legal.2, splitMinus_eq split⟩
      · cases found
  · rintro ⟨nonempty, legal, rfl⟩
    have noSign : digits.head? ≠ some '-' := by
      intro starts
      exact absurd (legal '-' (List.mem_of_head? starts)) (by decide)
    have allDigits : digits.all Char.isDigit = true := List.all_eq_true.mpr legal
    have isEmpty : digits.isEmpty = false := by simpa using nonempty
    simp [countOfWord?, splitMinus_minusSign _ noSign, allDigits, isEmpty]

/-- A word has no blanks. -/
def SpellsWord (word text : List Char) : Prop :=
  word ≠ [] ∧ (∀ character ∈ word, isGap character = false) ∧ text = word

/-- No word starts with a blank. -/
theorem SpellsWord.stops {word text : List Char} (spells : SpellsWord word text)
    (rest : List Char) : Stops isGap (text ++ rest) := by
  obtain ⟨nonempty, solid, rfl⟩ := spells
  obtain ⟨first, more, rfl⟩ := List.exists_cons_of_ne_nil nonempty
  exact stops_cons (solid first List.mem_cons_self)

theorem words_gaps {gaps : List Char} (blank : Gaps gaps) (rest : List Char) :
    words (gaps ++ rest) = words rest := by
  induction gaps with
  | nil => rfl
  | cons gap more inductionHypothesis =>
    obtain ⟨first, others⟩ := List.forall_mem_cons.mp blank
    rw [List.cons_append, ← inductionHypothesis others]
    cases more ++ rest with
    | nil => simp [words, first]
    | cons next behind => rw [words, if_pos first]

theorem words_word {word rest : List Char} (nonempty : word ≠ [])
    (solid : ∀ character ∈ word, isGap character = false) (ends : endsItem rest = true) :
    words (word ++ rest) = word :: words rest := by
  induction word with
  | nil => exact absurd rfl nonempty
  | cons character more inductionHypothesis =>
    obtain ⟨first, others⟩ := List.forall_mem_cons.mp solid
    cases more with
    | nil =>
      cases rest with
      | nil => simp [words, first]
      | cons gap behind =>
        have isGap : isGap gap = true := ends
        simp [words, first, isGap]
    | cons next others' =>
      have second : isGap next = false := others next List.mem_cons_self
      have behind := inductionHypothesis (List.cons_ne_nil _ _) others
      rw [List.cons_append] at behind
      rw [List.cons_append, List.cons_append, words, behind]
      simp [first, second]

theorem minusSign_solid {negative : Bool} {character : Char}
    (member : character ∈ minusSign negative) : isGap character = false := by
  cases negative with
  | true =>
    obtain rfl : character = '-' := by simpa [minusSign] using member
    rfl
  | false => simp [minusSign] at member

/-- A count is a word. -/
theorem Count.Spells.word {count : Count} {text : List Char} (spells : count.Spells text) :
    SpellsWord text text := by
  obtain ⟨nonempty, digits, rfl⟩ := spells
  refine ⟨by simp [nonempty], ?_, rfl⟩
  intro character member
  rcases List.mem_append.mp member with sign | digit
  · exact minusSign_solid sign
  · exact solid_of_test Char.isDigit rfl rfl (digits character digit)

/-- A number is a word. -/
theorem Numeral.Spells.word {numeral : Numeral} {text : List Char} (spells : numeral.Spells text) :
    SpellsWord text text := by
  obtain ⟨legal, rfl⟩ := spells
  refine ⟨?_, ?_, rfl⟩
  · simp [Numeral.text, legal.nonempty]
  · have digit : ∀ character : Char, character.isDigit = true → isGap character = false :=
      fun _ => solid_of_test Char.isDigit rfl rfl
    simp only [Numeral.text, List.mem_append]
    rintro character (sign | whole | fraction)
    · exact minusSign_solid sign
    · exact digit character (legal.whole character whole)
    · cases digits : numeral.fraction with
      | none => simp [digits] at fraction
      | some behind =>
        rw [digits, Option.elim_some, List.mem_cons] at fraction
        rcases fraction with rfl | behindPoint
        · rfl
        · exact digit character (legal.fraction behind digits character behindPoint)

/-- A number of bounds is read up to the blanks in front of the mark behind it. -/
theorem readNumeral_beforeMark {numeral : Numeral} (legal : numeral.Legal)
    {before behind : List Char} (beforeGaps : Gaps before) (behindGaps : Gaps behind) {mark : Char}
    (isMark : mark = ',' ∨ mark = ']') (rest : List Char) :
    readNumeral (skipGaps (before ++ (numeral.text ++ (behind ++ mark :: rest)))) =
        some (numeral, behind ++ mark :: rest) ∧
      skipGaps (behind ++ mark :: rest) = mark :: rest := by
  have others : Char.isDigit mark = false ∧ (mark == '.') = false ∧ isGap mark = false := by
    rcases isMark with rfl | rfl <;> decide
  obtain ⟨noDigit, noPoint, solid⟩ := others
  have ends : numeral.EndsBefore (behind ++ mark :: rest) :=
    ⟨behindGaps.stops Char.isDigit rfl rfl (stops_cons noDigit),
      fun _ => behindGaps.stops (· == '.') rfl rfl (stops_cons noPoint)⟩
  have word := Numeral.Spells.word ⟨legal, rfl⟩
  rw [beforeGaps.skipGaps (word.stops _), readNumeral_text legal ends,
    behindGaps.skipGaps (stops_cons solid)]
  exact ⟨rfl, rfl⟩

theorem readBounds_eq_some_iff {text rest : List Char} {bounds : Bounds} :
    readBounds text = some (bounds, rest) ↔
      ∃ spelt, bounds.Spells spelt ∧ text = spelt ++ rest := by
  constructor
  · intro found
    simp only [readBounds, Option.bind_eq_bind, Option.bind_eq_some_iff, Prod.exists,
      expect_eq_some_iff, Option.pure_def, Option.some.injEq, Prod.mk.injEq] at found
    obtain ⟨first, rfl, low, behindLow, readLow, second, comma, high, behindHigh, readHigh, last,
      bracket, rfl, rfl⟩ := found
    obtain ⟨lowLegal, lowText, -⟩ := eq_text_of_readNumeral readLow
    obtain ⟨highLegal, highText, -⟩ := eq_text_of_readNumeral readHigh
    obtain ⟨beforeLow, beforeLowGaps, beforeLowText, -⟩ := exists_gaps first
    obtain ⟨beforeComma, beforeCommaGaps, beforeCommaText, -⟩ := exists_gaps behindLow
    obtain ⟨beforeHigh, beforeHighGaps, beforeHighText, -⟩ := exists_gaps second
    obtain ⟨beforeBracket, beforeBracketGaps, beforeBracketText, -⟩ := exists_gaps behindHigh
    refine ⟨_, ⟨beforeLow, low.text, beforeComma, beforeHigh, high.text, beforeBracket,
      beforeLowGaps, ⟨lowLegal, rfl⟩, beforeCommaGaps, beforeHighGaps, ⟨highLegal, rfl⟩,
      beforeBracketGaps, rfl⟩, ?_⟩
    rw [beforeLowText, lowText, beforeCommaText, comma, beforeHighText, highText, beforeBracketText,
      bracket]
    simp
  · rintro ⟨_, ⟨beforeLow, _, behindLow, beforeHigh, _, behindHigh, beforeLowGaps, ⟨lowLegal, rfl⟩,
      behindLowGaps, beforeHighGaps, ⟨highLegal, rfl⟩, behindHighGaps, rfl⟩, rfl⟩
    obtain ⟨readLow, comma⟩ := readNumeral_beforeMark lowLegal beforeLowGaps behindLowGaps
      (.inl rfl) (beforeHigh ++ (bounds.high.text ++ (behindHigh ++ ']' :: rest)))
    obtain ⟨readHigh, bracket⟩ :=
      readNumeral_beforeMark highLegal beforeHighGaps behindHighGaps (.inr rfl) rest
    simp only [List.cons_append, List.append_assoc, List.nil_append, readBounds, expect, if_true,
      Option.bind_eq_bind, Option.bind_some, Option.pure_def, readLow, comma, readHigh, bracket]

theorem Bounds.Spells.head {bounds : Bounds} {text : List Char} (spells : bounds.Spells text) :
    ∃ more, text = '[' :: more := by
  obtain ⟨_, _, _, _, _, _, -, -, -, -, -, -, rfl⟩ := spells
  exact ⟨_, rfl⟩

theorem readSearch_eq_some_iff {text search rest : List Char} :
    readSearch text = some (search, rest) ↔
      IsIdentifier search ∧ text = search ++ rest ∧ Stops isSearchCharacter rest := by
  constructor
  · intro found
    have parts := List.takeWhile_append_dropWhile (p := isSearchCharacter) (l := text)
    have inside : ∀ character ∈ text.takeWhile isSearchCharacter,
        isSearchCharacter character = true := fun _ => List.mem_takeWhile_imp
    unfold readSearch at found
    split at found
    · cases found
    next first more taken =>
      split at found
      · cases found
      next noDigit =>
        cases found
        rw [taken] at parts inside
        refine ⟨⟨List.cons_ne_nil _ _, inside, ?_⟩, parts.symm, stops_dropWhile _ _⟩
        rintro _ ⟨⟩
        simpa using noDigit
  · rintro ⟨⟨nonempty, inside, noDigit⟩, rfl, stops⟩
    obtain ⟨first, more, rfl⟩ := List.exists_cons_of_ne_nil nonempty
    simp only [readSearch, takeWhile_run inside stops, dropWhile_run inside stops,
      noDigit first rfl, Bool.false_eq_true, if_false]

theorem readReplacement_eq_some_iff {text replacement rest : List Char} :
    readReplacement text = some (replacement, rest) ↔
      (replacement ≠ [] ∧ ∀ character ∈ replacement, isReplacementCharacter character = true) ∧
        text = replacement ++ rest ∧ Stops isReplacementCharacter rest := by
  constructor
  · intro found
    have parts := List.takeWhile_append_dropWhile (p := isReplacementCharacter) (l := text)
    have inside : ∀ character ∈ text.takeWhile isReplacementCharacter,
        isReplacementCharacter character = true := fun _ => List.mem_takeWhile_imp
    unfold readReplacement at found
    split at found
    · cases found
    next first more taken =>
      cases found
      rw [taken] at parts inside
      exact ⟨⟨List.cons_ne_nil _ _, inside⟩, parts.symm, stops_dropWhile _ _⟩
  · rintro ⟨⟨nonempty, inside⟩, rfl, stops⟩
    obtain ⟨first, more, rfl⟩ := List.exists_cons_of_ne_nil nonempty
    simp only [readReplacement, takeWhile_run inside stops, dropWhile_run inside stops]

theorem readRule_eq_some_iff {text rest : List Char} {rule : Rule} :
    readRule text = some (rule, rest) ↔
      ∃ spelt, rule.Spells spelt ∧ text = spelt ++ rest ∧ Stops isReplacementCharacter rest := by
  constructor
  · intro found
    simp only [readRule, Option.bind_eq_bind, Option.bind_eq_some_iff, Prod.exists,
      readSearch_eq_some_iff, expect_eq_some_iff, readReplacement_eq_some_iff, Option.pure_def,
      Option.some.injEq, Prod.mk.injEq] at found
    obtain ⟨search, behindSearch, ⟨identifier, rfl, -⟩, dash, dashed, behindArrow, rfl, replacement,
      behindRule, ⟨replacementSpelt, behindText, stops⟩, rfl, rfl⟩ := found
    obtain ⟨before, beforeGaps, beforeText, -⟩ := exists_gaps behindSearch
    obtain ⟨behind, behindGaps, behindGapsText, -⟩ := exists_gaps behindArrow
    refine ⟨_, ⟨identifier, replacementSpelt, before, behind, beforeGaps, behindGaps, rfl⟩, ?_,
      stops⟩
    rw [beforeText, dashed, behindGapsText, behindText]
    simp
  · rintro ⟨_, ⟨identifier, spelt, before, behind, beforeGaps, behindGaps, rfl⟩, rfl, stops⟩
    have search : readSearch (rule.search ++
        (before ++ '-' :: '>' :: (behind ++ (rule.replacement ++ rest)))) =
        some (rule.search, before ++ '-' :: '>' :: (behind ++ (rule.replacement ++ rest))) := by
      refine readSearch_eq_some_iff.mpr ⟨identifier, rfl, ?_⟩
      exact beforeGaps.stops isSearchCharacter rfl rfl (stops_cons rfl)
    have replacement : readReplacement (rule.replacement ++ rest) = some (rule.replacement, rest) :=
      readReplacement_eq_some_iff.mpr ⟨spelt, rfl, stops⟩
    have dash : isGap '-' = false := rfl
    have replacementSolid : Stops isGap (rule.replacement ++ rest) := by
      obtain ⟨first, more, text⟩ := List.exists_cons_of_ne_nil spelt.1
      rw [text]
      exact stops_cons (solid_of_test isReplacementCharacter rfl rfl
        (spelt.2 first (text ▸ List.mem_cons_self)))
    simp only [List.cons_append, List.append_assoc, readRule, search, Option.bind_eq_bind,
      Option.bind_some, beforeGaps.skipGaps (stops_cons dash), expect, if_true,
      behindGaps.skipGaps replacementSolid, replacement, Option.pure_def]

/-- No rule starts with a blank. -/
theorem Rule.Spells.head {rule : Rule} {text : List Char} (spells : rule.Spells text) :
    ∃ first more, text = first :: more ∧ isGap first = false := by
  obtain ⟨⟨nonempty, inside, -⟩, -, before, behind, -, -, rfl⟩ := spells
  obtain ⟨first, more, search⟩ := List.exists_cons_of_ne_nil nonempty
  rw [search] at inside ⊢
  exact ⟨first, _, rfl,
    solid_of_test isSearchCharacter rfl rfl (inside first List.mem_cons_self)⟩

end SpringArm
